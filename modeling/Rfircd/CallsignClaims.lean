import Rfircd.CallsignEvents

/-! Claims on callsigns, and what binds and releases them.
Nobody shares a callsign, and whoever is known to own one goes by it. -/
namespace CallsignClaims

open Basics KeyedTable MessageText HostKey IrcMessage IrcState RadioGateway AirPolicy AirScreen
open Accounts ServerOutput ServerCore ServerCore.Server ServerSteps ServerInvariants LateResults
open CallsignCascade Ax25Codec CallsignTexts CallsignRecords CallsignFrames CallsignCommands CallsignEvents

variable {s t r : Server} {m : Moment} {uid : UserId} {id : ℕ} {user u : User} {call : Callsign}
  {ids : List UserId} {msg : Message}

/-- No two Internet users share a callsign, no two accounts do, and everybody who is known to own a
callsign goes by it, but for some. -/
structure Claimed (ids : List UserId) (s : Server) : Prop where
  orderly : Orderly s.accounts
  covers : Covers ids s
  clash : Clash [] s
  valid : ∀ uid call, uid.isRf = false → hold s uid = some call → Valid call

theorem Claimed.mono (h : Claimed [] s) (ids : List UserId) : Claimed ids s :=
  ⟨h.orderly, fun uid hunsettled => (by cases h.covers uid hunsettled), h.clash, h.valid⟩

theorem Clash.mono (h : Clash [] s) (ids : List UserId) : Clash ids s := by
  intro x y c hx hy hhx hhy hne
  rcases h x y c hx hy hhx hhy hne with hmem | hmem <;> cases hmem

theorem Claimed.settled (h : Claimed [] s) (hs : Known s) : Settled s := ⟨hs, h.covers⟩

/-- Nobody's callsign is another one, and nobody owns another one. -/
theorem Quiet.claimed (hq : Quiet s t) (hs : Settled s) (h : Claimed [] s) : Claimed [] t := by
  have hheld : ∀ uid call, uid.isRf = false → hold t uid = some call → hold s uid = some call := by
    intro uid call hip hcall
    obtain ⟨v, hv, hcall⟩ := Option.bind_eq_some_iff.mp hcall
    rcases hq.users uid v hv with hfresh | ⟨u, hu, hlike⟩
    · rw [hfresh.callsign] at hcall
      cases uid with
      | ip id => cases hcall
      | rf call => cases hip
    · rw [hold, hu, Option.bind_some, ← hlike.callsign]
      exact hcall
  refine ⟨hq.accounts.orderly h.orderly, (hq.settled hs).covers, fun x y c hx hy hhx hhy hne => ?_,
    fun uid call hip hcall => h.valid uid call hip (hheld uid call hip hcall)⟩
  exact h.clash x y c hx hy (hheld x c hx hhx) (hheld y c hy hhy) hne

theorem Claimed.of_calm (h : Claimed [] s) (hs : Known s) (hcalm : Calm s t) : Claimed [] t :=
  Quiet.claimed (hcalm.quiet (h.settled hs)) (h.settled hs) h

theorem known_of_standing (h : Standing s) : Known s := (owned_of_standing h).known

theorem apart_of_standing (h : Standing s) (ha : Orderly s.accounts) : Apart s :=
  apart_of_owned (owned_of_standing h) ha

/-- Callsigns are kept with the users and in the accounts. -/
theorem Claimed.of_same (h : Claimed ids s) (haccounts : t.accounts = s.accounts)
    (husers : t.state.users = s.state.users) : Claimed ids t := by
  have hrecalls : Recalls s t := .of_state haccounts husers
  have hhold : ∀ j, hold t j = hold s j := hold_of_users husers
  refine ⟨haccounts ▸ h.orderly, h.covers.of_hold hrecalls hhold, fun x y c hx hy hhx hhy hne => ?_,
    fun uid call hip hcall => h.valid uid call hip (hhold uid ▸ hcall)⟩
  rw [hhold] at hhx hhy
  exact h.clash x y c hx hy hhx hhy hne

/-! ### What the cascade leaves -/

/-- What is restored was the user's own. -/
theorem valid_of_sources (ha : Orderly s.accounts)
    (hvalid : ∀ uid call, uid.isRf = false → hold s uid = some call → Valid call)
    (hsources : ∀ j call, hold t j = some call → hold s j = some call ∨ own s j = some call) :
    ∀ uid call, uid.isRf = false → hold t uid = some call → Valid call := by
  intro uid call hip hcall
  rcases hsources uid call hcall with hheld | howned
  · exact hvalid uid call hip hheld
  · obtain ⟨-, -, -, -, -, -, hv⟩ := own_spec ha howned
    exact hv

theorem refreshPrivileges_claimed (hs : Standing s) (h : Claimed [uid] s)
    (hhold : hold s uid = none ∨ Covers [] s) : Claimed [] (s.refreshPrivileges m uid) := by
  have hknown := known_of_standing hs
  have hapart := apart_of_standing hs h.orderly
  obtain ⟨-, hround, hsettled⟩ := refreshPrivileges_round (m := m) hknown hapart h.covers
  refine ⟨hround.recalls.accounts ▸ h.orderly, ?_, hround.clash [] h.clash,
    valid_of_sources h.orderly h.valid hround.sources⟩
  rcases hhold with hnone | hcovers
  · have hcovered := hsettled hnone
    simpa using hcovered
  · exact (refreshPrivileges_round hknown hapart hcovers).2.1.covers

theorem stripCallsignClaims_claimed (hs : Standing s) (h : Claimed ids s) {keep : Option UserId}
    (hfree : ∀ v, keep ≠ some v → v.isRf = false → own s v ≠ some call) (notice : Text) :
    Claimed ids (s.stripCallsignClaims m call keep notice) ∧
      Recalls s (s.stripCallsignClaims m call keep notice) ∧
      ∀ j c, hold (s.stripCallsignClaims m call keep notice) j = some c →
        hold s j = some c ∨ own s j = some c := by
  obtain ⟨-, hrecalls, hcovers, hclash, hsources, -⟩ := stripCallsignClaims_round (m := m)
    (known_of_standing hs) (apart_of_standing hs h.orderly) h.covers hfree notice
  exact ⟨⟨hrecalls.accounts ▸ h.orderly, hcovers, hclash [] (Clash.mono h.clash _),
    valid_of_sources h.orderly h.valid hsources⟩, hrecalls, hsources⟩

/-! ### A callsign that is bound -/

/-- An account of a user who is known to own it gets a callsign. -/
theorem setCallsign_claimed {accounts : Store} (hs : Standing s) (h : Claimed [uid] s)
    (hip : uid.isRf = false) (hu : s.user uid = some u) (hi : u.nickIdentified = true)
    (hvalid : Valid call) (hset : s.accounts.setCallsign u.nick (callText call) = .ok accounts) :
    Claimed [uid] { s with accounts := accounts } ∧
      own { s with accounts := accounts } uid = some call := by
  have howned := owned_of_standing hs
  obtain ⟨⟨x, hx, hget⟩, -⟩ := setCallsign_spec h.orderly hset
  have hown : own { s with accounts := accounts } uid = some call := by
    have hu' : Server.user { s with accounts := accounts } uid = some u := hu
    rw [own_eq hu', if_pos hi, hget, if_pos rfl]
    exact fromStr_callText hvalid
  -- the accounts of all others are as they were
  have hothers : ∀ v call', v.isRf = false → v ≠ uid →
      own { s with accounts := accounts } v = some call' → own s v = some call' := by
    intro v call' hv hne howns
    obtain ⟨w, hw, -⟩ := Option.bind_eq_some_iff.mp howns
    have hw' : s.user v = some w := hw
    rw [own_eq hw] at howns
    rw [own_eq hw']
    split_ifs at howns ⊢ with hwi
    have hnick : lower w.nick ≠ lower u.nick := by
      intro heq
      have howner := howned.owner v w hv hw' hwi
      rw [heq, howned.owner uid u hip hu hi] at howner
      exact hne (Option.some.inj howner).symm
    rw [hget, if_neg hnick] at howns
    exact howns
  refine ⟨⟨h.orderly.setCallsign hvalid hset, ?_, h.clash, h.valid⟩, hown⟩
  rintro v ⟨hv, call', howns, hother⟩
  by_cases hne : v = uid
  · exact List.mem_singleton.mpr hne
  · exact h.covers v ⟨hv, call', hothers v call' hv hne howns, hother⟩

/-- Whoever goes by a callsign is settled when the callsign is bound. -/
theorem setCallsign_settled {accounts : Store} (hs : Standing s) (h : Claimed [uid] s)
    (hip : uid.isRf = false) (hu : s.user uid = some u) (hi : u.nickIdentified = true)
    (hcall : u.callsign = some call)
    (hset : s.accounts.setCallsign u.nick (callText call) = .ok accounts) :
    Claimed [] { s with accounts := accounts } ∧
      own { s with accounts := accounts } uid = some call := by
  have hhold : hold s uid = some call := by rw [hold, hu, Option.bind_some, hcall]
  obtain ⟨hstored, hown⟩ := setCallsign_claimed hs h hip hu hi (h.valid uid call hip hhold) hset
  refine ⟨⟨hstored.orderly, fun v hv => ?_, hstored.clash, hstored.valid⟩, hown⟩
  obtain rfl := List.mem_singleton.mp (hstored.covers v hv)
  obtain ⟨-, call', howns, hother⟩ := hv
  rw [hown] at howns
  rw [← howns] at hother
  exact absurd hhold hother

theorem setCallsign_standing {accounts : Store} {nick text : Text} (hs : Standing s)
    (hset : s.accounts.setCallsign nick text = .ok accounts) :
    Standing { s with accounts := accounts } := by
  have hsteps : Steps anything s { s with accounts := accounts } :=
    accounts_steps s (setCallsign_extends hset)
  exact steps_standing hsteps hs

/-- Whoever is bound to a callsign is the only one who owns it. -/
theorem own_unique (hs : Standing s) (ha : Orderly s.accounts) (hip : uid.isRf = false)
    (hown : own s uid = some call) : ∀ v, some uid ≠ some v → v.isRf = false →
      own s v ≠ some call := by
  intro v hne hv howns
  exact hne (congrArg some (apart_of_standing hs ha uid v call hip hv hown howns))

/-- A registered nick gets the callsign, unless another nick has it. -/
theorem setCallsign_error {a : Store} {nick text : Text} {e : AccountError}
    (hreg : a.isRegistered nick = true) (h : a.setCallsign nick text = .error e) :
    e = .callsignTaken := by
  unfold Store.setCallsign at h
  rw [hreg] at h
  simp only [Bool.not_true, Bool.false_eq_true, if_false] at h
  split_ifs at h
  · exact (Except.error.inj h).symm
  · unfold Store.modify at h
    obtain ⟨x, hx⟩ := Option.isSome_iff_exists.mp hreg
    rw [hx] at h
    cases h

theorem bindSessionCallsign_claimed (hs : Standing s) (h : Claimed [uid] s) (hip : uid.isRf = false)
    (hu : s.user uid = some u) (hi : u.nickIdentified = true) (notice : Text) :
    Claimed [uid] (s.bindSessionCallsign m uid notice) ∧
      (hold (s.bindSessionCallsign m uid notice) uid = none ∨
        Covers [] (s.bindSessionCallsign m uid notice)) := by
  have hhold : hold s uid = u.callsign := by rw [hold, hu, Option.bind_some]
  unfold bindSessionCallsign
  rw [hu]
  dsimp only
  cases hcall : u.callsign with
  | none => exact ⟨h, .inl (hhold.trans hcall)⟩
  | some c =>
    dsimp only
    split
    · rename_i accounts hset
      obtain ⟨hsettled, hown⟩ := setCallsign_settled hs h hip hu hi hcall hset
      have hstanding := setCallsign_standing hs hset
      have hstripped := (stripCallsignClaims_claimed (m := m) hstanding hsettled
        (own_unique hstanding hsettled.orderly hip hown) (belongsToAnother c)).1
      have htold := hstripped.of_same (t := ({ s with accounts := accounts }.stripCallsignClaims m c
        (some uid) (belongsToAnother c)).noticeUser m uid
        ("Callsign " ++ callText c ++ " is bound to this nick. Nobody else can claim it.")) rfl rfl
      exact ⟨htold.mono _, .inr htold.covers⟩
    · have hrecalls := unclaimed_recalls s uid notice m
      have hnow : ∀ j, hold ((s.modifyUser uid unclaimed).noticeUser m uid notice) j =
          if j = uid then none else hold s j := fun j => hold_unclaimed s uid j notice m
      have hkept : ∀ j c', hold ((s.modifyUser uid unclaimed).noticeUser m uid notice) j = some c' →
          j ≠ uid ∧ hold s j = some c' := by
        intro j c' hj
        rw [hnow] at hj
        split_ifs at hj with hne
        exact ⟨hne, hj⟩
      refine ⟨⟨h.orderly, fun v hv => ?_, fun x y c' hx hy hhx hhy hne => ?_, fun v c' hv hc' => ?_⟩,
        .inl ((hnow uid).trans (if_pos rfl))⟩
      · obtain ⟨hvip, call', howns, hother⟩ := hv
        by_cases hne : v = uid
        · exact List.mem_singleton.mpr hne
        · have hhere : hold s v ≠ some call' := by
            have heq := hnow v
            rw [if_neg hne] at heq
            rw [← heq]
            exact hother
          exact h.covers v ⟨hvip, call', hrecalls.own v ▸ howns, hhere⟩
      · exact h.clash x y c' hx hy (hkept x c' hhx).2 (hkept y c' hhy).2 hne
      · exact h.valid v c' hv (hkept v c' hc').2
    · rename_i e hother hset
      have hreg := ((hs.users uid u hu).identified hip hi).2
      exact absurd (setCallsign_error hreg hset) hother

/-! ### Results -/

/-- Whoever has just become the owner of a nick may own a callsign, and not go by it yet. -/
theorem identified_claimed (h : Claimed [] s) (uid : UserId) :
    Claimed [uid] (s.modifyUser uid identified) := by
  have hhold : ∀ j, hold (s.modifyUser uid identified) j = hold s j := by
    intro j
    rw [hold_modifyUser]
    split_ifs with hj
    · rw [hj]
      rfl
    · rfl
  refine ⟨h.orderly, fun v hv => ?_, fun x y c hx hy hhx hhy hne => ?_,
    fun v c hv hc => h.valid v c hv (hhold v ▸ hc)⟩
  · obtain ⟨hip, call', howns, hother⟩ := hv
    by_cases hne : v = uid
    · exact List.mem_singleton.mpr hne
    · have hsame : (s.modifyUser uid identified).user v = s.user v :=
        (State.user_modifyUser ..).trans (if_neg hne)
      have hown : own s v = some call' := by
        rw [own, hsame] at howns
        exact howns
      rw [hhold] at hother
      cases h.covers v ⟨hip, call', hown, hother⟩
  · rw [hhold] at hhx hhy
    exact h.clash x y c hx hy hhx hhy hne

theorem user_identified (hu : s.user uid = some user) :
    (s.modifyUser uid identified).user uid = some (identified user) := by
  have hmodified := State.user_modifyUser s.state uid identified uid
  rw [if_pos rfl] at hmodified
  exact hmodified.trans (congrArg (Option.map identified) hu)

/-- The callsign is bound to the nick, or the callsign of the nick is restored. -/
theorem rebound_claimed {notice : Text} (hs : Standing s) (h : Claimed [uid] s)
    (hip : uid.isRf = false) (hu : s.user uid = some u) (hi : u.nickIdentified = true)
    (ht : Standing t) (haccounts : t.accounts = (s.bindSessionCallsign m uid notice).accounts)
    (hstate : t.state = (s.bindSessionCallsign m uid notice).state) :
    Claimed [] (t.refreshPrivileges m uid) := by
  obtain ⟨hbound, hhold⟩ := bindSessionCallsign_claimed (m := m) hs h hip hu hi notice
  have husers := congrArg State.users hstate
  refine refreshPrivileges_claimed ht (hbound.of_same haccounts husers) ?_
  refine hhold.imp (fun hnone => ?_) fun hcovers => ?_
  · rw [hold_of_users husers, hnone]
  · exact hcovers.of_hold (.of_state haccounts husers) (hold_of_users husers)

theorem bound_standing (hs : Standing s) (notice : Text) :
    Standing (s.bindSessionCallsign m uid notice) := by
  have hbinds : Steps anything s (s.bindSessionCallsign m uid notice) := bindSessionCallsign_steps ..
  exact steps_standing hbinds hs

theorem told_standing (hs : Standing s) (text : Text) : Standing (s.noticeUser m uid text) := by
  have htold : Steps anything s (s.noticeUser m uid text) := noticeUser_steps ..
  exact steps_standing htold hs

theorem finishIdentify_claimed (hs : Standing s) (h : Claimed [] s)
    (hu : s.user (.ip id) = some user) (hreg : user.registered = true) :
    Claimed [] (s.finishIdentify m (.ip id) user) := by
  unfold finishIdentify
  split_ifs with hacc
  · exact h.of_same rfl rfl
  · have hidentify : Step anything s (s.modifyUser (.ip id) identified) :=
      .identify hu hreg (by simpa using hacc) trivial
    have hidentified := steps_standing (.single hidentify) hs
    have hstanding : Standing ((s.modifyUser (.ip id) identified).noticeUser m (.ip id)
        "Password accepted. You own this nick for this session.") := told_standing hidentified _
    have hclaimed := (identified_claimed h (.ip id)).of_same
      (t := (s.modifyUser (.ip id) identified).noticeUser m (.ip id)
        "Password accepted. You own this nick for this session.") rfl rfl
    exact rebound_claimed hstanding hclaimed rfl (user_identified hu) rfl (bound_standing hstanding _)
      rfl rfl

/-- Whoever has just registered a nick is known to own it. -/
theorem newly_identified (hs : Standing s) (h : Claimed [] s) (hu : s.user (.ip id) = some user)
    (hreg : user.registered = true) {accounts : Store} {hash : Text} {unix : ℕ}
    (hnew : s.accounts.insertHashed user.nick hash unix = .ok accounts) :
    Claimed [] { s with accounts := accounts } ∧
      Standing ({ s with accounts := accounts }.modifyUser (.ip id) identified) := by
  have hstored : Calm s { s with accounts := accounts } :=
    calm_accounts (keeps_insertHashed hnew) (calm_self s)
  have hknown : accounts.isRegistered user.nick = true := by
    rw [Store.isRegistered, insertHashed_registers hnew]
    rfl
  have hidentify : Step anything { s with accounts := accounts }
      ({ s with accounts := accounts }.modifyUser (.ip id) identified) :=
    .identify hu hreg hknown trivial
  have hsteps : Steps anything s ({ s with accounts := accounts }.modifyUser (.ip id) identified) :=
    (accounts_steps s (insertHashed_extends hnew)).tail hidentify
  exact ⟨h.of_calm (known_of_standing hs) hstored, steps_standing hsteps hs⟩

theorem finishRegister_claimed (hs : Standing s) (h : Claimed [] s)
    (hu : s.user (.ip id) = some user) (hreg : user.registered = true) (hash : Option Text) :
    Claimed [] (s.finishRegister m (.ip id) user hash) := by
  unfold finishRegister
  split
  · exact h.of_same rfl rfl
  · split_ifs
    · split
      · exact h.of_same rfl rfl
      · rename_i accounts hset
        have hkeeps : Keeps s.accounts accounts := by
          refine keeps_modify ?_ ?_ hset <;> exact fun _ => rfl
        have hstored : Calm s { s with accounts := accounts } := calm_accounts hkeeps (calm_self s)
        exact h.of_calm (known_of_standing hs) ((calm_noticeUser _).mpr hstored)
    · split
      · exact h.of_same rfl rfl
      · rename_i accounts hnew
        obtain ⟨hclaimed, hstanding⟩ := newly_identified hs h hu hreg hnew
        have huser := user_identified (s := { s with accounts := accounts }) hu
        exact rebound_claimed hstanding (identified_claimed hclaimed (.ip id)) rfl huser rfl
          (told_standing (bound_standing hstanding _) _) rfl rfl

theorem finishAuth_claimed (hs : Standing s) (h : Claimed [] s)
    (hreg : ∀ u, s.user (.ip id) = some u → u.registered = true) (kind : AuthKind) (nick : Text)
    (result : Except AccountError (Option Text)) :
    Claimed [] (s.finishAuth m id kind nick result) := by
  have hk := known_of_standing hs
  unfold finishAuth
  extract_lets uid
  split
  · exact h
  · rename_i user hu
    split_ifs
    · exact h.of_same rfl rfl
    · split
      · exact h.of_same rfl rfl
      · exact h.of_same rfl rfl
      · exact finishIdentify_claimed hs h hu (hreg user hu)
      · exact finishRegister_claimed hs h hu (hreg user hu) _
      · exact h.of_calm hk (calm_finishUnregister ..)
      · exact h.of_calm hk (calm_grantOper ..)

/-! ### Claims -/

/-- Nobody else goes by a callsign that nobody else is found to go by. -/
theorem holderOf_none (hs : Known s) (h : s.holderOf uid call = none) {v : UserId} (hne : v ≠ uid) :
    hold s v ≠ some call := by
  intro hcall
  obtain ⟨u, hu, hcall⟩ := Option.bind_eq_some_iff.mp hcall
  have hnot := List.find?_eq_none.mp (Option.map_eq_none_iff.mp h) u
    (List.mem_map.mpr ⟨(v, u), Table.mem_entries_iff.mpr hu, rfl⟩)
  rw [hs v u hu] at hnot
  simp [hne, hcall] at hnot

/-- A claim that is stored is the user's own. -/
theorem bindClaim_claimed (hs : Standing s) (h : Claimed [] s) (hip : uid.isRf = false)
    (hu : s.user uid = some user) (hvalid : Valid call) (hfree : ∀ v ≠ uid, hold s v ≠ some call)
    (hbind : s.bindClaim m uid user call = .ok t) :
    Standing t ∧ Claimed [uid] t ∧ (∀ v ≠ uid, v.isRf = false → hold t v ≠ some call) ∧
      ∀ own', own t uid = some own' → own' = call := by
  have hsteps : Steps anything s t := bindClaim_steps hbind
  refine ⟨steps_standing hsteps hs, ?_⟩
  unfold bindClaim at hbind
  split_ifs at hbind with hi
  · cases hset : s.accounts.setCallsign user.nick (callText call) with
    | error e => simp [hset, Except.map] at hbind
    | ok accounts =>
      rw [hset] at hbind
      obtain rfl := Except.ok.inj hbind
      obtain ⟨hstored, hown⟩ := setCallsign_claimed hs (h.mono [uid]) hip hu hi hvalid hset
      have hstanding := setCallsign_standing hs hset
      have hunique := own_unique hstanding hstored.orderly hip hown
      obtain ⟨hclaimed, hrecalls, hsources⟩ :=
        stripCallsignClaims_claimed (m := m) hstanding hstored hunique (belongsToAnother call)
      refine ⟨hclaimed, fun v hne hrf hv => ?_, fun own' hown' => ?_⟩
      · rcases hsources v call hv with hheld | howned
        · exact hfree v hne hheld
        · exact hunique v (fun heq => hne (Option.some.inj heq).symm) hrf howned
      · rw [hrecalls.own, hown] at hown'
        exact (Option.some.inj hown').symm
  · obtain rfl := Except.ok.inj hbind
    refine ⟨h.mono _, fun v hne _ => hfree v hne, fun own' hown' => ?_⟩
    rw [own_eq hu, if_neg hi] at hown'
    cases hown'

/-- Whoever claims a callsign that nobody goes by is the only one who does. -/
theorem claim_claimed (hs : Standing s) (h : Claimed [] s) (hip : uid.isRf = false)
    (hu : s.user uid = some user) (hvalid : Valid call) (hholder : s.holderOf uid call = none)
    (hbind : s.bindClaim m uid user call = .ok t) :
    Claimed [] (t.modifyUser uid fun u => { u with callsign := some call }) := by
  have hfree : ∀ v ≠ uid, hold s v ≠ some call :=
    fun v hne => holderOf_none (known_of_standing hs) hholder hne
  obtain ⟨-, hclaimed, hothers, hown⟩ := bindClaim_claimed hs h hip hu hvalid hfree hbind
  let claimed := t.modifyUser uid fun u => { u with callsign := some call }
  have hhold : ∀ j, hold claimed j = if j = uid then (t.user uid).map fun _ => call else hold t j := by
    intro j
    rw [hold_modifyUser]
    split_ifs
    · cases t.user uid <;> rfl
    · rfl
  have hrecalls : Recalls t claimed := modifyUser_recalls t uid fun _ => rfl
  -- whoever else goes by a callsign goes by another
  have hkept : ∀ v c, v.isRf = false → hold claimed v = some c →
      v = uid ∧ c = call ∨ v ≠ uid ∧ c ≠ call ∧ hold t v = some c := by
    intro v c hv hc
    rw [hhold] at hc
    split_ifs at hc with hne
    · obtain ⟨-, -, rfl⟩ := Option.map_eq_some_iff.mp hc
      exact .inl ⟨hne, rfl⟩
    · refine .inr ⟨hne, fun heq => ?_, hc⟩
      rw [heq] at hc
      exact hothers v hne hv hc
  refine ⟨hclaimed.orderly, fun v hv => ?_, fun x y c hx hy hhx hhy hne => ?_, fun v c hv hc => ?_⟩
  · obtain ⟨hvip, call', howns, hother⟩ := hv
    rw [hrecalls.own] at howns
    rw [hhold] at hother
    by_cases hne : v = uid
    · rw [if_pos hne] at hother
      rw [hne] at howns
      obtain ⟨w, hw, -⟩ := Option.bind_eq_some_iff.mp howns
      rw [hw, hown call' howns] at hother
      exact absurd rfl hother
    · rw [if_neg hne] at hother
      exact absurd (List.mem_singleton.mp (hclaimed.covers v ⟨hvip, call', howns, hother⟩)) hne
  · rcases hkept x c hx hhx with ⟨rfl, rfl⟩ | ⟨hxu, hxc, hhx⟩
    · rcases hkept y _ hy hhy with ⟨rfl, -⟩ | ⟨-, hyc, -⟩
      · exact absurd rfl hne
      · exact absurd rfl hyc
    · rcases hkept y c hy hhy with ⟨-, rfl⟩ | ⟨-, -, hhy⟩
      · exact absurd rfl hxc
      · exact hclaimed.clash x y c hx hy hhx hhy hne
  · rcases hkept v c hv hc with ⟨-, rfl⟩ | ⟨-, -, hheld⟩
    · exact hvalid
    · exact hclaimed.valid v c hv hheld

theorem claim_standing (hs : Standing s) (hbind : s.bindClaim m uid user call = .ok t) :
    Standing (t.modifyUser uid fun u => { u with callsign := some call }) := by
  have hsteps : Steps anything s t := bindClaim_steps hbind
  have htouched : Steps anything t (t.modifyUser uid fun u => { u with callsign := some call }) :=
    touch_steps t uid fun _ => ⟨rfl, rfl, rfl, rfl, rfl, rfl, rfl⟩
  exact steps_standing htouched (steps_standing hsteps hs)

theorem claimCallsign_claimed (hs : Standing s) (h : Claimed [] s) (hip : uid.isRf = false)
    (hu : s.user uid = some user) (hvalid : Valid call) (hholder : s.holderOf uid call = none) :
    Claimed [] (s.claimCallsign m uid user call) := by
  unfold claimCallsign
  split
  · exact h.of_same rfl rfl
  · rename_i t hbind
    have hclaimed := claim_claimed hs h hip hu hvalid hholder hbind
    have hknown := known_of_standing (claim_standing hs hbind)
    refine hclaimed.of_calm hknown (calm_refreshPrivileges ?_)
    exact (calm_noticeUser _).mpr ((calm_noticeUser _).mpr (calm_self _))

theorem cmdCallsign_claimed (hs : Standing s) (h : Claimed [] s) (hip : uid.isRf = false) :
    Claimed [] (s.cmdCallsign m uid msg) := by
  unfold cmdCallsign
  split
  · exact h
  · exact h.of_same rfl rfl
  · rename_i user _ hu _
    split
    · exact h.of_same rfl rfl
    · rename_i call hread
      split_ifs
      · exact h.of_same rfl rfl
      · exact h.of_same rfl rfl
      · split
        · exact h.of_same rfl rfl
        · split
          · exact h.of_same rfl rfl
          · rename_i hholder
            exact claimCallsign_claimed hs h hip hu (valid_of_fromStr hread) hholder

/-! ### Release -/

theorem keeps_clearCallsign {a b : Store} {text owner : Text} (ha : Orderly a)
    (h : a.clearCallsign text = .ok (owner, b)) : Keeps a b := by
  refine ⟨fun _ => (clearCallsign_spec ha h).1, fun key y stored hy hstored => ?_⟩
  unfold Store.clearCallsign at h
  split at h
  · cases h
  · obtain ⟨-, rfl⟩ := Prod.mk.inj (Except.ok.inj h)
    rw [Table.get_set] at hy
    split_ifs at hy with hkey
    · obtain rfl := Option.some.inj hy
      cases hstored
    · exact ⟨y, hy, hstored⟩

/-- A callsign that is released is nobody's own. -/
theorem clearCallsign_claimed {accounts : Store} {owner : Text} (hs : Standing s) (h : Claimed [] s)
    (hclear : s.accounts.clearCallsign (callText call) = .ok (owner, accounts)) :
    Standing { s with accounts := accounts } ∧ Claimed [] { s with accounts := accounts } ∧
      ∀ v, (none : Option UserId) ≠ some v → v.isRf = false →
        own { s with accounts := accounts } v ≠ some call := by
  have hstored : Calm s { s with accounts := accounts } :=
    calm_accounts (keeps_clearCallsign h.orderly hclear) (calm_self s)
  have hclaimed := h.of_calm (known_of_standing hs) hstored
  have hsteps : Steps anything s { s with accounts := accounts } :=
    accounts_steps s (clearCallsign_extends hclear)
  refine ⟨steps_standing hsteps hs, hclaimed, fun v _ _ howns => ?_⟩
  obtain ⟨u, x, -, -, hx, hcall, -⟩ := own_spec hclaimed.orderly howns
  exact (clearCallsign_spec h.orderly hclear).2 _ x _ hx hcall rfl

theorem cmdUnclaim_claimed (hs : Standing s) (h : Claimed [] s) :
    Claimed [] (s.cmdUnclaim m uid msg) := by
  unfold cmdUnclaim requireOper
  split_ifs
  · dsimp only
    split
    · exact h.of_same rfl rfl
    · split
      · exact h.of_same rfl rfl
      · rename_i call _
        split
        · rename_i owner accounts hclear
          obtain ⟨hstanding, hclaimed, hfree⟩ := clearCallsign_claimed hs h hclear
          have hstripped := (stripCallsignClaims_claimed (m := m) hstanding hclaimed hfree
            ("A control operator released callsign " ++ callText call ++ ".")).1
          exact hstripped.of_same rfl rfl
        · exact h.of_same rfl rfl
        · exact h.of_same rfl rfl
  · exact h.of_same rfl rfl

theorem known_modifyUser (hk : Known s) (uid : UserId) {f : User → User}
    (hf : ∀ u, (f u).id = u.id) :
    Known (s.modifyUser uid f) := by
  intro v w hw
  have huser : (s.modifyUser uid f).user v = if v = uid then (s.user uid).map f else s.user v :=
    State.user_modifyUser s.state uid f v
  rw [huser] at hw
  split_ifs at hw with hne
  · obtain ⟨u, hu, rfl⟩ := Option.map_eq_some_iff.mp hw
    exact ((hf u).trans (hk uid u hu)).trans hne.symm
  · exact hk v w hw

/-- Whoever loses the nick loses the callsign with it. -/
theorem disowned_claimed (h : Claimed [] s) (uid : UserId) :
    Claimed [] (s.modifyUser uid fun u => { disowned u with callsign := none }) := by
  let f (u : User) : User := { disowned u with callsign := none }
  have huser : ∀ v, (s.modifyUser uid f).user v = if v = uid then (s.user uid).map f else s.user v :=
    fun v => State.user_modifyUser s.state uid f v
  have hkept : ∀ v c, hold (s.modifyUser uid f) v = some c → hold s v = some c := by
    intro v c hv
    rw [hold_modifyUser] at hv
    split_ifs at hv
    · obtain ⟨u, -, hcall⟩ := Option.bind_eq_some_iff.mp hv
      cases hcall
    · exact hv
  refine ⟨h.orderly, fun v hv => ?_, fun x y c hx hy hhx hhy hne => ?_,
    fun v c hv hc => h.valid v c hv (hkept v c hc)⟩
  · obtain ⟨hip, call', howns, hother⟩ := hv
    by_cases hne : v = uid
    · obtain ⟨w, hw, -⟩ := Option.bind_eq_some_iff.mp howns
      rw [own_eq hw] at howns
      rw [huser, if_pos hne] at hw
      obtain ⟨u, -, rfl⟩ := Option.map_eq_some_iff.mp hw
      rw [if_neg (by simp [f, disowned])] at howns
      cases howns
    · rw [own, huser, if_neg hne] at howns
      rw [hold_modifyUser, if_neg hne] at hother
      exact h.covers v ⟨hip, call', howns, hother⟩
  · exact h.clash x y c hx hy (hkept x c hhx) (hkept y c hhy) hne

theorem cmdDropnick_claimed (hs : Standing s) (h : Claimed [] s) :
    Claimed [] (s.cmdDropnick m uid msg) := by
  have hk := known_of_standing hs
  unfold cmdDropnick requireOper
  split_ifs
  · dsimp only
    split
    · exact h.of_same rfl rfl
    · split
      · exact h.of_same rfl rfl
      · rename_i accounts hdrop
        have hstored : Calm s { s with accounts := accounts } :=
          calm_accounts (keeps_dropNick hdrop) (calm_self s)
        have hclaimed := h.of_calm hk hstored
        have hknown : Known { s with accounts := accounts } := hk
        split
        · exact hclaimed.of_same rfl rfl
        · rename_i target _
          have hdisowned := disowned_claimed hclaimed target
          have hsettled := known_modifyUser hknown target
            (f := fun u => { disowned u with callsign := none }) fun _ => rfl
          exact hdisowned.of_calm hsettled ((calm_noticeUser _).mpr
            (calm_refreshPrivileges ((calm_noticeUser _).mpr (calm_self _))))
  · exact h.of_same rfl rfl

end CallsignClaims
