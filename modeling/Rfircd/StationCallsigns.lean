import Rfircd.CallsignOwners

/-! Stations and their own callsigns.
A claim that is bound to a nick, restored to it or released from it is taken from everybody who goes
by the callsign, a station whose address it is included. -/
namespace StationCallsigns

open Basics KeyedTable MessageText HostKey IrcMessage IrcState RadioGateway AirPolicy AirScreen
open Accounts ServerOutput ServerCore ServerCore.Server Bridge ServerSteps ServerInvariants
open LateResults CallsignCascade Ax25Codec CallsignTexts CallsignRecords CallsignFrames CallsignCommands
open CallsignEvents CallsignClaims CallsignOwners TransitionSystem

variable {s t : Server} {m : Moment} {uid : UserId} {id : ℕ} {user u : User} {call : Callsign}
  {ids : List UserId} {msg : Message}
  {reader : BeaconReader} {verifies : Text → Text → Prop} {e : Moment × ServerRuns.Event}

/-- A station is known under a callsign. -/
def Present (s : Server) (call : Callsign) : Prop := (s.user (.rf call)).isSome = true

instance (s : Server) (call : Callsign) : Decidable (Present s call) :=
  inferInstanceAs (Decidable (_ = _))

/-- Every station goes by the callsign of its address. -/
def Stations (s : Server) : Prop := ∀ call, Present s call → hold s (.rf call) = some call

theorem Stations.of_hold (h : Stations s) (hpresent : ∀ call, Present t call → Present s call)
    (hhold : ∀ call, hold t (.rf call) = hold s (.rf call)) : Stations t := by
  intro call hcall
  rw [hhold]
  exact h call (hpresent call hcall)

theorem Stations.of_users (h : Stations s) (husers : t.state.users = s.state.users) : Stations t := by
  refine h.of_hold (fun call hcall => ?_) fun call => hold_of_users husers _
  unfold Present Server.user State.user at *
  rwa [husers] at hcall

theorem Recalls.present (h : Recalls s t) : Present t call ↔ Present s call := by
  have hface := congrArg Option.isSome (h.users (.rf call))
  rw [Option.isSome_map, Option.isSome_map] at hface
  unfold Present
  rw [hface]

/-- A station that comes up goes by its own callsign, and none loses it. -/
theorem Quiet.stations (hq : Quiet s t) (h : Stations s) : Stations t := by
  intro call hcall
  obtain ⟨v, hv⟩ := Option.isSome_iff_exists.mp hcall
  rw [hold, hv, Option.bind_some]
  rcases hq.users (.rf call) v hv with hfresh | ⟨u, hu, hlike⟩
  · exact hfresh.callsign
  · have hheld := h call (Option.isSome_iff_exists.mpr ⟨u, hu⟩)
    rw [hold, hu, Option.bind_some] at hheld
    exact hlike.callsign.trans hheld

theorem Stations.of_calm (h : Stations s) (hsettled : Settled s) (hcalm : Calm s t) : Stations t :=
  Quiet.stations (hcalm.quiet hsettled) h

theorem present_modifyUser (s : Server) (uid : UserId) (f : User → User) (call : Callsign) :
    Present (s.modifyUser uid f) call ↔ Present s call := by
  have huser : (s.modifyUser uid f).user (.rf call) =
      if UserId.rf call = uid then (s.user uid).map f else s.user (.rf call) :=
    State.user_modifyUser ..
  unfold Present
  rw [huser]
  split_ifs with heq
  · rw [heq, Option.isSome_map]
  · exact Iff.rfl

/-- An Internet user changes. -/
theorem Stations.modifyUser (h : Stations s) (hip : uid.isRf = false) (f : User → User) :
    Stations (s.modifyUser uid f) := by
  refine h.of_hold (fun call => (present_modifyUser s uid f call).mp) fun call => ?_
  refine (hold_modifyUser s uid (.rf call) f).trans (if_neg fun heq => ?_)
  rw [← heq] at hip
  cases hip

/-- A round of restored callsigns leaves the stations alone whose callsigns nobody owns. -/
theorem Round.keeps_stations (hr : Round ids s t) (h : Stations s)
    (hfree : ∀ j ∈ ids, ∀ call, own s j = some call → ¬ Present s call) : Stations t := by
  intro call hcall
  have hpresent : Present s call := (Recalls.present hr.recalls).mp hcall
  exact hr.stations call (h call hpresent) fun j hj howns => hfree j hj call howns hpresent

theorem refreshPrivileges_stations (hs : Standing s) (hclaimed : Claimed ids s) (h : Stations s)
    (hfree : ∀ j ∈ ids, ∀ call, own s j = some call → ¬ Present s call) :
    Stations (s.refreshPrivileges m uid) := by
  obtain ⟨-, hround, -⟩ := refreshPrivileges_round (m := m) (known_of_standing hs)
    (apart_of_standing hs hclaimed.orderly) hclaimed.covers
  exact Round.keeps_stations hround h hfree

/-- A callsign is taken from everybody, and no station is there under it. -/
theorem stripCallsignClaims_stations (hs : Standing s) (hclaimed : Claimed ids s) (h : Stations s)
    {keep : Option UserId}
    (hown : ∀ v, keep ≠ some v → v.isRf = false → own s v ≠ some call)
    (hids : ∀ j ∈ ids, ∀ call', own s j = some call' → ¬ Present s call')
    (hfree : ¬ Present s call) (notice : Text) :
    Stations (s.stripCallsignClaims m call keep notice) := by
  have hknown := known_of_standing hs
  obtain ⟨-, hrecalls, -, -, -, hstations⟩ := stripCallsignClaims_round (m := m) hknown
    (apart_of_standing hs hclaimed.orderly) hclaimed.covers hown notice
  intro call' hcall
  have hpresent : Present s call' := (Recalls.present hrecalls).mp hcall
  refine hstations call' (fun hvictim => ?_) (h call' hpresent)
    fun j hj howns => hids j hj call' howns hpresent
  obtain ⟨v, hv, heq⟩ := List.mem_map.mp hvictim
  have hheld := (of_mem_victims hknown hv).1
  rw [heq, h call' hpresent] at hheld
  exact hfree (Option.some.inj hheld ▸ hpresent)

/-! ### What a password binds or restores -/

/-- Another nick has the callsign. -/
def BoundElsewhere (a : Store) (nick : Text) (call : Callsign) : Prop :=
  ∃ key x stored, a.nicks.get key = some x ∧ x.callsign = some stored ∧
    lower stored = lower (callText call) ∧ key ≠ lower nick

/-- The callsign that is stored with a nick. -/
def accountCallsign (a : Store) (nick : Text) : Option Callsign :=
  ((a.nicks.get (lower nick)).bind NickAccount.callsign).bind Callsign.fromStr

/-- The callsign that the owner of a nick goes by from now on: what was claimed and is free, else what
is stored. -/
def Grants (a : Store) (u : User) (call : Callsign) : Prop :=
  u.callsign = some call ∧ ¬ BoundElsewhere a u.nick call ∨
    (∀ c, u.callsign = some c → BoundElsewhere a u.nick c) ∧ accountCallsign a u.nick = some call

theorem own_account (hu : s.user uid = some u) (hi : u.nickIdentified = true) :
    own s uid = accountCallsign s.accounts u.nick := by
  rw [own_eq hu, if_pos hi]
  rfl

theorem boundElsewhere_of_error {a : Store} {nick : Text} (ha : Orderly a)
    (h : a.setCallsign nick (callText call) = .error .callsignTaken) : BoundElsewhere a nick call := by
  unfold Store.setCallsign at h
  split_ifs at h with hreg howner
  · cases h
  · have hbound := bound_spec a (callText call)
    unfold Store.ownerOfCallsign at howner
    rcases hfound : a.bound (callText call) with - | ⟨key, x⟩
    · rw [hfound] at howner
      cases howner
    · rw [hfound] at hbound howner
      obtain ⟨hx, stored, hstored, heq⟩ := hbound
      refine ⟨key, x, stored, hx, hstored, heq, fun hkey => ?_⟩
      have hnick := ha.keyed key x hx
      rw [hkey] at hnick
      simp [hnick] at howner
  · unfold Store.modify at h
    split at h <;> cases h

theorem not_boundElsewhere {a b : Store} {nick : Text} (ha : Orderly a)
    (h : a.setCallsign nick (callText call) = .ok b) : ¬ BoundElsewhere a nick call := by
  rintro ⟨key, x, stored, hx, hstored, heq, hne⟩
  exact hne ((setCallsign_spec ha h).2 key x stored hx hstored heq)

/-- Whoever is identified goes by what the account grants, and no station is displaced by another
callsign. -/
theorem bindSessionCallsign_stations (hs : Standing s) (hclaimed : Claimed [uid] s)
    (hip : uid.isRf = false) (hu : s.user uid = some u) (hi : u.nickIdentified = true)
    (h : Stations s) (hfree : ∀ call, Grants s.accounts u call → ¬ Present s call) (notice : Text) :
    Stations (s.bindSessionCallsign m uid notice) ∧
      ∀ call, own (s.bindSessionCallsign m uid notice) uid = some call →
        ¬ Present (s.bindSessionCallsign m uid notice) call := by
  unfold bindSessionCallsign
  rw [hu]
  dsimp only
  cases hcall : u.callsign with
  | none =>
    refine ⟨h, fun call howns => hfree call (.inr ⟨fun c hc => ?_, ?_⟩)⟩
    · rw [hcall] at hc
      cases hc
    · rw [← own_account hu hi]
      exact howns
  | some c =>
    dsimp only
    split
    · rename_i accounts hset
      obtain ⟨hsettled, hown⟩ := setCallsign_settled hs hclaimed hip hu hi hcall hset
      have hstanding := setCallsign_standing hs hset
      have hgranted : ¬ Present s c :=
        hfree c (.inl ⟨hcall, not_boundElsewhere hclaimed.orderly hset⟩)
      have hunique := own_unique hstanding hsettled.orderly hip hown
      have hstripped : Stations ({ s with accounts := accounts }.stripCallsignClaims m c (some uid)
          (belongsToAnother c)) :=
        stripCallsignClaims_stations hstanding hsettled h hunique (fun j hj => (by cases hj))
          hgranted _
      have hrecalls := (stripCallsignClaims_claimed (m := m) hstanding hsettled hunique
        (belongsToAnother c)).2.1
      refine ⟨hstripped.of_users rfl, fun call howns hpresent => ?_⟩
      have howns' : own ({ s with accounts := accounts }.stripCallsignClaims m c (some uid)
          (belongsToAnother c)) uid = some call := howns
      rw [hrecalls.own, hown] at howns'
      rw [← Option.some.inj howns'] at hpresent
      exact hgranted ((Recalls.present hrecalls).mp hpresent)
    · rename_i hset
      have hrecalls := unclaimed_recalls s uid notice m
      have hpresent : ∀ call, Present ((s.modifyUser uid unclaimed).noticeUser m uid notice) call ↔
          Present s call := fun call => Recalls.present hrecalls
      refine ⟨h.of_hold (fun call => (hpresent call).mp) fun call => ?_, fun call howns hcall' => ?_⟩
      · refine (hold_unclaimed s uid (.rf call) notice m).trans (if_neg fun heq => ?_)
        rw [← heq] at hip
        cases hip
      · have howns' : own ((s.modifyUser uid unclaimed).noticeUser m uid notice) uid = some call :=
          howns
        rw [hrecalls.own, own_account hu hi] at howns'
        refine hfree call (.inr ⟨fun c' hc' => ?_, howns'⟩) ((hpresent call).mp hcall')
        obtain rfl := Option.some.inj (hcall.symm.trans hc')
        exact boundElsewhere_of_error hclaimed.orderly hset
    · rename_i e hother hset
      have hreg := ((hs.users uid u hu).identified hip hi).2
      exact absurd (setCallsign_error hreg hset) hother

/-! ### Password results -/

/-- The callsign is bound to the nick, or the callsign of the nick is restored. -/
theorem rebound_stations {notice : Text} (hs : Standing s) (hclaimed : Claimed [uid] s)
    (hip : uid.isRf = false) (hu : s.user uid = some u) (hi : u.nickIdentified = true)
    (h : Stations s) (hfree : ∀ call, Grants s.accounts u call → ¬ Present s call)
    (ht : Standing t) (haccounts : t.accounts = (s.bindSessionCallsign m uid notice).accounts)
    (hstate : t.state = (s.bindSessionCallsign m uid notice).state) :
    Stations (t.refreshPrivileges m uid) := by
  obtain ⟨hbound, -⟩ := bindSessionCallsign_claimed (m := m) hs hclaimed hip hu hi notice
  obtain ⟨hstations, hown⟩ := bindSessionCallsign_stations (m := m) hs hclaimed hip hu hi h hfree notice
  have husers := congrArg State.users hstate
  have hrecalls : Recalls (s.bindSessionCallsign m uid notice) t := .of_state haccounts husers
  refine refreshPrivileges_stations ht (hbound.of_same haccounts husers) (hstations.of_users husers)
    fun j hj call howns hpresent => ?_
  obtain rfl := List.mem_singleton.mp hj
  rw [hrecalls.own] at howns
  exact hown call howns ((Recalls.present hrecalls).mp hpresent)

theorem finishIdentify_stations (hs : Standing s) (hclaimed : Claimed [] s) (h : Stations s)
    (hu : s.user (.ip id) = some user) (hreg : user.registered = true)
    (hfree : s.accounts.isRegistered user.nick = true →
      ∀ call, Grants s.accounts user call → ¬ Present s call) :
    Stations (s.finishIdentify m (.ip id) user) := by
  unfold finishIdentify
  split_ifs with hacc
  · exact h.of_users rfl
  · have hknown : s.accounts.isRegistered user.nick = true := by simpa using hacc
    have hidentify : Step anything s (s.modifyUser (.ip id) identified) :=
      .identify hu hreg hknown trivial
    have hidentified := steps_standing (.single hidentify) hs
    have hstanding : Standing ((s.modifyUser (.ip id) identified).noticeUser m (.ip id)
        "Password accepted. You own this nick for this session.") := told_standing hidentified _
    have hclaimed' : Claimed [.ip id] ((s.modifyUser (.ip id) identified).noticeUser m (.ip id)
        "Password accepted. You own this nick for this session.") :=
      (identified_claimed hclaimed (.ip id)).of_same rfl rfl
    have hstations : Stations ((s.modifyUser (.ip id) identified).noticeUser m (.ip id)
        "Password accepted. You own this nick for this session.") := (h.modifyUser rfl _).of_users rfl
    refine rebound_stations hstanding hclaimed' rfl (user_identified hu) rfl hstations
      (fun call hgrants hpresent => ?_) (bound_standing hstanding _) rfl rfl
    exact hfree hknown call hgrants ((present_modifyUser ..).mp hpresent)

theorem boundElsewhere_of_insertHashed {a b : Store} {nick nick' hash : Text} {unix : ℕ}
    (h : a.insertHashed nick hash unix = .ok b) (hbound : BoundElsewhere a nick' call) :
    BoundElsewhere b nick' call := by
  obtain ⟨key, x, stored, hx, hstored, heq, hne⟩ := hbound
  unfold Store.insertHashed at h
  split_ifs at h with hreg
  obtain rfl := Except.ok.inj h
  refine ⟨key, x, stored, ?_, hstored, heq, hne⟩
  rw [Table.get_set, if_neg]
  · exact hx
  · rintro rfl
    exact hreg (Option.isSome_iff_exists.mpr ⟨x, hx⟩)

theorem accountCallsign_insertHashed {a b : Store} {nick hash : Text} {unix : ℕ}
    (h : a.insertHashed nick hash unix = .ok b) : accountCallsign b nick = none := by
  unfold Store.insertHashed at h
  split_ifs at h
  obtain rfl := Except.ok.inj h
  rw [accountCallsign, Table.get_set, if_pos rfl]
  rfl

theorem finishRegister_stations (hs : Standing s) (hclaimed : Claimed [] s) (h : Stations s)
    (hu : s.user (.ip id) = some user) (hreg : user.registered = true) (hash : Option Text)
    (hfree : s.accounts.isRegistered user.nick = false → hash.isSome = true →
      ∀ call, Grants s.accounts user call → ¬ Present s call) :
    Stations (s.finishRegister m (.ip id) user hash) := by
  unfold finishRegister
  split
  · exact h.of_users rfl
  · rename_i hash
    split_ifs
    · split <;> exact h.of_users rfl
    · split
      · exact h.of_users rfl
      · rename_i accounts hnew
        obtain ⟨hclaimed', hstanding⟩ := newly_identified hs hclaimed hu hreg hnew
        have huser := user_identified (s := { s with accounts := accounts }) hu
        have hunknown : s.accounts.isRegistered user.nick = false := by
          unfold Store.insertHashed at hnew
          split_ifs at hnew with hold
          simpa using hold
        have hstations : Stations ({ s with accounts := accounts }.modifyUser (.ip id) identified) :=
          (h.of_users rfl).modifyUser rfl _
        refine rebound_stations hstanding (identified_claimed hclaimed' (.ip id)) rfl huser rfl
          hstations (fun call hgrants hpresent => ?_) (told_standing (bound_standing hstanding _) _)
          rfl rfl
        have hpresent' : Present s call :=
          (present_modifyUser { s with accounts := accounts } _ _ call).mp hpresent
        refine hfree hunknown rfl call ?_ hpresent'
        rcases hgrants with ⟨hcall, hnot⟩ | ⟨-, hstored'⟩
        · exact .inl ⟨hcall, fun hbound => hnot (boundElsewhere_of_insertHashed hnew hbound)⟩
        · have hnone : accountCallsign accounts user.nick = none := accountCallsign_insertHashed hnew
          rw [show accountCallsign accounts user.nick = some call from hstored'] at hnone
          cases hnone

/-! ### Events -/

/-- A password result that gives its nick a callsign gives it no station's. -/
def GrantSpares (s : Server) (kind : AuthKind) (result : Except AccountError (Option Text))
    (user : User) : Prop :=
  (kind = .identify ∧ s.accounts.isRegistered user.nick = true ∧ (∃ v, result = .ok v) ∨
    kind = .register ∧ s.accounts.isRegistered user.nick = false ∧ ∃ hash, result = .ok (some hash)) →
  ∀ call, Grants s.accounts user call → ¬ Present s call

theorem finishAuth_stations (hs : Standing s) (hclaimed : Claimed [] s) (h : Stations s)
    (hreg : ∀ u, s.user (.ip id) = some u → u.registered = true) (kind : AuthKind) (nick : Text)
    (result : Except AccountError (Option Text))
    (hspares : ∀ u, s.user (.ip id) = some u → lower u.nick = lower nick →
      GrantSpares s kind result u) :
    Stations (s.finishAuth m id kind nick result) := by
  have hsettled : Settled s := hclaimed.settled (known_of_standing hs)
  unfold finishAuth
  extract_lets uid
  split
  · exact h
  · rename_i user hu
    split_ifs with hnick
    · exact h.of_users rfl
    · have hgrants := hspares user hu (not_not.mp hnick)
      split
      · exact h.of_users rfl
      · exact h.of_users rfl
      · rename_i v
        refine finishIdentify_stations hs hclaimed h hu (hreg user hu) fun hknown => ?_
        exact hgrants (.inl ⟨rfl, hknown, v, rfl⟩)
      · rename_i hash
        refine finishRegister_stations hs hclaimed h hu (hreg user hu) hash fun hunknown hhash => ?_
        obtain ⟨text, rfl⟩ := Option.isSome_iff_exists.mp hhash
        exact hgrants (.inr ⟨rfl, hunknown, text, rfl⟩)
      · exact h.of_calm hsettled (calm_finishUnregister ..)
      · exact h.of_calm hsettled (calm_grantOper ..)

/-- A callsign that nobody else goes by is no station's. -/
theorem claimCallsign_stations (hs : Standing s) (hclaimed : Claimed [] s) (h : Stations s)
    (hip : uid.isRf = false) (hu : s.user uid = some user) (hvalid : Valid call)
    (hholder : s.holderOf uid call = none) : Stations (s.claimCallsign m uid user call) := by
  have hfree : ∀ v ≠ uid, hold s v ≠ some call :=
    fun v hne => holderOf_none (known_of_standing hs) hholder hne
  have habsent : ¬ Present s call := by
    intro hpresent
    refine hfree (.rf call) (fun heq => ?_) (h call hpresent)
    rw [← heq] at hip
    cases hip
  unfold claimCallsign
  split
  · exact h.of_users rfl
  · rename_i t hbind
    have ht : Stations t := by
      have hbind' := hbind
      unfold bindClaim at hbind'
      split_ifs at hbind' with hi
      · cases hset : s.accounts.setCallsign user.nick (callText call) with
        | error e => simp [hset, Except.map] at hbind'
        | ok accounts =>
          rw [hset] at hbind'
          obtain rfl := Except.ok.inj hbind'
          obtain ⟨hstored, hown⟩ := setCallsign_claimed hs (hclaimed.mono [uid]) hip hu hi hvalid hset
          have hstanding := setCallsign_standing hs hset
          have hunique := own_unique hstanding hstored.orderly hip hown
          refine stripCallsignClaims_stations hstanding hstored h hunique
            (fun j hj call' howns => ?_) habsent _
          rw [List.mem_singleton.mp hj, hown] at howns
          exact Option.some.inj howns ▸ habsent
      · obtain rfl := Except.ok.inj hbind'
        exact h
    have hsettled := (claim_claimed hs hclaimed hip hu hvalid hholder hbind).settled
      (known_of_standing (claim_standing hs hbind))
    refine (ht.modifyUser hip _).of_calm hsettled (calm_refreshPrivileges ?_)
    exact (calm_noticeUser _).mpr ((calm_noticeUser _).mpr (calm_self _))

theorem cmdCallsign_stations (hs : Standing s) (hclaimed : Claimed [] s) (h : Stations s)
    (hip : uid.isRf = false) : Stations (s.cmdCallsign m uid msg) := by
  unfold cmdCallsign
  split
  · exact h
  · exact h.of_users rfl
  · rename_i user _ hu _
    split
    · exact h.of_users rfl
    · rename_i call hread
      split_ifs
      · exact h.of_users rfl
      · exact h.of_users rfl
      · split
        · exact h.of_users rfl
        · split
          · exact h.of_users rfl
          · rename_i hholder
            exact claimCallsign_stations hs hclaimed h hip hu (valid_of_fromStr hread) hholder

/-- A callsign that is released from a nick is no station's. -/
def ReleaseSpares (s : Server) (arg : Text) : Prop :=
  ∀ call, Callsign.fromStr arg = some call → (s.accounts.bound (callText call)).isSome = true →
    ¬ Present s call

/-- A nick that is dropped is no station's. -/
def DropSpares (s : Server) (arg : Text) : Prop :=
  s.accounts.isRegistered arg = true → ∀ target, findTarget s.state arg = some target →
    target.isRf = false

theorem cmdUnclaim_stations (hs : Standing s) (hclaimed : Claimed [] s) (h : Stations s)
    (hspares : s.isOper uid = true → ∀ arg, msg.param 0 = some arg → ReleaseSpares s arg) :
    Stations (s.cmdUnclaim m uid msg) := by
  unfold cmdUnclaim requireOper
  split_ifs with hoper
  · dsimp only
    split
    · exact h.of_users rfl
    · rename_i arg harg
      split
      · exact h.of_users rfl
      · rename_i call hread
        split
        · rename_i owner accounts hclear
          obtain ⟨hstanding, hstored, hfree⟩ := clearCallsign_claimed hs hclaimed hclear
          have hbound : (s.accounts.bound (callText call)).isSome = true := by
            unfold Store.clearCallsign at hclear
            split at hclear
            · cases hclear
            · rename_i hbound
              rw [hbound]
              rfl
          have habsent : ¬ Present s call := hspares hoper arg harg call hread hbound
          have hstripped : Stations ({ s with accounts := accounts }.stripCallsignClaims m call none
              ("A control operator released callsign " ++ callText call ++ ".")) :=
            stripCallsignClaims_stations hstanding hstored h hfree (fun j hj => (by cases hj)) habsent _
          exact hstripped.of_users rfl
        · exact h.of_users rfl
        · exact h.of_users rfl
  · exact h.of_users rfl

theorem cmdDropnick_stations (hs : Standing s) (hclaimed : Claimed [] s) (h : Stations s)
    (hspares : s.isOper uid = true → ∀ arg, msg.param 0 = some arg → DropSpares s arg) :
    Stations (s.cmdDropnick m uid msg) := by
  have hk := known_of_standing hs
  unfold cmdDropnick requireOper
  split_ifs with hoper
  · dsimp only
    split
    · exact h.of_users rfl
    · rename_i nick harg
      split
      · exact h.of_users rfl
      · rename_i accounts hdrop
        have hstored : Calm s { s with accounts := accounts } :=
          calm_accounts (keeps_dropNick hdrop) (calm_self s)
        have hclaimed' := hclaimed.of_calm hk hstored
        have hknown : Known { s with accounts := accounts } := hk
        have hregistered : s.accounts.isRegistered nick = true := by
          unfold Store.dropNick at hdrop
          split_ifs at hdrop with hreg
          exact hreg
        split
        · exact h.of_users rfl
        · rename_i target htarget
          have hip : target.isRf = false := hspares hoper nick harg hregistered target htarget
          have hsettled := known_modifyUser hknown target
            (f := fun u => { disowned u with callsign := none }) fun _ => rfl
          have hstations : Stations { s with accounts := accounts } := h
          refine (hstations.modifyUser hip _).of_calm
            ((disowned_claimed hclaimed' target).settled hsettled) ?_
          exact (calm_noticeUser _).mpr
            (calm_refreshPrivileges ((calm_noticeUser _).mpr (calm_self _)))
  · exact h.of_users rfl

/-- What is bound, restored, released or dropped is no station's own callsign: a password result gives
its nick no callsign that a station is known under, and no operator releases such a callsign from a
nick, or drops the nick of a station. -/
def Spares (s : Server) (e : Moment × ServerRuns.Event) : Prop :=
  match e.2 with
  | .line id line => ∀ msg arg, Message.parse line = some msg → Heeded s e.1 id msg →
      s.isOper (.ip id) = true → msg.param 0 = some arg →
      (String.ofList msg.command = "UNCLAIM" → ReleaseSpares s arg) ∧
        (String.ofList msg.command = "DROPNICK" → DropSpares s arg)
  | .authFinished job result => ∀ u, s.user (.ip job.client) = some u →
      lower u.nick = lower job.nick → GrantSpares s job.kind result u
  | _ => True

/-! ### Runs -/

theorem counted_user (h : Counted s m id t) (uid : UserId) : t.user uid =
    if uid = .ip id then (s.user uid).map fun u => { u with lastActive := m.now } else s.user uid := by
  have huser := State.user_modifyUser s.state (.ip id) (fun u => { u with lastActive := m.now }) uid
  rw [Server.user, h.state]
  refine huser.trans ?_
  split_ifs with heq
  · rw [heq]
    rfl
  · rfl

theorem counted_present (h : Counted s m id t) : Present t call ↔ Present s call := by
  unfold Present
  rw [counted_user h, if_neg (by simp)]

theorem counted_isOper (h : Counted s m id t) : t.isOper (.ip id) = s.isOper (.ip id) := by
  rw [Server.isOper, counted_user h, if_pos rfl]
  cases hu : s.user (.ip id) <;> simp [Server.isOper, hu]

theorem counted_findTarget (h : Counted s m id t) (nick : Text) :
    findTarget t.state nick = findTarget s.state nick := by
  have hnicks : t.state.nicks = s.state.nicks := by
    rw [h.state]
    exact State.nicks_modifyUser ..
  unfold AirScreen.findTarget State.byNick
  rw [hnicks]
  cases s.state.nicks.get (lower nick) with
  | none => rfl
  | some uid =>
    have huser : t.state.users.get uid = _ := counted_user h uid
    rw [Option.bind_some, Option.bind_some, huser]
    split_ifs
    · exact Option.map_map ..
    · rfl

theorem binding_stations {e : ServerRuns.Event} (hs : Standing s) (hclaimed : Claimed [] s)
    (h : Stations s) (he : ServerRuns.Enabled verifies s (m, e)) (hspares : Spares s (m, e))
    (hbinding : Binding s m e t) : Stations t := by
  cases hbinding with
  | @command id line msg t hparse hcounted hheeded hcmd =>
    have ht : Standing t := steps_standing hcounted.steps hs
    have hclaimed' : Claimed [] t := hclaimed.of_calm (known_of_standing hs) hcounted.calm
    have hstations : Stations t :=
      h.of_calm (hclaimed.settled (known_of_standing hs)) hcounted.calm
    have hoper : t.isOper (.ip id) = true → s.isOper (.ip id) = true := fun hoper => by
      rwa [counted_isOper hcounted] at hoper
    rcases hcmd with hcmd | hcmd | hcmd
    · rw [hcmd]
      exact cmdCallsign_stations ht hclaimed' hstations rfl
    · rw [hcmd]
      refine cmdUnclaim_stations ht hclaimed' hstations fun ho arg harg call hread hbound hpresent => ?_
      rw [hcounted.accounts] at hbound
      exact (hspares msg arg hparse hheeded (hoper ho) harg).1 hcmd call hread hbound
        ((counted_present hcounted).mp hpresent)
    · rw [hcmd]
      refine cmdDropnick_stations ht hclaimed' hstations fun ho arg harg hregistered target htarget => ?_
      rw [hcounted.accounts] at hregistered
      rw [counted_findTarget hcounted] at htarget
      exact (hspares msg arg hparse hheeded (hoper ho) harg).2 hcmd hregistered target htarget
  | @result job result =>
    have hdone : Step anything s { s with jobs := s.jobs.erase job } := .done
    have hstanding := steps_standing (.single hdone) hs
    have hclaimed' : Claimed [] { s with jobs := s.jobs.erase job } := hclaimed.of_same rfl rfl
    exact finishAuth_stations hstanding hclaimed' (h.of_users rfl) (hs.jobs job he.1).2 job.kind
      job.nick result hspares

/-- One step: no station loses its callsign. -/
theorem next_stations (hs : Grounded s) (hclaimed : Claimed [] s) (h : Stations s)
    (he : ServerRuns.Enabled verifies s e) (hspares : Spares s e) :
    Stations (s.next reader e) := by
  have hhandled : Stations (handled reader s e) := by
    rcases handled_calm reader hs.standing e with hcalm | hbinding
    · exact h.of_calm (hclaimed.settled (known_of_standing hs.standing)) hcalm
    · exact binding_stations hs.standing hclaimed h he hspares hbinding
  rw [next_eq]
  split_ifs
  · have hclaimed' : Claimed [] (handled reader s e) := handled_claimed hs hclaimed he
    have hsettled := hclaimed'.settled (known_of_standing (handled_standing hs he))
    exact hhandled.of_calm hsettled (calm_reapEvictedPeers ..)
  · exact hhandled

/-- No station is there when a server starts. -/
theorem new_stations (cfg : ServerConfig) (attached : Bool) (tnc : TransmitPump.TncConfig)
    (a : Store) (unix : ℕ) : Stations (Server.new cfg attached tnc a unix) := by
  intro call hcall
  have hnobody : (Server.new cfg attached tnc a unix).user (.rf call) = none := by
    change (configuredChannels cfg unix).users.get _ = none
    rw [(configuredChannels_vacant cfg unix).1]
    rfl
  rw [Present, hnobody] at hcall
  cases hcall

theorem serves_stations (h : Serves reader verifies Spares s) : Stations s := by
  induction h with
  | fresh cfg attached tnc unix => exact new_stations cfg attached tnc .empty unix
  | @restarted s _ cfg attached tnc unix => exact new_stations cfg attached tnc s.accounts unix
  | next hserves hspares he ih =>
    obtain ⟨hs, hclaimed⟩ := serves_claimed hserves
    exact next_stations hs hclaimed ih he hspares

/-- Where nothing binds, restores, releases or drops a station's callsign, every station goes by its
own, whatever users claim. -/
theorem station_keeps_callsign (h : Serves reader verifies Spares s) {u : User}
    (hu : s.user (.rf call) = some u) : u.callsign = some call := by
  have hheld := serves_stations h call (Option.isSome_iff_exists.mpr ⟨u, hu⟩)
  rwa [hold, hu, Option.bind_some] at hheld

/-- A user claims a callsign, its station comes up, and then the user registers the nick. -/
def displaced : List ServerRuns.Event :=
  ServerRuns.Small.joins 1 "anna" false ++ [.line 1 "CALLSIGN SM0ABC-7",
    ServerRuns.Small.airc ServerRuns.Small.station .hello 1 ["SM0ABC".toList],
    .line 1 "REGISTER longsecret",
    .authFinished ⟨1, .register, "anna", .hash "longsecret"⟩ (.ok (some "longsecret"))]

theorem registration_strips_station :
    Serves ServerRuns.Small.noBeacon Eq ServerRuns.everyStep (ServerRuns.Small.run displaced) ∧
      ∃ u, (ServerRuns.Small.run displaced).user (.rf ServerRuns.Small.station) = some u ∧
        u.callsign = none := by
  have hfeasible : ServerRuns.Small.Feasible displaced := by decide +kernel
  refine ⟨(Serves.fresh ServerRuns.Small.config true .default 0).run hfeasible, ?_⟩
  have hstripped : ((ServerRuns.Small.run displaced).user (.rf ServerRuns.Small.station)).map
      User.callsign = some none := by decide +kernel
  exact Option.map_eq_some_iff.mp hstripped

theorem spares_of_not_oper (h : s.isOper (.ip id) = false) (line : Text) :
    Spares s (m, .line id line) := by
  intro msg arg _ _ hoper _
  rw [h] at hoper
  cases hoper

/-- A user claims a callsign that no station has, while a station is there, and registers the nick. -/
def neighbours : List ServerRuns.Event :=
  ServerRuns.Small.airc ServerRuns.Small.station .hello 1 ["SM0ABC".toList] ::
    ServerRuns.Small.joins 1 "anna" false ++
      [.line 1 "CALLSIGN SM5XYZ", .line 1 "REGISTER longsecret"]

def registered : Moment × ServerRuns.Event := (ServerRuns.Small.second 7,
  .authFinished ⟨1, .register, "anna", .hash "longsecret"⟩ (.ok (some "longsecret")))

theorem neighbours_serve :
    Serves ServerRuns.Small.noBeacon Eq Spares (ServerRuns.Small.run neighbours) := by
  have hruns : Runs Spares (ServerRuns.Enabled Eq) (Server.next ServerRuns.Small.noBeacon)
      ServerRuns.Small.start (ServerRuns.Small.seconds neighbours) :=
    ⟨trivial, by decide +kernel, trivial, by decide +kernel,
      spares_of_not_oper (by decide +kernel) _, by decide +kernel,
      spares_of_not_oper (by decide +kernel) _, by decide +kernel,
      spares_of_not_oper (by decide +kernel) _, by decide +kernel,
      spares_of_not_oper (by decide +kernel) _, by decide +kernel, trivial⟩
  exact (Serves.fresh ServerRuns.Small.config true .default 0).run hruns

theorem registered_spares : Spares (ServerRuns.Small.run neighbours) registered := by
  intro u hu _ _ call hgrants hpresent
  have hclaim : ((ServerRuns.Small.run neighbours).user (.ip 1)).map User.callsign =
      some (some ⟨"SM5XYZ", 0⟩) := by decide +kernel
  rw [hu] at hclaim
  have hcall : u.callsign = some ⟨"SM5XYZ", 0⟩ := Option.some.inj hclaim
  rcases hgrants with ⟨hclaimed, -⟩ | ⟨-, hstored⟩
  · obtain rfl := Option.some.inj (hcall.symm.trans hclaimed)
    have habsent : ¬ Present (ServerRuns.Small.run neighbours) ⟨"SM5XYZ", 0⟩ := by decide +kernel
    exact habsent hpresent
  · have hempty : (ServerRuns.Small.run neighbours).accounts.nicks.entries = [] := by decide +kernel
    obtain ⟨text, htext, -⟩ := Option.bind_eq_some_iff.mp hstored
    obtain ⟨x, hx, -⟩ := Option.bind_eq_some_iff.mp htext
    have hmem := Table.mem_entries_iff.mpr hx
    rw [hempty] at hmem
    cases hmem

theorem neighbour_keeps_callsign :
    ∃ u, ((ServerRuns.Small.run neighbours).next ServerRuns.Small.noBeacon registered).user
        (.rf ServerRuns.Small.station) = some u ∧ u.callsign = some ServerRuns.Small.station := by
  have hserves := neighbours_serve.next registered_spares (by decide +kernel)
  have hpresent : Present ((ServerRuns.Small.run neighbours).next ServerRuns.Small.noBeacon registered)
      ServerRuns.Small.station := by decide +kernel
  obtain ⟨u, hu⟩ := Option.isSome_iff_exists.mp hpresent
  exact ⟨u, hu, station_keeps_callsign hserves hu⟩

end StationCallsigns
