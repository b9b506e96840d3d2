import Rfircd.LateResults

/-! Taking a callsign back.
A user who is known to own a nick gets the callsign of its account back, whoever goes by it loses it,
and has its own restored in turn. Every user is restored at most once. -/
namespace CallsignCascade

open Basics KeyedTable MessageText IrcState Accounts ServerOutput ServerCore ServerCore.Server
open ServerSteps LateResults

variable {s t : Server} {m : Moment} {uid j : UserId} {call : Callsign} {ids : List UserId}

/-! ### Who goes by which callsign -/

/-- The callsign that a user goes by. -/
def hold (s : Server) (uid : UserId) : Option Callsign := (s.user uid).bind User.callsign

/-- The callsign of the account that a user is known to own. -/
def stored (s : Server) (u : User) : Option Callsign :=
  if u.nickIdentified then
    ((s.accounts.get u.nick).bind NickAccount.callsign).bind Callsign.fromStr
  else none

def own (s : Server) (uid : UserId) : Option Callsign := (s.user uid).bind (stored s)

/-- Users stand under their ids. -/
def Known (s : Server) : Prop := ∀ uid u, s.user uid = some u → u.id = uid

/-- What the change of a callsign leaves of a user. -/
def face (u : User) : UserId × Text × Bool := (u.id, u.nick, u.nickIdentified)

/-- The same users and accounts, with other callsigns. -/
structure Recalls (s t : Server) : Prop where
  accounts : t.accounts = s.accounts
  users : ∀ uid, (t.user uid).map face = (s.user uid).map face

theorem Recalls.refl (s : Server) : Recalls s s := ⟨rfl, fun _ => rfl⟩

theorem Recalls.trans {r : Server} (h : Recalls s t) (h' : Recalls t r) : Recalls s r :=
  ⟨h'.accounts.trans h.accounts, fun uid => (h'.users uid).trans (h.users uid)⟩

theorem Recalls.of_state (haccounts : t.accounts = s.accounts) (hstate : t.state.users = s.state.users) :
    Recalls s t := by
  refine ⟨haccounts, fun uid => ?_⟩
  rw [Server.user, State.user, hstate]
  rfl

theorem Recalls.known (h : Recalls s t) (hs : Known s) : Known t := by
  intro uid v hv
  have hface := h.users uid
  rw [hv] at hface
  obtain ⟨u, hu, heq⟩ := Option.map_eq_some_iff.mp hface.symm
  have hid : u.id = v.id := congrArg Prod.fst heq
  rw [← hid]
  exact hs uid u hu

theorem Recalls.own (h : Recalls s t) (uid : UserId) : own t uid = own s uid := by
  have hface := h.users uid
  unfold CallsignCascade.own
  cases hu : s.user uid with
  | none =>
    rw [hu] at hface
    rw [Option.map_eq_none_iff.mp hface]
    rfl
  | some u =>
    rw [hu] at hface
    obtain ⟨v, hv, heq⟩ := Option.map_eq_some_iff.mp hface
    have hnick : v.nick = u.nick := congrArg (fun f => f.2.1) heq
    have hidentified : v.nickIdentified = u.nickIdentified := congrArg (fun f => f.2.2) heq
    rw [hv]
    simp only [Option.bind_some, stored, hnick, hidentified, h.accounts]

theorem modifyUser_recalls (s : Server) (uid : UserId) {f : User → User}
    (hf : ∀ u, face (f u) = face u) : Recalls s (s.modifyUser uid f) := by
  refine ⟨rfl, fun j => ?_⟩
  change ((s.state.modifyUser uid f).user j).map face = _
  rw [State.user_modifyUser]
  split_ifs with hj
  · rw [hj, Option.map_map]
    exact Option.map_congr fun u _ => hf u
  · rfl

theorem hold_of_users (h : t.state.users = s.state.users) (uid : UserId) : hold t uid = hold s uid := by
  unfold hold Server.user State.user
  rw [h]

/-- Flags are told about, and change nobody's callsign. -/
theorem reapplyFlags_users (s : Server) (uid : UserId) :
    (s.reapplyFlags uid).state.users = s.state.users := by
  refine foldl_same (fun s : Server => s.state.users) (fun s ch => ?_) s _
  have hflags := (State.applyIntendedFlags_users s.state uid ch).1
  rcases hnew : s.state.applyIntendedFlags uid ch with ⟨_ | ⟨old, new⟩, st⟩
  · rfl
  · rw [hnew] at hflags
    dsimp only
    split_ifs <;> exact hflags

theorem reapplyFlags_recalls (s : Server) (uid : UserId) : Recalls s (s.reapplyFlags uid) :=
  .of_state (reapplyFlags_accounts ..) (reapplyFlags_users ..)

@[simp] theorem hold_reapplyFlags (s : Server) (uid j : UserId) :
    hold (s.reapplyFlags uid) j = hold s j := hold_of_users (reapplyFlags_users ..) j

theorem noticeUser_recalls (s : Server) (m : Moment) (uid : UserId) (text : Text) :
    Recalls s (s.noticeUser m uid text) := .of_state rfl rfl

@[simp] theorem hold_noticeUser (s : Server) (m : Moment) (uid j : UserId) (text : Text) :
    hold (s.noticeUser m uid text) j = hold s j := rfl

/-! ### One round -/

/-- The callsign that a refresh gives back to a user. -/
def restored (s : Server) (uid : UserId) : Option Callsign :=
  (s.user uid).bind fun u => if u.isRf || u.callsign.isSome then none else stored s u

/-- Who goes by a callsign, but for one user. -/
def victims (s : Server) (call : Callsign) (keep : Option UserId) : List User :=
  (s.state.users.entries.map Prod.snd).filter fun u =>
    keep ≠ some u.id && decide (u.callsign = some call)

/-- What an account gives its owner. -/
def privileged (s : Server) (u : User) (v : User) : User :=
  { v with
    rfTx := v.oper || (u.nickIdentified && s.accounts.grantsRfTx u.nick)
    callsign := v.callsign <|> stored s u }

theorem refreshRfTx_user {u : User} (hu : s.user uid = some u) (hrf : u.isRf = false)
    (strip : Server → Callsign → Server) :
    s.refreshRfTx strip uid = match restored s uid with
      | none => s.modifyUser uid (privileged s u)
      | some call => strip (s.modifyUser uid (privileged s u)) call := by
  have hrestored : restored s uid = if u.callsign.isSome then none else stored s u := by
    rw [restored, hu, Option.bind_some, hrf, Bool.false_or]
  rw [hrestored]
  unfold refreshRfTx
  rw [hu]
  dsimp only
  rw [if_neg (by simp [hrf]), ← stored]
  cases u.callsign with
  | some call => rfl
  | none =>
    simp only [Option.isSome_none, Bool.false_eq_true, if_false]
    unfold privileged
    cases stored s u <;> rfl

theorem refreshRfTx_station (h : ∀ u, s.user uid = some u → u.isRf = true)
    (strip : Server → Callsign → Server) : s.refreshRfTx strip uid = s := by
  unfold refreshRfTx
  cases hu : s.user uid with
  | none => rfl
  | some u => exact if_pos (h u hu)

theorem restored_station (h : ∀ u, s.user uid = some u → u.isRf = true) : restored s uid = none := by
  unfold restored
  cases hu : s.user uid with
  | none => rfl
  | some u => simp [h u hu]

theorem refreshRfTx_eq (s : Server) (strip : Server → Callsign → Server) (uid : UserId) :
    s.refreshRfTx strip uid = match restored s uid with
      | none => recompute s uid
      | some call => strip (recompute s uid) call := by
  by_cases h : ∀ u, s.user uid = some u → u.isRf = true
  · rw [restored_station h, recompute, refreshRfTx_station h, refreshRfTx_station h]
  · push Not at h
    obtain ⟨u, hu, hrf⟩ := h
    rw [recompute, refreshRfTx_user hu (by simpa using hrf), refreshRfTx_user hu (by simpa using hrf)]
    cases restored s uid <;> rfl

theorem recompute_recalls (s : Server) (uid : UserId) : Recalls s (recompute s uid) := by
  rcases recompute_cases s uid with ⟨-, heq⟩ | ⟨u, c, -, heq⟩
  · rw [heq]
    exact .refl s
  · rw [heq]
    exact modifyUser_recalls s uid fun _ => rfl

theorem hold_modifyUser (s : Server) (uid j : UserId) (f : User → User) :
    hold (s.modifyUser uid f) j =
      if j = uid then (s.user uid).bind fun u => (f u).callsign else hold s j := by
  unfold hold
  change ((s.state.modifyUser uid f).user j).bind User.callsign = _
  rw [State.user_modifyUser]
  split_ifs with hj
  · change ((s.user uid).map f).bind User.callsign = _
    rw [Option.bind_map]
    rfl
  · rfl

/-- A refresh gives the user the callsign that is restored, and nobody else one. -/
theorem hold_recompute (s : Server) (uid j : UserId) : hold (recompute s uid) j =
    if j = uid then hold s uid <|> restored s uid else hold s j := by
  by_cases h : ∀ u, s.user uid = some u → u.isRf = true
  · rw [restored_station h, recompute, refreshRfTx_station h]
    split_ifs with hj
    · rw [hj]
      cases hold s uid <;> rfl
    · rfl
  · push Not at h
    obtain ⟨u, hu, hrf⟩ := h
    have hrf' : u.isRf = false := by simpa using hrf
    have heq : recompute s uid = s.modifyUser uid (privileged s u) := by
      rw [recompute, refreshRfTx_user hu hrf']
      cases restored s uid <;> rfl
    rw [heq, hold_modifyUser]
    split_ifs with hj
    · have hhold : hold s uid = u.callsign := by rw [hold, hu, Option.bind_some]
      rw [hu, Option.bind_some, hhold, restored, hu, Option.bind_some, hrf', Bool.false_or]
      change (u.callsign <|> stored s u) = _
      cases u.callsign <;> rfl
    · rfl

theorem restored_eq (hs : Known s) (uid : UserId) : restored s uid =
    if uid.isRf || (hold s uid).isSome then none else own s uid := by
  unfold restored hold own
  cases hu : s.user uid with
  | none => simp
  | some u =>
    have hrf : u.isRf = uid.isRf := by rw [User.isRf, hs uid u hu]
    simp only [Option.bind_some, hrf]

/-! ### The recursion, without a bound on its rounds -/

def unclaimed (u : User) : User := { u with callsign := none }

mutual

/-- A refresh that ends. -/
inductive Refreshes (m : Moment) : Server → UserId → Server → Prop where
  | kept {s : Server} {uid : UserId} : restored s uid = none →
      Refreshes m s uid ((recompute s uid).reapplyFlags uid)
  | restores {s t : Server} {uid : UserId} {call : Callsign} : restored s uid = some call →
      Strips m (belongsToAnother call) (victims (recompute s uid) call (some uid)) (recompute s uid) t →
      Refreshes m s uid (t.reapplyFlags uid)

/-- One after another loses the callsign and is refreshed. -/
inductive Strips (m : Moment) : Text → List User → Server → Server → Prop where
  | done {notice : Text} {s : Server} : Strips m notice [] s s
  | next {notice : Text} {u : User} {us : List User} {s t t' : Server} :
      Refreshes m ((s.modifyUser u.id unclaimed).noticeUser m u.id notice) u.id t →
      Strips m notice us t t' → Strips m notice (u :: us) s t'

end

/-! ### What is still to be restored -/

/-- A user who does not go by the callsign of its account. -/
def Unsettled (s : Server) (uid : UserId) : Prop :=
  uid.isRf = false ∧ ∃ call, own s uid = some call ∧ hold s uid ≠ some call

def Covers (ids : List UserId) (s : Server) : Prop := ∀ uid, Unsettled s uid → uid ∈ ids

/-- No two users are known to own the same callsign. -/
def Apart (s : Server) : Prop := ∀ uid uid' call, uid.isRf = false → uid'.isRf = false →
  own s uid = some call → own s uid' = some call → uid = uid'

/-- Of two Internet users who go by the same callsign, one is in the list. -/
def Clash (ids : List UserId) (s : Server) : Prop := ∀ uid uid' call, uid.isRf = false →
  uid'.isRf = false → hold s uid = some call → hold s uid' = some call → uid ≠ uid' →
  uid ∈ ids ∨ uid' ∈ ids

theorem Recalls.apart (h : Recalls s t) (hs : Apart s) : Apart t := by
  intro uid uid' call hip hip' howns howns'
  rw [h.own] at howns howns'
  exact hs uid uid' call hip hip' howns howns'

/-- What a refresh leaves when the unsettled users are among some. -/
structure Round (ids : List UserId) (s t : Server) : Prop where
  recalls : Recalls s t
  covers : Covers ids t
  clash : ∀ others, Clash others s → Clash others t
  sources : ∀ j call, hold t j = some call → hold s j = some call ∨ own s j = some call
  stations : ∀ call, hold s (.rf call) = some call → (∀ j ∈ ids, own s j ≠ some call) →
    hold t (.rf call) = some call

theorem Covers.of_hold (h : Recalls s t) (hhold : ∀ j, hold t j = hold s j) (hs : Covers ids s) :
    Covers ids t := by
  rintro j ⟨hip, call, howns, hother⟩
  rw [h.own] at howns
  rw [hhold] at hother
  exact hs j ⟨hip, call, howns, hother⟩

theorem Round.of_hold (h : Recalls s t) (hhold : ∀ j, hold t j = hold s j) (hs : Covers ids s) :
    Round ids s t := by
  refine ⟨h, hs.of_hold h hhold, fun others hclash uid uid' call hip hip' hh hh' => ?_,
    fun j call hj => ?_, fun call hcall _ => ?_⟩
  · rw [hhold] at hh hh'
    exact hclash uid uid' call hip hip' hh hh'
  · rw [hhold] at hj
    exact .inl hj
  · rw [hhold]
    exact hcall

theorem Round.trans_hold {r : Server} (h : Round ids s t) (h' : Recalls t r)
    (hhold : ∀ j, hold r j = hold t j) : Round ids s r := by
  have hsame : Round ids t r := .of_hold h' hhold h.covers
  refine ⟨h.recalls.trans h', hsame.covers, fun others hs => hsame.clash others (h.clash others hs),
    fun j call hj => ?_, fun call hcall hfree => ?_⟩
  · rw [hhold] at hj
    exact h.sources j call hj
  · rw [hhold]
    exact h.stations call hcall hfree

theorem hold_kept (h : restored s uid = none) (j : UserId) :
    hold ((recompute s uid).reapplyFlags uid) j = hold s j := by
  rw [hold_reapplyFlags, hold_recompute, h]
  split_ifs with hj
  · rw [hj]
    cases hold s uid <;> rfl
  · rfl

theorem kept_recalls (s : Server) (uid : UserId) :
    Recalls s ((recompute s uid).reapplyFlags uid) :=
  (recompute_recalls s uid).trans (reapplyFlags_recalls ..)

theorem refreshWith_kept (h : restored s uid = none) (n : ℕ) :
    refreshWith n s m uid = (recompute s uid).reapplyFlags uid := by
  cases n with
  | zero => rfl
  | succ n => rw [refreshWith, refreshRfTx_eq, h]

theorem refreshWith_restores (h : restored s uid = some call) (n : ℕ) :
    refreshWith (n + 1) s m uid = (((victims (recompute s uid) call (some uid)).foldl (fun s u =>
      refreshWith n ((s.modifyUser u.id unclaimed).noticeUser m u.id (belongsToAnother call)) m u.id)
      (recompute s uid)).reapplyFlags uid) := by
  rw [refreshWith, refreshRfTx_eq, h]
  rfl

/-- A user without a callsign who is restored none is settled. -/
theorem settled_of_kept (hs : Known s) (h : restored s uid = none) (hnone : hold s uid = none) :
    ¬ Unsettled s uid := by
  rintro ⟨hip, call, howns, -⟩
  rw [restored_eq hs, hip, hnone] at h
  rw [Option.isSome_none, Bool.or_self, if_neg Bool.false_ne_true] at h
  rw [h] at howns
  cases howns

theorem hold_unclaimed (s : Server) (uid j : UserId) (notice : Text) (m : Moment) :
    hold ((s.modifyUser uid unclaimed).noticeUser m uid notice) j = if j = uid then none else hold s j := by
  rw [hold_noticeUser, hold_modifyUser]
  split_ifs
  · cases s.user uid <;> rfl
  · rfl

theorem unclaimed_recalls (s : Server) (uid : UserId) (notice : Text) (m : Moment) :
    Recalls s ((s.modifyUser uid unclaimed).noticeUser m uid notice) := by
  have hunclaimed : Recalls s (s.modifyUser uid unclaimed) := modifyUser_recalls s uid fun _ => rfl
  exact hunclaimed.trans (noticeUser_recalls _ m uid notice)

/-! ### The rounds end -/

/-- One after another of the users is refreshed without the callsign. The induction is on the users
who are left; each of them that has a callsign of its own is among those still to be restored. -/
theorem strip_rounds {refresh : Server → UserId → Server} {notice : Text}
    (hround : ∀ s v, Known s → Apart s → Covers ids s →
      Refreshes m s v (refresh s v) ∧ Round ids s (refresh s v))
    (us : List User) {s : Server} (hs : Known s) (hapart : Apart s) (hcovers : Covers ids s)
    (hus : ∀ u ∈ us, u.id.isRf = false → ∀ call, own s u.id = some call → u.id ∈ ids) :
    let t := us.foldl (fun s u =>
      refresh ((s.modifyUser u.id unclaimed).noticeUser m u.id notice) u.id) s
    Strips m notice us s t ∧ Recalls s t ∧ Covers ids t ∧
      (∀ others, Clash (us.map User.id ++ others) s → Clash others t) ∧
      (∀ j call, hold t j = some call → hold s j = some call ∨ own s j = some call) ∧
      ∀ call, .rf call ∉ us.map User.id → hold s (.rf call) = some call →
        (∀ j ∈ ids, own s j ≠ some call) → hold t (.rf call) = some call := by
  induction us generalizing s with
  | nil =>
    exact ⟨.done, .refl s, hcovers, fun others hs => hs, fun j call hj => .inl hj,
      fun call _ hcall _ => hcall⟩
  | cons u us ih =>
    intro t
    let s' := (s.modifyUser u.id unclaimed).noticeUser m u.id notice
    have hrecalls : Recalls s s' := unclaimed_recalls ..
    have hhold : ∀ j, hold s' j = if j = u.id then none else hold s j :=
      fun j => hold_unclaimed s u.id j notice m
    have hcovers' : Covers ids s' := by
      rintro j ⟨hip, call, howns, hother⟩
      rw [hrecalls.own] at howns
      by_cases hj : j = u.id
      · rw [hj]
        exact hus u List.mem_cons_self (hj ▸ hip) call (hj ▸ howns)
      · rw [hhold, if_neg hj] at hother
        exact hcovers j ⟨hip, call, howns, hother⟩
    obtain ⟨hrefreshes, hr⟩ := hround s' u.id (hrecalls.known hs) (hrecalls.apart hapart) hcovers'
    have hrecalls' := hrecalls.trans hr.recalls
    have hus' : ∀ v ∈ us, v.id.isRf = false → ∀ call, own (refresh s' u.id) v.id = some call →
        v.id ∈ ids := by
      intro v hv hip call howns
      rw [hrecalls'.own] at howns
      exact hus v (List.mem_cons_of_mem _ hv) hip call howns
    obtain ⟨hstrips, hrest, hcovered, hclash, hsources, hstations⟩ :=
      ih (hrecalls'.known hs) (hrecalls'.apart hapart) hr.covers hus'
    refine ⟨.next hrefreshes hstrips, hrecalls'.trans hrest, hcovered, fun others hclashes => ?_,
      fun j call hj => ?_, fun call hnot hcall hfree => ?_⟩
    · refine hclash others (hr.clash _ fun x y call hx hy hhx hhy hne => ?_)
      -- whoever lost the callsign clashes with nobody
      rw [hhold] at hhx hhy
      split_ifs at hhx hhy with hxu hyu
      rcases hclashes x y call hx hy hhx hhy hne with hmem | hmem
      · rcases List.mem_cons.mp hmem with heq | hmem
        · exact absurd heq hxu
        · exact .inl hmem
      · rcases List.mem_cons.mp hmem with heq | hmem
        · exact absurd heq hyu
        · exact .inr hmem
    · rcases hsources j call hj with hheld | howned
      · rcases hr.sources j call hheld with hheld | howned
        · rw [hhold] at hheld
          split_ifs at hheld
          exact .inl hheld
        · rw [hrecalls.own] at howned
          exact .inr howned
      · rw [hrecalls'.own] at howned
        exact .inr howned
    · rw [List.map_cons, List.mem_cons, not_or] at hnot
      refine hstations call hnot.2 (hr.stations call ?_ fun j hj => ?_) fun j hj => ?_
      · rw [hhold, if_neg hnot.1]
        exact hcall
      · rw [hrecalls.own]
        exact hfree j hj
      · rw [hrecalls'.own]
        exact hfree j hj

theorem mem_victims (hs : Known s) {keep : Option UserId} {v : UserId} (hv : hold s v = some call)
    (hkeep : keep ≠ some v) : v ∈ (victims s call keep).map User.id := by
  obtain ⟨u, hu, hcall⟩ := Option.bind_eq_some_iff.mp hv
  have hid := hs v u hu
  refine List.mem_map.mpr ⟨u, List.mem_filter.mpr ⟨List.mem_map.mpr ⟨(v, u), ?_, rfl⟩, ?_⟩, hid⟩
  · exact Table.mem_entries_iff.mpr hu
  · rw [hid]
    simp [hkeep, hcall]

theorem of_mem_victims (hs : Known s) {keep : Option UserId} {u : User}
    (hu : u ∈ victims s call keep) : hold s u.id = some call ∧ keep ≠ some u.id := by
  obtain ⟨hmem, hcond⟩ := List.mem_filter.mp hu
  obtain ⟨⟨v, u'⟩, hentry, rfl⟩ := List.mem_map.mp hmem
  have huser : s.user v = some u' := Table.mem_entries_iff.mp hentry
  have hid : u'.id = v := hs v u' huser
  simp only [ne_eq, Bool.and_eq_true, decide_eq_true_eq] at hcond
  refine ⟨?_, by simpa using hcond.1⟩
  rw [hold, hid, huser]
  exact hcond.2

/-- What a restored callsign leaves to be done: its user is settled, and whoever goes by it as well is
a victim. -/
theorem restored_spec (hs : Known s) (hcovers : Covers ids s) (h : restored s uid = some call) :
    uid.isRf = false ∧ own s uid = some call ∧ hold s uid = none ∧ uid ∈ ids ∧
      Covers (ids.filter (· ≠ uid)) (recompute s uid) ∧
      ∀ others, Clash others s → Clash ((victims (recompute s uid) call (some uid)).map User.id ++ others)
        (recompute s uid) := by
  have hfields : uid.isRf = false ∧ hold s uid = none ∧ own s uid = some call := by
    rw [restored_eq hs] at h
    split_ifs at h with hcond
    simp only [Bool.or_eq_true, not_or, Bool.not_eq_true, Option.isSome_eq_false_iff,
      Option.isNone_iff_eq_none] at hcond
    exact ⟨hcond.1, hcond.2, h⟩
  obtain ⟨hip, hnone, howns⟩ := hfields
  have hrecalls : Recalls s (recompute s uid) := recompute_recalls s uid
  have hhold : ∀ j, hold (recompute s uid) j = if j = uid then some call else hold s j := by
    intro j
    rw [hold_recompute, hnone, h]
    rfl
  refine ⟨hip, howns, hnone, hcovers uid ⟨hip, call, howns, by rw [hnone]; simp⟩, ?_,
    fun others hclash x y d hx hy hhx hhy hne => ?_⟩
  · rintro j ⟨hj, c, hown, hother⟩
    rw [hrecalls.own] at hown
    rw [hhold] at hother
    have hne : j ≠ uid := by
      rintro rfl
      rw [if_pos rfl, ← howns, hown] at hother
      exact hother rfl
    rw [if_neg hne] at hother
    exact List.mem_filter.mpr ⟨hcovers j ⟨hj, c, hown, hother⟩, by simpa using hne⟩
  · have hvictim : ∀ v, v ≠ uid → hold (recompute s uid) v = some call →
        v ∈ (victims (recompute s uid) call (some uid)).map User.id ++ others := by
      intro v hv hcall
      refine List.mem_append_left _ (mem_victims (hrecalls.known hs) hcall fun heq => hv ?_)
      exact (Option.some.inj heq).symm
    by_cases hxu : x = uid
    · rw [hhold, if_pos hxu] at hhx
      exact .inr (hvictim y (fun hyu => hne (hxu.trans hyu.symm)) (hhy.trans hhx.symm))
    · by_cases hyu : y = uid
      · rw [hhold, if_pos hyu] at hhy
        exact .inl (hvictim x hxu (hhx.trans hhy.symm))
      · rw [hhold, if_neg hxu] at hhx
        rw [hhold, if_neg hyu] at hhy
        exact (hclash x y d hx hy hhx hhy hne).imp (List.mem_append_right _) (List.mem_append_right _)

/-- As many rounds as there are unsettled users are enough. The induction is on the rounds: whoever is
restored is not unsettled any more. -/
theorem refreshWith_round (n : ℕ) {s : Server} {uid : UserId} {ids : List UserId} (hs : Known s)
    (hapart : Apart s) (hcovers : Covers ids s) (hn : ids.length ≤ n) :
    Refreshes m s uid (refreshWith n s m uid) ∧ Round ids s (refreshWith n s m uid) ∧
      (hold s uid = none → Covers (ids.filter (· ≠ uid)) (refreshWith n s m uid)) := by
  induction n generalizing s uid ids with
  | zero =>
    have hempty : ids = [] := List.eq_nil_of_length_eq_zero (Nat.le_zero.mp hn)
    have hkept : restored s uid = none := by
      cases h : restored s uid with
      | none => rfl
      | some call =>
        obtain ⟨-, -, -, hmem, -⟩ := restored_spec hs hcovers h
        rw [hempty] at hmem
        cases hmem
    rw [refreshWith_kept hkept]
    refine ⟨.kept hkept, .of_hold (kept_recalls ..) (hold_kept hkept) hcovers, fun _ => ?_⟩
    rw [hempty] at hcovers ⊢
    exact hcovers.of_hold (kept_recalls ..) (hold_kept hkept)
  | succ n ih =>
    cases h : restored s uid with
    | none =>
      rw [refreshWith_kept h]
      refine ⟨.kept h, .of_hold (kept_recalls ..) (hold_kept h) hcovers, fun hnone => ?_⟩
      refine Covers.of_hold (kept_recalls ..) (hold_kept h) fun j hj => ?_
      refine List.mem_filter.mpr ⟨hcovers j hj, ?_⟩
      have hne : j ≠ uid := fun heq => settled_of_kept hs h hnone (heq ▸ hj)
      simpa using hne
    | some call =>
      obtain ⟨hip, howns, hnone, hmem, hcovers', hclash⟩ := restored_spec hs hcovers h
      have hrecalls : Recalls s (recompute s uid) := recompute_recalls s uid
      have hless : (ids.filter (· ≠ uid)).length ≤ n := by
        have hlt : (ids.filter (· ≠ uid)).length < ids.length :=
          List.length_filter_lt_length_iff_exists.mpr ⟨uid, hmem, by simp⟩
        omega
      have hround : ∀ t v, Known t → Apart t → Covers (ids.filter (· ≠ uid)) t →
          Refreshes m t v (refreshWith n t m v) ∧
            Round (ids.filter (· ≠ uid)) t (refreshWith n t m v) := by
        intro t v ht hapart' hcov
        obtain ⟨hrefreshes, hr, -⟩ := ih ht hapart' hcov hless
        exact ⟨hrefreshes, hr⟩
      have hvictims : ∀ u ∈ victims (recompute s uid) call (some uid), u.id.isRf = false →
          ∀ c, own (recompute s uid) u.id = some c → u.id ∈ ids.filter (· ≠ uid) := by
        intro u hu hrf c hown
        obtain ⟨hcall, hkeep⟩ := of_mem_victims (hrecalls.known hs) hu
        refine hcovers' u.id ⟨hrf, c, hown, fun heq => hkeep ?_⟩
        rw [hcall] at heq
        rw [hrecalls.own, ← Option.some.inj heq] at hown
        exact congrArg some (hapart uid u.id call hip hrf howns hown)
      obtain ⟨hstrips, hrest, hcovered, hunclash, hsources, hstations⟩ := strip_rounds hround
        (victims (recompute s uid) call (some uid)) (hrecalls.known hs) (hrecalls.apart hapart) hcovers'
        hvictims
      have hall : Round ids s ((victims (recompute s uid) call (some uid)).foldl (fun s u =>
          refreshWith n ((s.modifyUser u.id unclaimed).noticeUser m u.id (belongsToAnother call)) m u.id)
          (recompute s uid)) := by
        refine ⟨hrecalls.trans hrest, fun j hj => (List.mem_filter.mp (hcovered j hj)).1,
          fun others hs => hunclash others (hclash others hs), fun j c hj => ?_, fun c hc hfree => ?_⟩
        · rcases hsources j c hj with hheld | howned
          · rw [hold_recompute, hnone, h] at hheld
            split_ifs at hheld with heq
            · rw [heq]
              exact .inr (howns.trans hheld)
            · exact .inl hheld
          · rw [hrecalls.own] at howned
            exact .inr howned
        have hne : UserId.rf c ≠ uid := fun heq => by
          rw [← heq] at hip
          cases hip
        have hkept : hold (recompute s uid) (.rf c) = some c := by
          rw [hold_recompute, if_neg hne]
          exact hc
        refine hstations c (fun hvictim => ?_) hkept fun j hj => ?_
        · obtain ⟨u, hu, heq⟩ := List.mem_map.mp hvictim
          have hcall := (of_mem_victims (hrecalls.known hs) hu).1
          rw [heq, hkept] at hcall
          exact hfree uid hmem (howns.trans hcall.symm)
        · rw [hrecalls.own]
          exact hfree j (List.mem_filter.mp hj).1
      rw [refreshWith_restores h]
      refine ⟨.restores h hstrips, hall.trans_hold (reapplyFlags_recalls ..) (hold_reapplyFlags _ _),
        fun _ => ?_⟩
      exact hcovered.of_hold (reapplyFlags_recalls ..) (hold_reapplyFlags _ _)

/-- There are as many rounds as users. -/
theorem refreshPrivileges_round (hs : Known s) (hapart : Apart s) (hcovers : Covers ids s) :
    Refreshes m s uid (s.refreshPrivileges m uid) ∧ Round ids s (s.refreshPrivileges m uid) ∧
      (hold s uid = none → Covers (ids.filter (· ≠ uid)) (s.refreshPrivileges m uid)) := by
  have hsome : Covers (s.state.users.keys.filter (· ∈ ids)) s := by
    intro j hj
    obtain ⟨-, call, howns, -⟩ := id hj
    obtain ⟨u, hu, -⟩ := Option.bind_eq_some_iff.mp howns
    have hkey : j ∈ s.state.users.keys := Table.mem_keys_iff.mpr (Option.isSome_iff_exists.mpr ⟨u, hu⟩)
    exact List.mem_filter.mpr ⟨hkey, by simpa using hcovers j hj⟩
  have hfew : (s.state.users.keys.filter (· ∈ ids)).length ≤ s.state.users.size := by
    refine (List.length_filter_le _ _).trans ?_
    rw [Table.keys, List.length_map, Table.size]
  have hmem : ∀ j ∈ s.state.users.keys.filter (· ∈ ids), j ∈ ids := by
    intro j hj
    simpa using (List.mem_filter.mp hj).2
  obtain ⟨hrefreshes, hr, hsettled⟩ := refreshWith_round (m := m) _ hs hapart hsome hfew
  refine ⟨hrefreshes, ⟨hr.recalls, fun j hj => hmem j (hr.covers j hj), hr.clash, hr.sources,
    fun call hcall hfree => hr.stations call hcall fun j hj => hfree j (hmem j hj)⟩, fun hnone j hj => ?_⟩
  obtain ⟨hkept, hne⟩ := List.mem_filter.mp (hsettled hnone j hj)
  exact List.mem_filter.mpr ⟨hmem j hkept, hne⟩

/-- A callsign that is nobody's own, but for the one who keeps it, can be taken from everyone else. -/
theorem stripCallsignClaims_round (hs : Known s) (hapart : Apart s) (hcovers : Covers ids s)
    {keep : Option UserId} (hfree : ∀ v, keep ≠ some v → v.isRf = false → own s v ≠ some call)
    (notice : Text) :
    let t := s.stripCallsignClaims m call keep notice
    Strips m notice (victims s call keep) s t ∧ Recalls s t ∧ Covers ids t ∧
      (∀ others, Clash ((victims s call keep).map User.id ++ others) s → Clash others t) ∧
      (∀ j c, hold t j = some c → hold s j = some c ∨ own s j = some c) ∧
      ∀ c, .rf c ∉ (victims s call keep).map User.id → hold s (.rf c) = some c →
        (∀ j ∈ ids, own s j ≠ some c) → hold t (.rf c) = some c := by
  have hround : ∀ t v, Known t → Apart t → Covers ids t →
      Refreshes m t v (t.refreshPrivileges m v) ∧ Round ids t (t.refreshPrivileges m v) := by
    intro t v ht hapart' hcov
    obtain ⟨hrefreshes, hr, -⟩ := refreshPrivileges_round (m := m) ht hapart' hcov
    exact ⟨hrefreshes, hr⟩
  refine strip_rounds hround (victims s call keep) hs hapart hcovers fun u hu hip c hown => ?_
  obtain ⟨hcall, hkeep⟩ := of_mem_victims hs hu
  refine hcovers u.id ⟨hip, c, hown, fun heq => hfree u.id hkeep hip ?_⟩
  rw [hown, ← heq, hcall]

theorem covers_users (s : Server) : Covers s.state.users.keys s := by
  rintro uid ⟨-, call, howns, -⟩
  obtain ⟨u, hu, -⟩ := Option.bind_eq_some_iff.mp howns
  exact Table.mem_keys_iff.mpr (Option.isSome_iff_exists.mpr ⟨u, hu⟩)

end CallsignCascade
