import Rfircd.CallsignEvents

/-! What lets nobody in.
A connection gives a password, is registered, becomes a member of channels and an operator. Most of
what the server does changes none of this for anybody. -/
namespace AccessFrames

open Basics KeyedTable MessageText HostKey IrcMessage IrcState Ax25 Airc AprsCodec AirPolicy
open AirScreen
open Accounts ServerOutput ServerCore ServerCore.Server Bridge ServerSteps LateResults
open CallsignCascade

/-! ### What a user can gain -/

inductive Mark where
  | passed
  | registered
  | member
  | oper
  deriving DecidableEq

/-- A station needs neither a password nor a registration. -/
def Mark.of : Mark → UserId → User → Bool
  | .passed, _, u => u.passOk
  | .registered, .ip _, u => u.registered
  | .member, .ip _, u => !u.channels.isEmpty
  | .oper, _, u => u.oper
  | _, .rf _, _ => false

/-- Who may connect, who may gain what, and which password jobs may be started. -/
structure Gain where
  enters : UserId → Prop
  mark : Mark → UserId → Prop
  job : Job → Prop

/-- A user who is new has gained what it has. -/
structure New (G : Gain) (uid : UserId) (v : User) : Prop where
  enters : uid.isRf = true ∨ G.enters uid
  marks : ∀ mark : Mark, mark.of uid v = true → G.mark mark uid

structure Grows (G : Gain) (uid : UserId) (u v : User) : Prop where
  registered : u.registered = true → v.registered = true
  marks : ∀ mark : Mark, mark.of uid v = true → mark.of uid u = true ∨ G.mark mark uid

/-- Nobody has gained more than that. -/
structure Within (G : Gain) (s t : Server) : Prop where
  users : ∀ uid v, t.user uid = some v →
    New G uid v ∨ ∃ u, s.user uid = some u ∧ Grows G uid u v
  jobs : ∀ j ∈ t.jobs, j ∈ s.jobs ∨ G.job j

variable {G : Gain} {s t r : Server} {m : Moment} {uid : UserId} {id : ℕ} {user : User}
  {src call : Callsign}

theorem Grows.refl (u : User) : Grows G uid u u := ⟨id, fun _ => .inl⟩

/-- What counts of a user. -/
def access (u : User) : Bool × Bool × List Text × Bool :=
  (u.passOk, u.registered, u.channels, u.oper)

theorem of_access {u v : User} (h : access v = access u) (mark : Mark) :
    mark.of uid v = mark.of uid u := by
  obtain ⟨hpassed, h⟩ := Prod.mk.inj h
  obtain ⟨hregistered, h⟩ := Prod.mk.inj h
  obtain ⟨hchannels, hoper⟩ := Prod.mk.inj h
  cases mark <;> cases uid <;> simp only [Mark.of, hpassed, hregistered, hchannels, hoper]

theorem Grows.of_same {u v : User} (h : access v = access u) : Grows G uid u v := by
  refine ⟨fun hu => ?_, fun mark hv => .inl ((of_access h mark).symm.trans hv)⟩
  have hregistered : v.registered = u.registered := congrArg (fun a => a.2.1) h
  exact hregistered.trans hu

theorem Grows.trans {u v w : User} (h : Grows G uid u v) (h' : Grows G uid v w) :
    Grows G uid u w :=
  ⟨fun hu => h'.registered (h.registered hu), fun mark hw =>
    (h'.marks mark hw).elim (h.marks mark) .inr⟩

theorem New.grows {v w : User} (h : New G uid v) (h' : Grows G uid v w) : New G uid w :=
  ⟨h.enters, fun mark hw => (h'.marks mark hw).elim (h.marks mark) fun hg => hg⟩

@[simp] theorem within_self (s : Server) : Within G s s :=
  ⟨fun _ v hv => .inr ⟨v, hv, .refl v⟩, fun _ => .inl⟩

theorem Within.trans (h : Within G s t) (h' : Within G t r) : Within G s r := by
  refine ⟨fun uid w hw => ?_, fun j hj => (h'.jobs j hj).elim (h.jobs j) .inr⟩
  rcases h'.users uid w hw with hnew | ⟨v, hv, hgrows⟩
  · exact .inl hnew
  · rcases h.users uid v hv with hnew | ⟨u, hu, hgrown⟩
    · exact .inl (hnew.grows hgrows)
    · exact .inr ⟨u, hu, hgrown.trans hgrows⟩

theorem within_foldl {α : Type*} {f : Server → α → Server} (hf : ∀ s x, Within G s (f s x))
    (xs : List α) (h : Within G s t) : Within G s (xs.foldl f t) := by
  induction xs generalizing t with
  | nil => exact h
  | cons x xs ih => exact ih (h.trans (hf t x))

/-! ### Lines, content and channels -/

/-- Only users and jobs count. -/
theorem within_congr (husers : r.state.users = t.state.users) (hjobs : r.jobs = t.jobs) :
    Within G s r ↔ Within G s t := by
  have hsame : ∀ uid, r.user uid = t.user uid := fun uid => congrArg (·.get uid) husers
  constructor
  · exact fun h => ⟨fun uid v hv => h.users uid v ((hsame uid).trans hv), hjobs ▸ h.jobs⟩
  · exact fun h => ⟨fun uid v hv => h.users uid v ((hsame uid).symm.trans hv), hjobs.symm ▸ h.jobs⟩

@[simp] theorem within_mk (o accounts password bans failures ids joined relayed) :
    Within G s ⟨o, t.state, accounts, t.jobs, password, bans, failures, ids, joined, relayed⟩ ↔
      Within G s t :=
  within_congr rfl rfl

@[simp] theorem within_send (f) : Within G s (t.send f) ↔ Within G s t := within_congr rfl rfl

@[simp] theorem within_perform (op) : Within G s (t.perform op) ↔ Within G s t :=
  within_congr rfl rfl

@[simp] theorem within_withPolicy (p) : Within G s (t.withPolicy p) ↔ Within G s t :=
  within_congr rfl rfl

@[simp] theorem within_numeric (code params) :
    Within G s (t.numeric uid code params) ↔ Within G s t :=
  within_congr rfl rfl

@[simp] theorem within_noticeUser (text) : Within G s (t.noticeUser m uid text) ↔ Within G s t :=
  within_congr rfl rfl

@[simp] theorem within_noticeAccountError (e) :
    Within G s (t.noticeAccountError m uid e) ↔ Within G s t := within_congr rfl rfl

@[simp] theorem within_announceMode (channel setter changes args) :
    Within G s (t.announceMode channel setter changes args) ↔ Within G s t := within_congr rfl rfl

@[simp] theorem within_modifyChannel (name f) :
    Within G s (t.modifyChannel name f) ↔ Within G s t :=
  within_congr (State.users_modifyChannel ..) rfl

@[simp] theorem within_needMore (command) : Within G s (t.needMore uid command) ↔ Within G s t :=
  within_congr rfl rfl

@[simp] theorem within_noSuchChannel (name) :
    Within G s (t.noSuchChannel uid name) ↔ Within G s t :=
  within_congr rfl rfl

@[simp] theorem within_notOnChannel (name) : Within G s (t.notOnChannel uid name) ↔ Within G s t :=
  within_congr rfl rfl

@[simp] theorem within_opNeeded (name) : Within G s (t.opNeeded uid name) ↔ Within G s t :=
  within_congr rfl rfl

@[simp] theorem within_passwordIncorrect : Within G s (t.passwordIncorrect uid) ↔ Within G s t :=
  within_congr rfl rfl

@[simp] theorem within_permissionDenied : Within G s (t.permissionDenied uid) ↔ Within G s t :=
  within_congr rfl rfl

@[simp] theorem within_rfError (call code text) :
    Within G s (t.rfError m call code text) ↔ Within G s t := within_congr rfl rfl

@[simp] theorem within_relay (channel d allowRf) :
    Within G s (t.relay m uid channel d allowRf) ↔ Within G s t := within_congr rfl rfl

@[simp] theorem within_closeLink (line) : Within G s (t.closeLink uid line) ↔ Within G s t := by
  cases uid <;> exact within_congr rfl rfl

theorem reapplyFlags_jobs (s : Server) (uid : UserId) : (s.reapplyFlags uid).jobs = s.jobs := by
  refine foldl_same (fun s : Server => s.jobs) (fun s ch => ?_) s _
  rcases s.state.applyIntendedFlags uid ch with ⟨_ | ⟨old, new⟩, st⟩
  · rfl
  · dsimp only
    split_ifs <;> rfl

@[simp] theorem within_reapplyFlags : Within G s (t.reapplyFlags uid) ↔ Within G s t :=
  within_congr (reapplyFlags_users ..) (reapplyFlags_jobs ..)

/-! ### Users who come, change and go -/

theorem within_modifyUser {f : User → User} (hf : ∀ u, Grows G uid u (f u)) (h : Within G s t) :
    Within G s (t.modifyUser uid f) := by
  refine h.trans ⟨fun j v hv => .inr ?_, fun _ => .inl⟩
  have hv' := (State.user_modifyUser t.state uid f j).symm.trans hv
  split_ifs at hv' with hj
  · obtain ⟨u, hu, rfl⟩ := Option.map_eq_some_iff.mp hv'
    exact ⟨u, hj ▸ hu, hj ▸ hf u⟩
  · exact ⟨v, hv', .refl v⟩

theorem within_users {st : State} (hst : ∀ j v, st.user j = some v →
    New G j v ∨ ∃ u, t.state.user j = some u ∧ Grows G j u v) (h : Within G s t) :
    Within G s { t with state := st } := h.trans ⟨hst, fun _ => .inl⟩

theorem within_remove (uid : UserId) (h : Within G s t) :
    Within G s { t with state := t.state.removeUser uid } := by
  refine within_users (fun j v hv => .inr ⟨v, ?_, .refl v⟩) h
  rw [State.user_removeUser] at hv
  split_ifs at hv
  exact hv

theorem within_insert {u : User} (hu : New G u.id u) (h : Within G s t) :
    Within G s { t with state := t.state.insertUser u } := by
  refine within_users (fun j v hv => ?_) h
  rw [State.user_insertUser] at hv
  split_ifs at hv with hj
  · obtain rfl := Option.some.inj hv
    exact .inl (hj ▸ hu)
  · exact .inr ⟨v, hv, .refl v⟩

/-- A user in other channels. -/
theorem grows_channels (u : User) {channels : List Text}
    (h : u.channels = [] → channels = [] ∨ uid.isRf = true ∨ G.mark .member uid) :
    Grows G uid u { u with channels := channels } := by
  refine ⟨fun hu => hu, fun mark hmark => ?_⟩
  cases mark with
  | member =>
    cases uid with
    | ip id =>
      simp only [Mark.of, Bool.not_eq_true', List.isEmpty_eq_false_iff] at hmark ⊢
      by_cases hempty : u.channels = []
      · rcases h hempty with hnone | hrf | hmay
        · exact absurd hnone hmark
        · cases hrf
        · exact .inr hmay
      · exact .inl hempty
    | rf call => cases hmark
  | passed => exact .inl hmark
  | oper => exact .inl hmark
  | registered => cases uid <;> exact .inl hmark

theorem within_part (uid : UserId) (channel : Text) (h : Within G s t) :
    Within G s { t with state := (t.state.part uid channel).2 } := by
  refine within_users (fun j v hv => .inr ?_) h
  rcases (State.part_users t.state uid channel).2 with hsame | hsame
  · exact ⟨v, hsame ▸ hv, .refl v⟩
  · rw [hsame, State.user_modifyUser] at hv
    split_ifs at hv with hj
    · obtain ⟨u, hu, rfl⟩ := Option.map_eq_some_iff.mp hv
      exact ⟨u, hj ▸ hu, grows_channels u fun hempty => .inl (by rw [hempty]; rfl)⟩
    · exact ⟨v, hv, .refl v⟩

theorem within_join {channel : Text} {given : Option Text} {flags : MemberFlags}
    (hmay : uid.isRf = true ∨ G.mark .member uid)
    (hjoin : t.join uid channel given = some (flags, r)) (h : Within G s t) : Within G s r := by
  obtain ⟨⟨f, st⟩, hst, heq⟩ := Option.map_eq_some_iff.mp hjoin
  obtain ⟨-, rfl⟩ := Prod.mk.inj heq
  obtain ⟨-, u, hu, husers⟩ := State.join_users hst
  have hmember : Within G s { t with state := st } := by
    refine within_users (fun j v hv => .inr ?_) h
    rw [husers] at hv
    split_ifs at hv with hj
    · obtain rfl := Option.some.inj hv
      subst hj
      exact ⟨u, hu, grows_channels u fun _ => .inr hmay⟩
    · exact ⟨v, hv, .refl v⟩
  refine (within_congr ?_ ?_).mpr hmember <;> rfl

@[simp] theorem within_quitUser (reason) (h : Within G s t) :
    Within G s (t.quitUser m uid reason) := by
  unfold quitUser
  split
  · exact h
  · extract_lets told rfChannels outlet removed gone
    have htold : Within G s told := by
      simp only [told]
      split_ifs <;> simpa using h
    have hremoved : Within G s removed := by
      refine (within_congr ?_ ?_).mpr (within_remove uid htold) <;> rfl
    have hgone : Within G s gone := by
      simp only [gone]
      cases uid <;> simpa using hremoved
    refine within_foldl (fun s c => ?_) _ hgone
    split_ifs <;> simp only [within_self, within_send]

/-! ### Privileges -/

/-- Neither the privilege to transmit nor a callsign opens a door. -/
theorem within_refreshRfTx {strip : Server → Callsign → Server}
    (hstrip : ∀ t c, Within G t (strip t c)) (h : Within G s t) :
    Within G s (t.refreshRfTx strip uid) := by
  unfold refreshRfTx
  split
  · exact h
  · split_ifs
    · exact h
    all_goals
      extract_lets granted storedCall set
      have hset : Within G s set := within_modifyUser (fun u => .of_same rfl) h
      split
      · exact hset.trans (hstrip ..)
      · exact hset

theorem within_stripWith {refresh : Server → UserId → Server}
    (hrefresh : ∀ t v, Within G t (refresh t v)) (keep : Option UserId) (notice : Text)
    (h : Within G s t) : Within G s (t.stripWith refresh m call keep notice) := by
  refine within_foldl (fun s u => ?_) _ h
  refine Within.trans ?_ (hrefresh ..)
  exact (within_noticeUser _).mpr (within_modifyUser (fun u => .of_same rfl) (within_self s))

theorem within_refreshWith (n : ℕ) : ∀ (t : Server) (uid : UserId), Within G t
    (refreshWith n t m uid) := by
  induction n with
  | zero =>
    intro t uid
    exact within_reapplyFlags.mpr (within_refreshRfTx (fun t _ => within_self t) (within_self t))
  | succ n ih =>
    intro t uid
    refine within_reapplyFlags.mpr (within_refreshRfTx (fun t c => ?_) (within_self t))
    exact within_stripWith ih _ _ (within_self t)

@[simp] theorem within_refreshPrivileges (h : Within G s t) :
    Within G s (t.refreshPrivileges m uid) := h.trans (within_refreshWith _ t uid)

theorem within_stripCallsignClaims (keep : Option UserId) (notice : Text) (h : Within G s t) :
    Within G s (t.stripCallsignClaims m call keep notice) :=
  within_stripWith (fun _ _ => within_refreshPrivileges (within_self _)) keep notice h

end AccessFrames
