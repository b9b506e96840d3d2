import Rfircd.CallsignRecords

/-! What leaves the callsigns alone.
Only a claim, its release and a password result give a callsign to anybody or take one away. -/
namespace CallsignFrames

open Basics KeyedTable MessageText HostKey IrcMessage IrcState AirPolicy AirScreen Accounts
open ServerOutput ServerCore ServerCore.Server Bridge ServerSteps LateResults CallsignCascade
open CallsignRecords

variable {s t r : Server} {m : Moment} {uid : UserId} {msg : Message}

/-! ### Callsigns that stay -/

/-- The same callsign, and no nick more to one's name. -/
structure Like (u v : User) : Prop where
  id : v.id = u.id
  callsign : v.callsign = u.callsign
  owns : v.nickIdentified = true → u.nickIdentified = true ∧ lower v.nick = lower u.nick

/-- A station goes by its own callsign, and anybody else by none. -/
structure Fresh (uid : UserId) (v : User) : Prop where
  id : v.id = uid
  callsign : v.callsign = uid.callsign
  unidentified : v.nickIdentified = false

/-- No account has a callsign that it did not have. -/
structure Keeps (a b : Store) : Prop where
  orderly : Orderly a → Orderly b
  callsigns : ∀ key y text, b.nicks.get key = some y → y.callsign = some text →
    ∃ x, a.nicks.get key = some x ∧ x.callsign = some text

/-- Nobody has another callsign, or another right to one. -/
structure Quiet (s t : Server) : Prop where
  accounts : Keeps s.accounts t.accounts
  users : ∀ uid v, t.user uid = some v → Fresh uid v ∨ ∃ u, s.user uid = some u ∧ Like u v

/-- Everybody who is known to own a callsign goes by it. -/
structure Settled (s : Server) : Prop where
  known : Known s
  covers : Covers [] s

/-- From a settled state, nobody has another callsign. -/
structure Calm (s t : Server) : Prop where
  quiet : Settled s → Quiet s t

theorem Like.refl (u : User) : Like u u := ⟨rfl, rfl, fun h => ⟨h, rfl⟩⟩

theorem Like.trans {u v w : User} (h : Like u v) (h' : Like v w) : Like u w := by
  refine ⟨h'.id.trans h.id, h'.callsign.trans h.callsign, fun hi => ?_⟩
  obtain ⟨hv, hnick⟩ := h'.owns hi
  obtain ⟨hu, hnick'⟩ := h.owns hv
  exact ⟨hu, hnick.trans hnick'⟩

theorem Fresh.like {v w : User} (h : Fresh uid v) (h' : Like v w) : Fresh uid w := by
  refine ⟨h'.id.trans h.id, h'.callsign.trans h.callsign, ?_⟩
  by_contra hi
  have hv := (h'.owns (by simpa using hi)).1
  rw [h.unidentified] at hv
  cases hv

theorem Keeps.refl (a : Store) : Keeps a a := ⟨id, fun _ x _ hx hcall => ⟨x, hx, hcall⟩⟩

theorem Keeps.trans {a b c : Store} (h : Keeps a b) (h' : Keeps b c) : Keeps a c := by
  refine ⟨fun ha => h'.orderly (h.orderly ha), fun key z text hz hcall => ?_⟩
  obtain ⟨y, hy, hcall⟩ := h'.callsigns key z text hz hcall
  exact h.callsigns key y text hy hcall

theorem keeps_modify {a b : Store} {nick : Text} {f : NickAccount → NickAccount}
    (hf : ∀ x, (f x).nick = x.nick) (hcall : ∀ x, (f x).callsign = x.callsign)
    (h : a.modify nick f = .ok b) : Keeps a b := by
  refine ⟨fun ha => ha.modify hf hcall h, fun key y text hy htext => ?_⟩
  obtain ⟨x, hx, hget⟩ := modify_eq h
  rw [hget] at hy
  split_ifs at hy with hkey
  · obtain rfl := Option.some.inj hy
    rw [hcall] at htext
    exact ⟨x, hkey ▸ hx, htext⟩
  · exact ⟨y, hy, htext⟩

theorem keeps_insertHashed {a b : Store} {nick hash : Text} {unix : ℕ}
    (h : a.insertHashed nick hash unix = .ok b) : Keeps a b := by
  refine ⟨fun ha => ha.insertHashed h, fun key y text hy htext => ?_⟩
  unfold Store.insertHashed at h
  split_ifs at h
  obtain rfl := Except.ok.inj h
  rw [Table.get_set] at hy
  split_ifs at hy
  · obtain rfl := Option.some.inj hy
    cases htext
  · exact ⟨y, hy, htext⟩

theorem keeps_dropNick {a b : Store} {nick : Text} (h : a.dropNick nick = .ok b) : Keeps a b := by
  refine ⟨fun ha => ha.dropNick h, fun key y text hy htext => ?_⟩
  unfold Store.dropNick at h
  split_ifs at h
  obtain rfl := Except.ok.inj h
  rw [Table.get_erase] at hy
  split_ifs at hy
  exact ⟨y, hy, htext⟩

/-- Bans are no accounts. -/
theorem keeps_of_nicks {a b : Store} (h : b.nicks = a.nicks) : Keeps a b := by
  have hsame : ∀ key, b.nicks.get key = a.nicks.get key := fun key => by rw [h]
  refine ⟨fun ha => ha.of_fewer fun key y hy => ?_, fun key y text hy htext => ⟨y, ?_, htext⟩⟩
  · rw [hsame] at hy
    exact ⟨ha.keyed key y hy, .inr ⟨y, hy, rfl⟩⟩
  · rwa [hsame] at hy

theorem Quiet.refl (s : Server) : Quiet s s :=
  ⟨.refl _, fun _ v hv => .inr ⟨v, hv, .refl v⟩⟩

theorem Quiet.trans (h : Quiet s t) (h' : Quiet t r) : Quiet s r := by
  refine ⟨h.accounts.trans h'.accounts, fun uid w hw => ?_⟩
  rcases h'.users uid w hw with hfresh | ⟨v, hv, hlike⟩
  · exact .inl hfresh
  · rcases h.users uid v hv with hfresh | ⟨u, hu, hlike'⟩
    · exact .inl (hfresh.like hlike)
    · exact .inr ⟨u, hu, hlike'.trans hlike⟩

theorem Quiet.known (h : Quiet s t) (hs : Known s) : Known t := by
  intro uid v hv
  rcases h.users uid v hv with hfresh | ⟨u, hu, hlike⟩
  · exact hfresh.id
  · exact hlike.id.trans (hs uid u hu)

/-- Whoever is known to own a callsign was known to own it. -/
theorem Quiet.own (h : Quiet s t) {call : Callsign} (hown : own t uid = some call) :
    own s uid = some call ∧ hold t uid = hold s uid := by
  obtain ⟨v, hv, -⟩ := Option.bind_eq_some_iff.mp hown
  rw [own_eq hv] at hown
  split_ifs at hown with hi
  obtain ⟨text, htext, hread⟩ := Option.bind_eq_some_iff.mp hown
  obtain ⟨y, hy, hcall⟩ := Option.bind_eq_some_iff.mp htext
  rcases h.users uid v hv with hfresh | ⟨u, hu, hlike⟩
  · rw [hfresh.unidentified] at hi
    cases hi
  · obtain ⟨hui, hnick⟩ := hlike.owns hi
    obtain ⟨x, hx, hcall'⟩ := h.accounts.callsigns _ y text hy hcall
    refine ⟨?_, by rw [hold, hv, hold, hu]; exact hlike.callsign⟩
    rw [own_eq hu, if_pos hui, ← hnick, hx, Option.bind_some, hcall', Option.bind_some, hread]

theorem Quiet.settled (h : Quiet s t) (hs : Settled s) : Settled t := by
  refine ⟨h.known hs.known, fun uid hunsettled => ?_⟩
  obtain ⟨hip, call, hown, hother⟩ := hunsettled
  obtain ⟨hown', hhold⟩ := h.own hown
  rw [hhold] at hother
  exact hs.covers uid ⟨hip, call, hown', hother⟩

theorem Calm.trans (h : Calm s t) (h' : Calm t r) : Calm s r :=
  ⟨fun hs => (h.quiet hs).trans (h'.quiet ((h.quiet hs).settled hs))⟩

@[simp] theorem calm_self (s : Server) : Calm s s := ⟨fun _ => .refl s⟩

theorem calm_foldl {α : Type*} {f : Server → α → Server} (hf : ∀ s x, Calm s (f s x))
    (xs : List α) (h : Calm s t) : Calm s (xs.foldl f t) := by
  induction xs generalizing t with
  | nil => exact h
  | cons x xs ih => exact ih (h.trans (hf t x))

/-! ### Lines, content and channels -/

/-- Callsigns are kept with the users and in the accounts. -/
theorem calm_congr (haccounts : r.accounts = t.accounts) (husers : r.state.users = t.state.users) :
    Calm s r ↔ Calm s t := by
  have hsame : ∀ uid, r.user uid = t.user uid := fun uid => congrArg (·.get uid) husers
  constructor
  · refine fun h => ⟨fun hs => ⟨haccounts ▸ (h.quiet hs).accounts, fun uid v hv => ?_⟩⟩
    exact (h.quiet hs).users uid v ((hsame uid).trans hv)
  · refine fun h => ⟨fun hs => ⟨haccounts ▸ (h.quiet hs).accounts, fun uid v hv => ?_⟩⟩
    exact (h.quiet hs).users uid v ((hsame uid).symm.trans hv)

@[simp] theorem calm_mk (o jobs password bans failures ids joined relayed) :
    Calm s ⟨o, t.state, t.accounts, jobs, password, bans, failures, ids, joined, relayed⟩ ↔ Calm s t :=
  calm_congr rfl rfl

@[simp] theorem calm_send (f) : Calm s (t.send f) ↔ Calm s t := calm_congr rfl rfl

@[simp] theorem calm_perform (op) : Calm s (t.perform op) ↔ Calm s t := calm_congr rfl rfl

@[simp] theorem calm_withPolicy (p) : Calm s (t.withPolicy p) ↔ Calm s t := calm_congr rfl rfl

@[simp] theorem calm_numeric (code params) : Calm s (t.numeric uid code params) ↔ Calm s t :=
  calm_congr rfl rfl

@[simp] theorem calm_noticeUser (text) : Calm s (t.noticeUser m uid text) ↔ Calm s t :=
  calm_congr rfl rfl

@[simp] theorem calm_noticeAccountError (e) : Calm s (t.noticeAccountError m uid e) ↔ Calm s t :=
  calm_congr rfl rfl

@[simp] theorem calm_announceMode (channel setter changes args) :
    Calm s (t.announceMode channel setter changes args) ↔ Calm s t := calm_congr rfl rfl

@[simp] theorem calm_modifyChannel (name f) : Calm s (t.modifyChannel name f) ↔ Calm s t :=
  calm_congr rfl (State.users_modifyChannel ..)

@[simp] theorem calm_needMore (command) : Calm s (t.needMore uid command) ↔ Calm s t :=
  calm_congr rfl rfl

@[simp] theorem calm_noSuchChannel (name) : Calm s (t.noSuchChannel uid name) ↔ Calm s t :=
  calm_congr rfl rfl

@[simp] theorem calm_notOnChannel (name) : Calm s (t.notOnChannel uid name) ↔ Calm s t :=
  calm_congr rfl rfl

@[simp] theorem calm_opNeeded (name) : Calm s (t.opNeeded uid name) ↔ Calm s t :=
  calm_congr rfl rfl

@[simp] theorem calm_passwordIncorrect : Calm s (t.passwordIncorrect uid) ↔ Calm s t :=
  calm_congr rfl rfl

@[simp] theorem calm_permissionDenied : Calm s (t.permissionDenied uid) ↔ Calm s t :=
  calm_congr rfl rfl

@[simp] theorem calm_rfError (call code text) : Calm s (t.rfError m call code text) ↔ Calm s t :=
  calm_congr rfl rfl

@[simp] theorem calm_relay (channel d allowRf) : Calm s (t.relay m uid channel d allowRf) ↔ Calm s t :=
  calm_congr rfl rfl

@[simp] theorem calm_closeLink (line) : Calm s (t.closeLink uid line) ↔ Calm s t := by
  cases uid <;> exact calm_congr rfl rfl

@[simp] theorem calm_reapplyFlags : Calm s (t.reapplyFlags uid) ↔ Calm s t :=
  calm_congr (reapplyFlags_accounts ..) (reapplyFlags_users ..)

/-! ### Users who come, change and go -/

theorem calm_modifyUser {f : User → User} (hf : ∀ u, Like u (f u)) (h : Calm s t) :
    Calm s (t.modifyUser uid f) := by
  refine h.trans ⟨fun _ => ⟨.refl _, fun j v hv => .inr ?_⟩⟩
  have hv' := (State.user_modifyUser t.state uid f j).symm.trans hv
  split_ifs at hv' with hj
  · obtain ⟨u, hu, rfl⟩ := Option.map_eq_some_iff.mp hv'
    exact ⟨u, hj ▸ hu, hf u⟩
  · exact ⟨v, hv', .refl v⟩

/-- Everybody keeps what counts of them, or is gone. -/
theorem calm_users {st : State} (hst : ∀ j v, st.user j = some v →
    Fresh j v ∨ ∃ u, t.state.user j = some u ∧ Like u v) (h : Calm s t) :
    Calm s { t with state := st } := h.trans ⟨fun _ => ⟨.refl _, hst⟩⟩

theorem calm_remove (uid : UserId) (h : Calm s t) : Calm s { t with state := t.state.removeUser uid } := by
  refine calm_users (fun j v hv => .inr ⟨v, ?_, .refl v⟩) h
  rw [State.user_removeUser] at hv
  split_ifs at hv
  exact hv

theorem calm_insert {u : User} (hu : Fresh u.id u) (h : Calm s t) :
    Calm s { t with state := t.state.insertUser u } := by
  refine calm_users (fun j v hv => ?_) h
  rw [State.user_insertUser] at hv
  split_ifs at hv with hj
  · obtain rfl := Option.some.inj hv
    exact .inl (hj ▸ hu)
  · exact .inr ⟨v, hv, .refl v⟩

theorem calm_part (uid : UserId) (channel : Text) (h : Calm s t) :
    Calm s { t with state := (t.state.part uid channel).2 } := by
  refine calm_users (fun j v hv => .inr ?_) h
  rcases (State.part_users t.state uid channel).2 with hsame | hsame
  · exact ⟨v, hsame ▸ hv, .refl v⟩
  · rw [hsame, State.user_modifyUser] at hv
    split_ifs at hv with hj
    · obtain ⟨u, hu, rfl⟩ := Option.map_eq_some_iff.mp hv
      exact ⟨u, hj ▸ hu, rfl, rfl, fun hi => ⟨hi, rfl⟩⟩
    · exact ⟨v, hv, .refl v⟩

theorem calm_join {channel : Text} {given : Option Text} {flags : MemberFlags}
    (hjoin : t.join uid channel given = some (flags, r)) (h : Calm s t) : Calm s r := by
  obtain ⟨⟨f, st⟩, hst, heq⟩ := Option.map_eq_some_iff.mp hjoin
  obtain ⟨-, rfl⟩ := Prod.mk.inj heq
  obtain ⟨-, u, hu, husers⟩ := State.join_users hst
  have hmember : Calm s { t with state := st } := by
    refine calm_users (fun j v hv => .inr ?_) h
    rw [husers] at hv
    split_ifs at hv with hj
    · obtain rfl := Option.some.inj hv
      exact ⟨u, hj ▸ hu, rfl, rfl, fun hi => ⟨hi, rfl⟩⟩
    · exact ⟨v, hv, .refl v⟩
  refine (calm_congr ?_ ?_).mpr hmember <;> rfl

theorem calm_accounts {a : Store} (ha : Keeps t.accounts a) (h : Calm s t) :
    Calm s { t with accounts := a } :=
  h.trans ⟨fun _ => ⟨ha, fun _ v hv => .inr ⟨v, hv, .refl v⟩⟩⟩

@[simp] theorem calm_quitUser (reason) (h : Calm s t) : Calm s (t.quitUser m uid reason) := by
  unfold quitUser
  split
  · exact h
  · extract_lets told rfChannels outlet removed gone
    have htold : Calm s told := by
      simp only [told]
      split_ifs <;> simpa using h
    have hremoved : Calm s removed := by
      refine (calm_congr ?_ ?_).mpr (calm_remove uid htold) <;> rfl
    have hgone : Calm s gone := by
      simp only [gone]
      cases uid <;> simpa using hremoved
    refine calm_foldl (fun s c => ?_) _ hgone
    split_ifs <;> simp only [calm_self, calm_send]

/-! ### Privileges -/

/-- In a settled state nothing is restored. -/
theorem Settled.restored (h : Settled s) (uid : UserId) : restored s uid = none := by
  rw [restored_eq h.known]
  split_ifs with hcond
  · rfl
  · simp only [Bool.or_eq_true, not_or, Bool.not_eq_true, Option.isSome_eq_false_iff,
      Option.isNone_iff_eq_none] at hcond
    cases hown : own s uid with
    | none => rfl
    | some call =>
      have hunsettled : Unsettled s uid := ⟨hcond.1, call, hown, by rw [hcond.2]; simp⟩
      cases h.covers uid hunsettled

theorem quiet_of_recalls (h : Recalls s t) (hhold : ∀ j, hold t j = hold s j) : Quiet s t := by
  refine ⟨h.accounts ▸ .refl _, fun j v hv => .inr ?_⟩
  have hface := h.users j
  rw [hv] at hface
  obtain ⟨u, hu, heq⟩ := Option.map_eq_some_iff.mp hface.symm
  have hcall := hhold j
  rw [hold, hv, hold, hu] at hcall
  refine ⟨u, hu, (congrArg Prod.fst heq).symm, hcall, fun hi => ?_⟩
  have hnick : u.nick = v.nick := congrArg (fun f => f.2.1) heq
  have hidentified : u.nickIdentified = v.nickIdentified := congrArg (fun f => f.2.2) heq
  exact ⟨hidentified.trans hi, by rw [hnick]⟩

@[simp] theorem calm_refreshPrivileges (h : Calm s t) : Calm s (t.refreshPrivileges m uid) := by
  refine h.trans ⟨fun ht => ?_⟩
  have hkept := ht.restored uid
  rw [refreshPrivileges, refreshWith_kept hkept]
  exact quiet_of_recalls (kept_recalls ..) (hold_kept hkept)

/-! ### Channels -/

theorem calm_announceJoin (s : Server) (m : Moment) (name : Text) (flags : MemberFlags) :
    Calm s (s.announceJoin m uid name flags) := by
  unfold announceJoin
  dsimp only
  split_ifs <;> simp only [calm_send, calm_announceMode, calm_self]

theorem calm_doJoin (s : Server) (m : Moment) (name key : Text) : Calm s (s.doJoin m uid name key) := by
  unfold doJoin
  extract_lets chan real made
  split_ifs
  · simp
  · simp
  · simp only [calm_numeric, calm_self]
  · simp only [calm_numeric, calm_self]
  · simp only [calm_numeric, calm_self]
  · have hmade : Calm s made := (calm_congr (r := made) (t := s) rfl (State.users_ensureChannel ..)).mpr (calm_self s)
    split
    · exact hmade
    · rename_i hjoin
      exact (calm_join hjoin hmade).trans (calm_announceJoin ..)

theorem calm_doPart (s : Server) (m : Moment) (name reason : Text) :
    Calm s (s.doPart m uid name reason) := by
  unfold doPart
  split
  · simp
  · split_ifs
    · simp
    · exact calm_part uid _ (by simp)

theorem calm_cmdJoin (s : Server) (m : Moment) (msg : Message) : Calm s (s.cmdJoin m uid msg) := by
  unfold cmdJoin
  split
  · simp only [calm_needMore, calm_self]
  · split_ifs
    · exact calm_foldl (fun s key => calm_doPart ..) _ (calm_self s)
    · exact calm_foldl (fun s e => calm_doJoin ..) _ (calm_self s)

theorem calm_cmdPart (s : Server) (m : Moment) (msg : Message) : Calm s (s.cmdPart m uid msg) := by
  unfold cmdPart
  split
  · simp only [calm_needMore, calm_self]
  · exact calm_foldl (fun s name => calm_doPart ..) _ (calm_self s)

theorem calm_setTopic (s : Server) (m : Moment) (chan : Channel) (topic : Text) :
    Calm s (s.setTopic m uid chan topic) := by
  unfold setTopic screenForAir
  dsimp only
  split_ifs <;> simp

theorem calm_cmdTopic (s : Server) (m : Moment) (msg : Message) : Calm s (s.cmdTopic m uid msg) := by
  unfold cmdTopic
  split
  · simp only [calm_needMore, calm_self]
  · split
    · simp
    · simp
    · split
      · simp
      · split_ifs <;> first | exact calm_setTopic .. | simp

theorem calm_modeFlag (s : Server) (c : ModeChange) (l : ModeLine) (letter : Char)
    (get : Channel → Bool) (set : Channel → Channel) : Calm s (s.modeFlag c l letter get set).1 := by
  unfold modeFlag
  split_ifs <;> simp

theorem calm_modeBridge (s : Server) (c : ModeChange) (l : ModeLine) :
    Calm s (s.modeBridge c l).1 := by
  unfold modeBridge
  split_ifs
  · simp only [calm_numeric, calm_self]
  · split
    · simp
    · split_ifs <;> simp

theorem calm_modeKey (s : Server) (c : ModeChange) (l : ModeLine) : Calm s (s.modeKey c l).1 := by
  unfold modeKey
  extract_lets key l'
  clear_value key
  split_ifs
  · split
    · simp only [calm_needMore, calm_self]
    · simp only [calm_needMore, calm_self]
    · split_ifs <;> simp
  · simp
  · simp

theorem calm_modeLimit (s : Server) (c : ModeChange) (l : ModeLine) :
    Calm s (s.modeLimit c l).1 := by
  unfold modeLimit
  extract_lets raw l'
  split_ifs
  · split
    · simp only [calm_needMore, calm_self]
    · split_ifs <;> simp
  · simp
  · simp

theorem calm_modeMember (s : Server) (c : ModeChange) (l : ModeLine) (letter : Char) :
    Calm s (s.modeMember c l letter).1 := by
  unfold modeMember
  extract_lets who l'
  clear_value who
  split_ifs
  · simp only [calm_numeric, calm_self]
  · split
    · simp only [calm_needMore, calm_self]
    · split
      · simp only [calm_numeric, calm_self]
      · split <;> simp only [calm_numeric, calm_self, calm_modifyChannel]

theorem calm_modeChar (s : Server) (c : ModeChange) (l : ModeLine) (letter : Char) :
    Calm s (s.modeChar c l letter).1 := by
  unfold modeChar
  split_ifs
  · exact calm_self s
  · exact calm_self s
  · simp only [calm_numeric, calm_self]
  · exact calm_modeFlag ..
  · exact calm_modeFlag ..
  · exact calm_modeBridge ..
  · exact calm_modeKey ..
  · exact calm_modeLimit ..
  · exact calm_modeMember ..
  · exact calm_self s

theorem calm_changeModes (s : Server) (m : Moment) (c : ModeChange) (changes : Text) :
    Calm s (s.changeModes m c changes) := by
  have hletters : ∀ (letters : Text) (e : Server × ModeLine), Calm e.1
      (letters.foldl (fun (e : Server × ModeLine) letter => e.1.modeChar c e.2 letter) e).1 := by
    intro letters
    induction letters with
    | nil => exact fun e => calm_self _
    | cons letter letters ih => exact fun e => (calm_modeChar ..).trans (ih _)
  have hchanges := hletters changes (s, .start)
  unfold changeModes
  generalize changes.foldl (fun (e : Server × ModeLine) letter => e.1.modeChar c e.2 letter)
    (s, .start) = e at hchanges
  obtain ⟨t, l⟩ := e
  dsimp only at hchanges ⊢
  split_ifs
  · exact hchanges
  · exact calm_foldl (fun s member => calm_refreshPrivileges (calm_self s)) _ (by simpa using hchanges)

theorem calm_cmdMode (s : Server) (m : Moment) (msg : Message) : Calm s (s.cmdMode m uid msg) := by
  unfold cmdMode
  repeat' split
  all_goals first | exact calm_changeModes .. | simp only [calm_needMore, calm_self, calm_numeric, calm_noSuchChannel, calm_opNeeded]

theorem calm_cmdKick (s : Server) (m : Moment) (msg : Message) : Calm s (s.cmdKick m uid msg) := by
  unfold cmdKick
  split
  · simp only [calm_needMore, calm_self]
  · simp only [calm_needMore, calm_self]
  · split
    · simp
    · split_ifs
      · simp
      · split
        · simp only [calm_numeric, calm_self]
        · split_ifs
          · simp only [calm_numeric, calm_self]
          · extract_lets mask line told removed
            have hremoved : Calm s removed := calm_part _ _ (by simp [told])
            split
            · exact hremoved
            · simpa using hremoved

theorem calm_channelMessage (s : Server) (m : Moment) (sender : User) (chan : Channel) (text : Text)
    (notice : Bool) : Calm s (s.channelMessage m uid sender chan text notice) := by
  unfold channelMessage
  dsimp only
  split_ifs <;> simp

theorem calm_cmdPrivmsg (s : Server) (m : Moment) (msg : Message) (notice : Bool) :
    Calm s (s.cmdPrivmsg m uid msg notice) := by
  unfold cmdPrivmsg
  repeat' split
  all_goals first | exact calm_channelMessage .. | simp only [calm_numeric, calm_self, calm_noSuchChannel, calm_send]

end CallsignFrames
