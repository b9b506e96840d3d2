import Rfircd.ServerSteps

/-! Who a user is on this server: under which nick, with which account, and what it may do.
The privilege to transmit is kept with the user, while the facts it rests on are in the account
store and change under other users' commands and late results. -/
namespace ServerSteps

open Basics KeyedTable MessageText IrcState AirPolicy ServerOutput Accounts ServerCore

variable {L : Licence} {s t : Server}

/-! ### Standing -/

/-- Who a user is, and what follows from it. -/
structure Sound (s : Server) (uid : UserId) (u : User) : Prop where
  known : u.id = uid
  owned : u.nick = ['*'] ∨ s.state.nicks.get (lower u.nick) = some uid
  named : u.gotNick = true → u.nick ≠ ['*']
  registered : uid.isRf = false → u.registered = true → u.gotNick = true
  identified : uid.isRf = false → u.nickIdentified = true →
    u.registered = true ∧ s.accounts.isRegistered u.nick = true
  privileged : uid.isRf = false → u.rfTx = true →
    u.oper = true ∨ u.nickIdentified = true ∧ s.accounts.grantsRfTx u.nick = true
  met : ∀ id, uid = .ip id → id ∈ s.clientIds

/-- Every user is sound, and jobs are those of registered users. -/
structure Standing (s : Server) : Prop where
  users : ∀ uid u, s.user uid = some u → Sound s uid u
  jobs : ∀ j ∈ s.jobs, j.client ∈ s.clientIds ∧
    ∀ u, s.user (.ip j.client) = some u → u.registered = true

theorem SameStanding.refl (u : User) : SameStanding u u := ⟨rfl, rfl, rfl, rfl, rfl, rfl, rfl⟩

theorem Extends.refl (a : Store) : Extends a a := fun _ x hx => ⟨x, hx, rfl⟩

theorem Extends.registered {a b : Store} (h : Extends a b) {nick : Text}
    (hr : a.isRegistered nick = true) : b.isRegistered nick = true := by
  obtain ⟨x, hx⟩ := Option.isSome_iff_exists.mp hr
  obtain ⟨y, hy, -⟩ := h nick x hx
  rw [Store.isRegistered, hy]
  rfl

theorem Extends.grants {a b : Store} (h : Extends a b) {nick : Text}
    (hg : a.grantsRfTx nick = true) : b.grantsRfTx nick = true := by
  obtain ⟨x, hx, hrf⟩ := Option.any_eq_true .. |>.mp hg
  obtain ⟨y, hy, hsame⟩ := h nick x hx
  rw [Store.grantsRfTx, hy]
  exact hsame.trans hrf

/-- A sound user stays sound while its nick is its own and its account is there. -/
theorem Sound.mono {uid : UserId} {u : User} (h : Sound s uid u)
    (hnick : u.nick ≠ ['*'] → s.state.nicks.get (lower u.nick) = some uid →
      t.state.nicks.get (lower u.nick) = some uid)
    (haccounts : uid.isRf = false → u.nickIdentified = true →
      s.accounts.get u.nick = t.accounts.get u.nick ∨ Extends s.accounts t.accounts)
    (hids : s.clientIds ⊆ t.clientIds) : Sound t uid u where
  known := h.known
  owned := by
    by_cases hstar : u.nick = ['*']
    · exact .inl hstar
    · exact .inr (hnick hstar (h.owned.resolve_left hstar))
  named := h.named
  registered := h.registered
  identified hip hi := by
    obtain ⟨hreg, hacc⟩ := h.identified hip hi
    refine ⟨hreg, ?_⟩
    rcases haccounts hip hi with hsame | hext
    · rw [Store.isRegistered, ← hsame]
      exact hacc
    · exact hext.registered hacc
  privileged hip hr := by
    refine (h.privileged hip hr).imp_right fun ⟨hi, hg⟩ => ⟨hi, ?_⟩
    rcases haccounts hip hi with hsame | hext
    · rw [Store.grantsRfTx, ← hsame]
      exact hg
    · exact hext.grants hg
  met id hid := hids (h.met id hid)

theorem Sound.same {uid : UserId} {u v : User} (h : Sound s uid u) (hv : SameStanding u v) :
    Sound s uid v where
  known := hv.id.trans h.known
  owned := by
    rw [hv.nick]
    exact h.owned
  named := by
    rw [hv.nick, hv.gotNick]
    exact h.named
  registered := by
    rw [hv.registered, hv.gotNick]
    exact h.registered
  identified := by
    rw [hv.nickIdentified, hv.registered, hv.nick]
    exact h.identified
  privileged := by
    rw [hv.nickIdentified, hv.rfTx, hv.oper, hv.nick]
    exact h.privileged
  met := h.met

/-- Nobody's standing changes. -/
theorem Standing.of_same (h : Standing s)
    (husers : ∀ uid v, t.user uid = some v → ∃ u, s.user uid = some u ∧ SameStanding u v)
    (hnicks : t.state.nicks = s.state.nicks) (haccounts : Extends s.accounts t.accounts)
    (hids : t.clientIds = s.clientIds) (hjobs : t.jobs ⊆ s.jobs) : Standing t where
  users uid v hv := by
    obtain ⟨u, hu, hsame⟩ := husers uid v hv
    have hsound : Sound t uid u := by
      apply (h.users uid u hu).mono
      · rw [hnicks]
        exact fun _ => id
      · exact fun _ _ => .inr haccounts
      · rw [hids]
        exact List.Subset.refl _
    exact hsound.same hsame
  jobs j hj := by
    obtain ⟨hid, hreg⟩ := h.jobs j (hjobs hj)
    refine ⟨hids ▸ hid, fun v hv => ?_⟩
    obtain ⟨u, hu, hsame⟩ := husers _ v hv
    exact hsame.registered.trans (hreg u hu)

theorem sound_modifyUser {uid j : UserId} {f : User → User} {v : User} :
    Sound (s.modifyUser uid f) j v ↔ Sound s j v := by
  have hnicks := State.nicks_modifyUser s.state uid f
  constructor
  all_goals
    intro h
    refine ⟨h.known, ?_, h.named, h.registered, h.identified, h.privileged, h.met⟩
    have := h.owned
    simp only [Server.modifyUser, hnicks] at this ⊢
    exact this

/-- One user changes, and is sound afterwards. -/
theorem standing_modifyUser {uid : UserId} {f : User → User}
    (hothers : ∀ j v, j ≠ uid → s.user j = some v → Sound s j v)
    (hjobs : ∀ j ∈ s.jobs, j.client ∈ s.clientIds ∧
      ∀ u, s.user (.ip j.client) = some u → u.registered = true)
    (hf : ∀ u, s.user uid = some u →
      Sound s uid (f u) ∧ (u.registered = true → (f u).registered = true)) :
    Standing (s.modifyUser uid f) where
  users j v hv := by
    have hv' := (State.user_modifyUser s.state uid f j).symm.trans hv
    rw [sound_modifyUser]
    split_ifs at hv' with hj
    · subst hj
      obtain ⟨u, hu, rfl⟩ := Option.map_eq_some_iff.mp hv'
      exact (hf u hu).1
    · exact hothers j v hj hv'
  jobs j hj := by
    obtain ⟨hid, hreg⟩ := hjobs j hj
    refine ⟨hid, fun v hv => ?_⟩
    have hv' := (State.user_modifyUser s.state uid f _).symm.trans hv
    split_ifs at hv' with hc
    · obtain ⟨u, hu, rfl⟩ := Option.map_eq_some_iff.mp hv'
      exact (hf u hu).2 (hreg u (hc ▸ hu))
    · exact hreg v hv'

theorem Standing.modifyUser (h : Standing s) {uid : UserId} {f : User → User}
    (hf : ∀ u, s.user uid = some u → Sound s uid u →
      Sound s uid (f u) ∧ (u.registered = true → (f u).registered = true)) :
    Standing (s.modifyUser uid f) :=
  standing_modifyUser (fun j v _ hv => h.users j v hv) h.jobs
    fun u hu => hf u hu (h.users uid u hu)

/-- Case folding leaves the placeholder alone, and makes it of nothing else. -/
theorem lower_star {n : Text} (h : lower n = lower ['*']) : n = ['*'] := by
  have hchar : ∀ c : Char, lower [c] = ['*'] → c = '*' := by
    intro c hc
    by_cases hspecial : c = '[' ∨ c = ']' ∨ c = '\\' ∨ c = '~'
    · rcases hspecial with rfl | rfl | rfl | rfl <;> revert hc <;> decide
    · have hfold : lower [c] = [toAsciiLower c] := by
        simp only [not_or] at hspecial
        simp [lower, hspecial]
      rw [hfold, toAsciiLower] at hc
      split_ifs at hc with hupper
      · simp only [isAsciiUpper, Bool.and_eq_true, decide_eq_true_eq, Char.le_def,
          UInt32.le_iff_toNat_le] at hupper
        have hletters : ∀ n ≤ 90, 65 ≤ n → Char.ofNat (n + 32) ≠ '*' := by decide
        exact absurd (List.singleton_inj.mp hc) (hletters c.toNat hupper.2 hupper.1)
      · exact List.singleton_inj.mp hc
  rcases n with - | ⟨c, - | ⟨d, n⟩⟩
  · exact absurd h (by simp [lower])
  · rw [hchar c h]
  · exact absurd (congrArg List.length h) (by simp [lower])

/-- A user takes another nick, which is nobody else's. -/
theorem Standing.setNick (h : Standing s) {uid : UserId} {u : User} {nick : Text} {st : State}
    (hu : s.user uid = some u) (hset : s.state.setNick uid nick = (true, st)) (hnick : nick ≠ ['*'])
    (hsame : lower u.nick = lower nick ∨ u.nickIdentified = false) :
    Standing { s with state := st } := by
  obtain ⟨husers, hnicks, -, hfree⟩ := State.setNick_true hu hset
  have hown := h.users uid u hu
  constructor
  · intro j v hv
    have hv' := (husers j).symm.trans hv
    split_ifs at hv' with hj
    · subst hj
      obtain rfl := Option.some.inj hv'
      refine ⟨hown.known, .inr ?_, fun _ => hnick, hown.registered, ?_, ?_, hown.met⟩
      · exact (hnicks (lower nick)).trans (if_pos rfl)
      · intro hip hi
        obtain ⟨hreg, hacc⟩ := hown.identified hip hi
        rcases hsame with hsame | hsame
        · refine ⟨hreg, ?_⟩
          simpa only [Store.isRegistered, Store.get, ← hsame] using hacc
        · exact absurd hi (by simp [hsame])
      · intro hip hr
        refine (hown.privileged hip hr).imp_right fun hgranted => ?_
        obtain ⟨hi, hg⟩ := hgranted
        refine ⟨hi, ?_⟩
        rcases hsame with hsame | hsame
        · simpa only [Store.grantsRfTx, Store.get, ← hsame] using hg
        · exact absurd hi (by simp [hsame])
    · apply (h.users j v hv').mono
      · intro hstar hmine
        rw [hnicks]
        have hother : lower v.nick ≠ lower nick := by
          intro heq
          exact hj (hfree j (heq ▸ hmine))
        have hold : lower v.nick = lower u.nick → v.nick = ['*'] := by
          intro heq
          rcases hown.owned with hstar | howned
          · exact lower_star (hstar ▸ heq)
          · exact absurd (Option.some.inj ((heq ▸ hmine).symm.trans howned)) hj
        rw [if_neg hother, if_neg fun heq => hstar (hold heq)]
        exact hmine
      · exact fun _ _ => .inl rfl
      · exact List.Subset.refl _
  · intro j hj
    obtain ⟨hid, hreg⟩ := h.jobs j hj
    refine ⟨hid, fun v hv => ?_⟩
    have hv' := (husers _).symm.trans hv
    split_ifs at hv' with hc
    · obtain rfl := Option.some.inj hv'
      exact hreg u (hc ▸ hu)
    · exact hreg v hv'

theorem Standing.recompute (h : Standing s) (uid : UserId) : Standing (recompute s uid) := by
  rcases recompute_cases s uid with ⟨-, hsame⟩ | ⟨u, c, hu, heq⟩
  · rw [hsame]
    exact h
  · rw [heq]
    apply h.modifyUser
    intro v hv hsound
    obtain rfl := Option.some.inj (hv.symm.trans hu)
    refine ⟨?_, id⟩
    refine ⟨hsound.known, hsound.owned, hsound.named, hsound.registered, hsound.identified, ?_,
      hsound.met⟩
    intro _ hr
    simpa [Bool.and_eq_true] using hr

/-- Whoever is identified to a nick goes by it, and nobody else does. -/
theorem Standing.owner_unique (h : Standing s) {uid j : UserId} {u v : User} {nick : Text}
    (hip : uid.isRf = false) (hu : s.user uid = some u) (hi : u.nickIdentified = true)
    (hnick : lower u.nick = lower nick) (hv : s.user j = some v) (hv' : lower v.nick = lower nick) :
    j = uid := by
  have hsound := h.users uid u hu
  have hstar : u.nick ≠ ['*'] :=
    hsound.named (hsound.registered hip (hsound.identified hip hi).1)
  have hmine := hsound.owned.resolve_left hstar
  rcases (h.users j v hv).owned with hother | hother
  · exact absurd (lower_star (by rw [hnick, ← hv', hother])) hstar
  · rw [hv', ← hnick] at hother
    exact Option.some.inj (hother.symm.trans hmine)

theorem Standing.byNick_of_identified (h : Standing s) {uid : UserId} {u : User} {nick : Text}
    (hip : uid.isRf = false) (hu : s.user uid = some u) (hi : u.nickIdentified = true)
    (hnick : lower u.nick = lower nick) : s.state.byNick nick = some u := by
  have hsound := h.users uid u hu
  have hstar : u.nick ≠ ['*'] :=
    hsound.named (hsound.registered hip (hsound.identified hip hi).1)
  have hmine := hsound.owned.resolve_left hstar
  rw [State.byNick, ← hnick, hmine]
  exact hu

/-- Accounts change, but not those that somebody is identified to. -/
theorem Standing.withAccounts (h : Standing s) {a : Store}
    (hkeep : ∀ uid u, uid.isRf = false → s.user uid = some u → u.nickIdentified = true →
      s.accounts.get u.nick = a.get u.nick) :
    Standing { s with accounts := a } where
  users uid u hu := by
    refine (h.users uid u hu).mono (fun _ => id) (fun hip hi => .inl (hkeep uid u hip hu hi)) ?_
    exact List.Subset.refl _
  jobs := h.jobs

theorem Standing.drop (h : Standing s) {nick : Text} {a : Store}
    (ha : s.accounts.dropNick nick = .ok a)
    (hfree : (∀ u, s.state.byNick nick = some u → u.nickIdentified = false) ∨
      (∃ uid u, s.user uid = some u ∧ lower u.nick = lower nick ∧ u.nickIdentified = false)) :
    Standing { s with accounts := a } := by
  apply h.withAccounts
  intro uid u hip hu hi
  have hother : lower u.nick ≠ lower nick := by
    intro heq
    rcases hfree with hfree | ⟨j, v, hv, hvn, hvi⟩
    · exact absurd hi (by simp [hfree u (h.byNick_of_identified hip hu hi heq)])
    · obtain rfl := h.owner_unique hip hu hi heq hv hvn
      rw [hu] at hv
      exact absurd hi (by simp [Option.some.inj hv, hvi])
  unfold Store.dropNick at ha
  split_ifs at ha
  obtain rfl := Except.ok.inj ha
  simp [Store.get, Table.get_erase, hother]

theorem setRfTx_get {a b : Store} {nick : Text} {rfTx : Bool} (h : a.setRfTx nick rfTx = .ok b)
    (n : Text) : b.get n =
      if lower n = lower nick then (a.get n).map fun x => { x with rfTx := rfTx } else a.get n := by
  unfold Store.setRfTx Store.modify at h
  cases hx : a.get nick with
  | none => simp [hx] at h
  | some x =>
    simp only [hx] at h
    obtain rfl := Except.ok.inj h
    simp only [Store.get, Table.get_set]
    split_ifs with hn
    · have hx' : a.nicks.get (lower nick) = some x := hx
      rw [hn, hx']
      rfl
    · rfl

theorem Standing.withGrant (h : Standing s) {nick : Text} {rfTx : Bool} {a : Store}
    (ha : s.accounts.setRfTx nick rfTx = .ok a) : Standing (withGrant s a nick) := by
  have hget := setRfTx_get ha
  have hsame : ∀ n, lower n ≠ lower nick → s.accounts.get n = a.get n := fun n hn => by
    rw [hget, if_neg hn]
  unfold ServerSteps.withGrant AirScreen.findTarget
  cases hby : s.state.byNick nick with
  | none =>
    apply h.withAccounts
    intro uid u hip hu hi
    apply hsame
    intro heq
    exact absurd ((h.byNick_of_identified hip hu hi heq).symm.trans hby) (by simp)
  | some w =>
    -- only the user who is online under the nick can be identified to it
    have honly : ∀ uid u, uid.isRf = false → s.user uid = some u → u.nickIdentified = true →
        lower u.nick = lower nick → w.id = uid := by
      intro uid u hip hu hi heq
      have hw := (h.byNick_of_identified hip hu hi heq).symm.trans hby
      rw [← Option.some.inj hw]
      exact (h.users uid u hu).known
    have hothers : ∀ uid u, uid ≠ w.id → s.user uid = some u →
        Sound { s with accounts := a } uid u := by
      intro uid u hne hu
      refine (h.users uid u hu).mono (fun _ => id) (fun hip hi => .inl (hsame _ fun heq => ?_)) ?_
      · exact hne (honly uid u hip hu hi heq).symm
      · exact List.Subset.refl _
    simp only [Option.map_some]
    rcases recompute_cases { s with accounts := a } w.id with ⟨hrf, heq⟩ | ⟨u, c, hu, heq⟩
    · rw [heq]
      refine ⟨fun uid u hu => ?_, h.jobs⟩
      by_cases hid : uid = w.id
      · have hknown := (h.users uid u hu).known
        have hisRf : uid.isRf = true := by
          rw [← hknown]
          exact hrf u (hid ▸ hu)
        refine (h.users uid u hu).mono (fun _ => id) (fun hip => ?_) (List.Subset.refl _)
        exact absurd hisRf (by simp [hip])
      · exact hothers uid u hid hu
    · rw [heq]
      apply standing_modifyUser (fun j v hj hv => hothers j v hj hv) h.jobs
      intro v hv
      have hsound := h.users w.id v hv
      obtain rfl := Option.some.inj (hv.symm.trans hu)
      refine ⟨⟨hsound.known, hsound.owned, hsound.named, hsound.registered, ?_, ?_, hsound.met⟩, id⟩
      · intro hip hi
        obtain ⟨hreg, hacc⟩ := hsound.identified hip hi
        refine ⟨hreg, ?_⟩
        rw [Store.isRegistered, hget]
        split_ifs
        · simpa [Store.isRegistered] using hacc
        · exact hacc
      · intro _ hr
        simpa [Bool.and_eq_true] using hr

theorem Standing.insertUser (h : Standing s) {u : User} (hu : Blank u)
    (hreg : u.id.isRf = false → u.registered = false)
    (hids : ∀ id, u.id = .ip id → id ∈ s.clientIds)
    (hjobs : ∀ j ∈ s.jobs, u.id ≠ .ip j.client) :
    Standing { s with state := s.state.insertUser u } where
  users j v hv := by
    have hv' := (State.user_insertUser s.state u j).symm.trans hv
    split_ifs at hv' with hj
    · obtain rfl := Option.some.inj hv'
      subst hj
      refine ⟨rfl, .inl hu.nick, ?_, ?_, ?_, ?_, hids⟩
      · exact fun hg => absurd hg (by simp [hu.gotNick])
      · exact fun hip hr => absurd hr (by simp [hreg hip])
      · exact fun _ hi => absurd hi (by simp [hu.nickIdentified])
      · exact fun _ hr => absurd hr (by simp [hu.rfTx])
    · refine (h.users j v hv').mono (fun _ => id) (fun _ _ => .inl rfl) ?_
      exact List.Subset.refl _
  jobs j hj := by
    obtain ⟨hid, hregistered⟩ := h.jobs j hj
    refine ⟨hid, fun v hv => ?_⟩
    have hv' := (State.user_insertUser s.state u _).symm.trans hv
    split_ifs at hv' with hc
    · exact absurd hc.symm (hjobs j hj)
    · exact hregistered v hv'

theorem Standing.meet (h : Standing s) (id : ℕ) : Standing { s with clientIds := id :: s.clientIds } where
  users j v hv := (h.users j v hv).mono (fun _ => fun hn => hn) (fun _ _ => .inl rfl)
    (List.subset_cons_self _ _)
  jobs j hj := (h.jobs j hj).imp_left (List.mem_cons_of_mem _)

theorem Standing.removeUser (h : Standing s) (uid : UserId) :
    Standing { s with state := s.state.removeUser uid } where
  users j v hv := by
    have hv' := (State.user_removeUser s.state uid j).symm.trans hv
    split_ifs at hv' with hj
    apply (h.users j v hv').mono
    · intro hstar hmine
      rw [State.nicks_removeUser, if_neg]
      · exact hmine
      · intro hany
        obtain ⟨u, hu, heq⟩ := Option.any_eq_true .. |>.mp hany
        have hfold : lower v.nick = lower u.nick := by simpa using heq
        rcases (h.users uid u hu).owned with hustar | hown
        · exact hstar (lower_star (hustar ▸ hfold))
        · rw [← hfold] at hown
          exact hj (Option.some.inj (hmine.symm.trans hown))
    · exact fun _ _ => .inl rfl
    · exact List.Subset.refl _
  jobs j hj := by
    obtain ⟨hid, hreg⟩ := h.jobs j hj
    refine ⟨hid, fun v hv => ?_⟩
    have hv' := (State.user_removeUser s.state uid _).symm.trans hv
    split_ifs at hv'
    exact hreg v hv'

theorem Standing.start (h : Standing s) {j : Job} {u : User} (hu : s.user (.ip j.client) = some u)
    (hreg : u.registered = true) : Standing { s with jobs := s.jobs ++ [j] } where
  users k v hv := (h.users k v hv).mono (fun _ => fun hn => hn) (fun _ _ => .inl rfl)
    (List.Subset.refl _)
  jobs i hi := by
    rcases List.mem_append.mp hi with hi | hi
    · exact h.jobs i hi
    · obtain rfl := List.mem_singleton.mp hi
      refine ⟨(h.users _ u hu).met _ rfl, fun v hv => ?_⟩
      exact Option.some.inj (hu.symm.trans hv) ▸ hreg

/-- Nobody's standing, nick or account changes. -/
theorem Standing.of_users (h : Standing s) {st : State} (husers : st.users = s.state.users)
    (hnicks : st.nicks = s.state.nicks) : Standing { s with state := st } := by
  refine h.of_same (fun uid v hv => ⟨v, ?_, .refl v⟩) hnicks (.refl _) rfl (List.Subset.refl _)
  have hsame : st.user uid = s.state.user uid := by rw [State.user, husers, State.user]
  exact hsame.symm.trans hv

theorem step_standing (hstep : Step L s t) (h : Standing s) : Standing t := by
  cases hstep with
  | outlet => exact h.of_same (fun uid v hv => ⟨v, hv, .refl v⟩) rfl (.refl _) rfl (List.Subset.refl _)
  | touch hf =>
    apply h.modifyUser
    intro u _ hsound
    refine ⟨hsound.same (hf u), ?_⟩
    rw [(hf u).registered]
    exact id
  | register hf =>
    apply h.modifyUser
    intro u hu hsound
    refine ⟨⟨hsound.known, hsound.owned, hsound.named, fun _ _ => hf u hu, fun hip hi => ?_,
      hsound.privileged, hsound.met⟩, fun _ => rfl⟩
    exact ⟨rfl, (hsound.identified hip hi).2⟩
  | oper =>
    apply h.modifyUser
    intro u hu hsound
    exact ⟨⟨hsound.known, hsound.owned, hsound.named, hsound.registered, hsound.identified,
      fun _ _ => .inl rfl, hsound.met⟩, id⟩
  | recompute => exact h.recompute _
  | yields _ hf =>
    apply h.modifyUser
    intro u hu hsound
    have hy := hf u
    refine ⟨⟨hy.id.trans hsound.known, hy.nick ▸ hsound.owned, ?_, ?_, ?_, ?_, hsound.met⟩, ?_⟩
    · rw [hy.nick, hy.gotNick]
      exact hsound.named
    · rw [hy.registered, hy.gotNick]
      exact hsound.registered
    · exact fun _ hi => absurd hi (by simp [hy.nickIdentified])
    · intro hip hr
      left
      rw [hy.oper]
      rcases hy.rfTx with hoper | ⟨hunreg, hsame⟩
      · rw [← hoper]
        exact hr
      · rcases hsound.privileged hip (hsame ▸ hr) with hoper | ⟨hi, -⟩
        · exact hoper
        · exact absurd (hsound.identified hip hi).1 (by simp [hunreg])
    · rw [hy.registered]
      exact id
  | identify hu hreg hacc _ =>
    apply h.modifyUser
    intro v hv hsound
    obtain rfl := Option.some.inj (hu.symm.trans hv)
    refine ⟨⟨hsound.known, hsound.owned, hsound.named, hsound.registered,
      fun _ _ => ⟨hreg, hacc⟩, fun hip hr => ?_, hsound.met⟩, id⟩
    exact (hsound.privileged hip hr).imp_right fun ⟨_, hg⟩ => ⟨rfl, hg⟩
  | @recase uid u nick hu hsame hnick =>
    cases hset : s.state.setNick uid nick with
    | mk ok st =>
      cases ok with
      | true => exact h.setNick hu hset hnick (.inl hsame)
      | false =>
        rw [State.setNick_false hset]
        exact h
  | rename hu hi hnick hset => exact h.setNick hu hset hnick (.inr hi)
  | named hf =>
    apply h.modifyUser
    intro u hu hsound
    exact ⟨⟨hsound.known, hsound.owned, fun _ => hf u hu, fun _ _ => rfl, hsound.identified,
      hsound.privileged, hsound.met⟩, id⟩
  | refuse => exact h.meet _
  | @connect id u hnew hid hblank hreg =>
    apply (h.meet id).insertUser hblank fun _ => hreg
    · intro j hj
      rw [hid] at hj
      exact UserId.ip.inj hj ▸ List.mem_cons_self
    · intro j hj heq
      exact hnew (UserId.ip.inj (hid.symm.trans heq) ▸ (h.jobs j hj).1)
  | station _ hid hblank _ =>
    apply h.insertUser hblank
    · intro hip
      rw [hid] at hip
      exact absurd hip (by simp [UserId.isRf])
    · intro id heq
      exact absurd (hid.symm.trans heq) (by simp)
    · intro j _ heq
      exact absurd (hid.symm.trans heq) (by simp)
  | remove => exact h.removeUser _
  | forget => exact h.of_same (fun uid v hv => ⟨v, hv, .refl v⟩) rfl (.refl _) rfl (List.Subset.refl _)
  | channel => exact h.of_users (State.users_modifyChannel ..) (State.nicks_modifyChannel ..)
  | ensure => exact h.of_users (State.users_ensureChannel ..) (State.nicks_ensureChannel ..)
  | join hjoin _ =>
    obtain ⟨⟨flags, st⟩, hst, heq⟩ := Option.map_eq_some_iff.mp hjoin
    obtain ⟨-, rfl⟩ := Prod.mk.inj heq
    obtain ⟨hnicks, u, hu, husers⟩ := State.join_users hst
    refine h.of_same (fun j v hv => ?_) hnicks (.refl _) rfl (List.Subset.refl _)
    have hv' := (husers j).symm.trans hv
    split_ifs at hv' with hj
    · exact ⟨u, hj ▸ hu, Option.some.inj hv' ▸ ⟨rfl, rfl, rfl, rfl, rfl, rfl, rfl⟩⟩
    · exact ⟨v, hv', .refl v⟩
  | @part uid channel =>
    obtain ⟨hnicks, husers⟩ := State.part_users s.state uid channel
    refine h.of_same (fun j v hv => ?_) hnicks (.refl _) rfl (List.Subset.refl _)
    rcases husers with husers | husers
    · exact ⟨v, (congrFun husers j).symm.trans hv, .refl v⟩
    · have hv' := (congrFun husers j).symm.trans hv
      rw [State.user_modifyUser] at hv'
      split_ifs at hv' with hj
      · obtain ⟨u, hu, rfl⟩ := Option.map_eq_some_iff.mp hv'
        exact ⟨u, hj ▸ hu, ⟨rfl, rfl, rfl, rfl, rfl, rfl, rfl⟩⟩
      · exact ⟨v, hv', .refl v⟩
  | @flags uid channel =>
    obtain ⟨husers, hnicks⟩ := State.applyIntendedFlags_users s.state uid channel
    exact h.of_users husers hnicks
  | relayed => exact h.of_same (fun uid v hv => ⟨v, hv, .refl v⟩) rfl (.refl _) rfl (List.Subset.refl _)
  | accounts hext => exact h.of_same (fun uid v hv => ⟨v, hv, .refl v⟩) rfl hext rfl (List.Subset.refl _)
  | grant ha => exact h.withGrant ha
  | drop ha _ hfree => exact h.drop ha hfree
  | start hu hreg => exact h.start hu hreg
  | done =>
    exact h.of_same (fun uid v hv => ⟨v, hv, .refl v⟩) rfl (.refl _) rfl (List.erase_subset)
  | settings => exact h.of_same (fun uid v hv => ⟨v, hv, .refl v⟩) rfl (.refl _) rfl (List.Subset.refl _)

theorem steps_standing (hsteps : Steps L s t) (h : Standing s) : Standing t := by
  induction hsteps with
  | refl => exact h
  | tail _ hstep ih => exact step_standing hstep ih

/-! ### Owners of nicks -/

/-- Whoever is the owner of a nick was its owner before. -/
def SameOwners (s t : Server) : Prop :=
  ∀ uid v, t.user uid = some v → v.nickIdentified = true →
    ∃ u, s.user uid = some u ∧ u.nickIdentified = true ∧ lower u.nick = lower v.nick

theorem SameOwners.of_same
    (husers : ∀ uid v, t.user uid = some v → ∃ u, s.user uid = some u ∧ SameStanding u v) :
    SameOwners s t := by
  intro uid v hv hi
  obtain ⟨u, hu, hsame⟩ := husers uid v hv
  exact ⟨u, hu, hsame.nickIdentified.symm.trans hi, by rw [hsame.nick]⟩

theorem SameOwners.modifyUser {uid : UserId} {f : User → User}
    (hf : ∀ u, s.user uid = some u → (f u).nickIdentified = true →
      u.nickIdentified = true ∧ (f u).nick = u.nick) : SameOwners s (s.modifyUser uid f) := by
  intro j v hv hi
  have hv' := (State.user_modifyUser s.state uid f j).symm.trans hv
  split_ifs at hv' with hj
  · obtain ⟨u, hu, rfl⟩ := Option.map_eq_some_iff.mp hv'
    obtain ⟨hold, hnick⟩ := hf u hu hi
    exact ⟨u, hj ▸ hu, hold, by rw [hnick]⟩
  · exact ⟨v, hv', hi, rfl⟩

theorem SameOwners.recompute (s : Server) (uid : UserId) : SameOwners s (recompute s uid) := by
  rcases recompute_cases s uid with ⟨-, heq⟩ | ⟨u, c, -, heq⟩
  · rw [heq]
    exact .of_same fun uid v hv => ⟨v, hv, .refl v⟩
  · rw [heq]
    exact .modifyUser fun u _ hi => ⟨hi, rfl⟩

theorem SameOwners.setNick {uid : UserId} {u : User} {nick : Text} {st : State}
    (hu : s.user uid = some u) (hset : s.state.setNick uid nick = (true, st))
    (hsame : lower u.nick = lower nick ∨ u.nickIdentified = false) :
    SameOwners s { s with state := st } := by
  obtain ⟨husers, -⟩ := State.setNick_true hu hset
  intro j v hv hi
  have hv' := (husers j).symm.trans hv
  split_ifs at hv' with hj
  · obtain rfl := Option.some.inj hv'
    rcases hsame with hsame | hsame
    · exact ⟨u, hj ▸ hu, hi, hsame⟩
    · exact absurd hi (by simp [hsame])
  · exact ⟨v, hv', hi, rfl⟩

theorem SameOwners.insertUser {u : User} (hu : Blank u) :
    SameOwners s { s with state := s.state.insertUser u } := by
  intro j v hv hi
  have hv' := (State.user_insertUser s.state u j).symm.trans hv
  split_ifs at hv' with hj
  · obtain rfl := Option.some.inj hv'
    exact absurd hi (by simp [hu.nickIdentified])
  · exact ⟨v, hv', hi, rfl⟩

/-- Only a step of the licence makes somebody the owner of a nick. -/
theorem step_owners (hstep : Step L s t) :
    SameOwners s t ∨ ∃ uid u, s.user uid = some u ∧ L.owner uid u.nick ∧
      t = s.modifyUser uid Server.identified := by
  have hsame : ∀ {t : Server}, t.state.users = s.state.users → SameOwners s t := by
    intro t husers
    refine .of_same fun uid v hv => ⟨v, ?_, .refl v⟩
    have hboth : t.state.user uid = s.state.user uid := by rw [State.user, husers, State.user]
    exact hboth.symm.trans hv
  cases hstep with
  | touch hf => exact .inl (.modifyUser fun u _ hi => ⟨(hf u).nickIdentified ▸ hi, (hf u).nick⟩)
  | register _ | oper | named _ => exact .inl (.modifyUser fun u _ hi => ⟨hi, rfl⟩)
  | recompute => exact .inl (.recompute s _)
  | yields _ hf =>
    refine .inl (.modifyUser fun u _ hi => ?_)
    exact absurd hi (by simp [(hf u).nickIdentified])
  | identify hu _ _ hown => exact .inr ⟨_, _, hu, hown, rfl⟩
  | @recase uid u nick hu heq _ =>
    left
    cases hset : s.state.setNick uid nick with
    | mk ok st =>
      cases ok with
      | true => exact .setNick hu hset (.inl heq)
      | false =>
        rw [State.setNick_false hset]
        exact hsame rfl
  | rename hu hi _ hset => exact .inl (.setNick hu hset (.inr hi))
  | connect _ _ hblank _ => exact .inl (.insertUser hblank)
  | station _ _ hblank _ => exact .inl (.insertUser hblank)
  | @remove uid =>
    refine .inl (.of_same fun j v hv => ⟨v, ?_, .refl v⟩)
    have hv' := (State.user_removeUser s.state uid j).symm.trans hv
    split_ifs at hv'
    exact hv'
  | forget _ => exact .inl (hsame rfl)
  | channel _ _ => exact .inl (hsame (State.users_modifyChannel ..))
  | ensure => exact .inl (hsame (State.users_ensureChannel ..))
  | join hjoin _ =>
    obtain ⟨⟨flags, st⟩, hst, heq⟩ := Option.map_eq_some_iff.mp hjoin
    obtain ⟨-, rfl⟩ := Prod.mk.inj heq
    obtain ⟨-, u, hu, husers⟩ := State.join_users hst
    refine .inl (.of_same fun j v hv => ?_)
    have hv' := (husers j).symm.trans hv
    split_ifs at hv' with hj
    · exact ⟨u, hj ▸ hu, Option.some.inj hv' ▸ ⟨rfl, rfl, rfl, rfl, rfl, rfl, rfl⟩⟩
    · exact ⟨v, hv', .refl v⟩
  | @part uid channel =>
    obtain ⟨-, husers⟩ := State.part_users s.state uid channel
    refine .inl (.of_same fun j v hv => ?_)
    rcases husers with husers | husers
    · exact ⟨v, (congrFun husers j).symm.trans hv, .refl v⟩
    · have hv' := (congrFun husers j).symm.trans hv
      rw [State.user_modifyUser] at hv'
      split_ifs at hv' with hj
      · obtain ⟨u, hu, rfl⟩ := Option.map_eq_some_iff.mp hv'
        exact ⟨u, hj ▸ hu, ⟨rfl, rfl, rfl, rfl, rfl, rfl, rfl⟩⟩
      · exact ⟨v, hv', .refl v⟩
  | flags => exact .inl (hsame (State.applyIntendedFlags_users ..).1)
  | @grant nick rfTx a ha =>
    left
    unfold withGrant
    split
    · exact hsame rfl
    · exact SameOwners.recompute { s with accounts := a } _
  | outlet | refuse | relayed | accounts | drop | start | done | settings => exact .inl (hsame rfl)

/-- Whoever becomes the owner of a nick in a run of steps has the licence for it. -/
theorem steps_owner (hsteps : Steps L s t) {uid : UserId} {v : User} (hv : t.user uid = some v)
    (hi : v.nickIdentified = true) :
    (∃ u, s.user uid = some u ∧ u.nickIdentified = true ∧ lower u.nick = lower v.nick) ∨
      ∃ nick, L.owner uid nick ∧ lower nick = lower v.nick := by
  induction hsteps generalizing v with
  | refl => exact .inl ⟨v, hv, hi, rfl⟩
  | tail _ hstep ih =>
    rcases step_owners hstep with hsame | ⟨j, w, hw, hown, rfl⟩
    · obtain ⟨u, hu, hui, hnick⟩ := hsame uid v hv hi
      rw [← hnick]
      exact ih hu hui
    · have hv' := (State.user_modifyUser _ j Server.identified uid).symm.trans hv
      split_ifs at hv' with hj
      · obtain ⟨u, hu, rfl⟩ := Option.map_eq_some_iff.mp hv'
        obtain rfl := Option.some.inj (hw.symm.trans hu)
        exact .inr ⟨w.nick, hj ▸ hown, rfl⟩
      · exact ih hv' hi

end ServerSteps
