import Rfircd.StateConsistency

/-! What a step of the server does to one station: to its place on the rolls, its buffers and the
mail that waits for it. -/
namespace StationRecords

open Basics Airc AircSession KeyedTable MessageText IrcState HeldMail RadioSessions ServerOutput ServerCore
open ServerSteps ServerInvariants ServerRuns StateConsistency TransitionSystem

variable {L : Licence} {s t : Server} {call : Callsign}

/-! ### Rolls -/

theorem linked_modifyUser (h : Linked s.state) {uid : UserId} {f : User → User}
    (hf : ∀ u, s.user uid = some u → (f u).nick = u.nick ∧ (f u).channels = u.channels) :
    Linked (s.modifyUser uid f).state := by
  have hsame : SameRolls s.state (s.modifyUser uid f).state := by
    refine ⟨State.nicks_modifyUser .., fun j => ?_, fun k j => ?_⟩
    · have huser := State.user_modifyUser s.state uid f j
      rw [Server.modifyUser, huser]
      split_ifs with hj
      · subst hj
        cases hu : s.state.user j with
        | none => rfl
        | some u => simp [hf u hu]
      · rfl
    · have hchannels := State.channels_modifyUser s.state uid f
      rw [Holds, Server.modifyUser, hchannels, Holds]
  exact hsame.linked h

theorem linked_recompute (h : Linked s.state) (uid : UserId) : Linked (recompute s uid).state := by
  rcases recompute_cases s uid with ⟨-, hsame⟩ | ⟨u, c, -, heq⟩
  · rwa [hsame]
  · rw [heq]
    exact linked_modifyUser h fun _ _ => ⟨rfl, rfl⟩

/-- An edit that leaves the members. -/
theorem modifyChannel_holds {name : Text} {f : Channel → Channel}
    (hf : ∀ c, s.state.channel name = some c → ∀ uid, (f c).isMember uid = c.isMember uid)
    (k : Text) (j : UserId) : Holds (s.modifyChannel name f).state k j ↔ Holds s.state k j := by
  rw [Holds, Server.modifyChannel, State.channel_modifyChannel, Holds]
  split_ifs with hk
  · rw [hk, ← State.channel]
    cases hc : s.state.channel name with
    | none => simp
    | some c => simp [hf c hc j]
  · rfl

theorem step_linked (hstep : Step L s t) (hs : Standing s) (h : Linked s.state) : Linked t.state := by
  cases hstep with
  | outlet _ => exact h
  | touch hf hchannels => exact linked_modifyUser h fun u _ => ⟨(hf u).nick, hchannels u⟩
  | register _ => exact linked_modifyUser h fun _ _ => ⟨rfl, rfl⟩
  | oper => exact linked_modifyUser h fun _ _ => ⟨rfl, rfl⟩
  | recompute => exact linked_recompute h _
  | yields _ hf => exact linked_modifyUser h fun u _ => ⟨(hf u).nick, (hf u).channels⟩
  | identify _ _ _ _ => exact linked_modifyUser h fun _ _ => ⟨rfl, rfl⟩
  | recase _ _ hnick => exact h.setNick _ hnick
  | @rename uid _ nick _ _ _ hnick hset =>
    have hlinked := h.setNick uid hnick
    rw [hset] at hlinked
    exact hlinked
  | named _ => exact linked_modifyUser h fun _ _ => ⟨rfl, rfl⟩
  | refuse => exact h
  | @connect id u hnew hid hblank _ =>
    refine h.insertUser ?_ hblank.nick hblank.channels
    cases hu : s.state.user u.id with
    | none => rfl
    | some v => exact absurd ((hs.users _ v hu).met id hid) hnew
  | station hnone hid hblank _ => exact h.insertUser (hid ▸ hnone) hblank.nick hblank.channels
  | remove => exact h.removeUser _
  | @channel name f _ _ hmembers =>
    have hsame : SameRolls s.state (s.modifyChannel name f).state := by
      refine ⟨State.nicks_modifyChannel .., fun j => ?_, fun k j => modifyChannel_holds hmembers k j⟩
      rw [State.user, Server.modifyChannel, State.users_modifyChannel]
      rfl
    exact hsame.linked h
  | ensure => exact h.ensureChannel _ _
  | join hjoin _ =>
    obtain ⟨⟨flags, st⟩, hst, heq⟩ := Option.map_eq_some_iff.mp hjoin
    obtain ⟨-, rfl⟩ := Prod.mk.inj heq
    exact h.join hst
  | part => exact h.part _ _
  | flags => exact h.applyIntendedFlags _ _
  | @grant nick rfTx a _ =>
    have haccounts : Linked (Server.state { s with accounts := a }) := h
    unfold withGrant
    split
    · exact h
    · exact linked_recompute haccounts _
  | _ => exact h

theorem steps_linked (hsteps : Steps L s t) (hs : Standing s) (h : Linked s.state) :
    Linked t.state := by
  induction hsteps with
  | refl => exact h
  | tail hbefore hstep ih => exact step_linked hstep (steps_standing hbefore hs) ih

/-! ### Members -/

/-- Whoever is a member afterwards was one before, or has come in under the licence. -/
theorem step_member (hstep : Step L s t) (hl : Linked s.state) {key : Text} {uid : UserId}
    (h : Holds t.state key uid) :
    Holds s.state key uid ∨ ∃ r, L.joined r ∧ r.user = uid ∧ lower r.channel = key := by
  have hsame : t.state.channels = s.state.channels → Holds s.state key uid :=
    fun heq => by rwa [Holds, ← heq]
  cases hstep with
  | touch _ _ | register _ | oper | yields _ | identify _ _ _ _ | named _ =>
    exact .inl (hsame (State.channels_modifyUser ..))
  | recompute => exact .inl (hsame (recompute_same s _).2)
  | grant _ => exact .inl (hsame (withGrant_same s _ _).2)
  | recase _ _ _ => exact .inl (hsame (channels_setNick ..))
  | @rename id _ nick _ _ _ _ hset =>
    have hchannels := channels_setNick s.state id nick
    rw [hset] at hchannels
    exact .inl (hsame hchannels)
  | remove => exact .inl (((removeUser_leaves hl _).holds key uid).mp h).1
  | channel _ _ hmembers => exact .inl ((modifyChannel_holds hmembers key uid).mp h)
  | ensure => exact .inl ((ensureChannel_holds ..).mp h)
  | join hjoin hr =>
    obtain ⟨⟨flags, st⟩, hst, heq⟩ := Option.map_eq_some_iff.mp hjoin
    obtain ⟨-, rfl⟩ := Prod.mk.inj heq
    rcases (join_holds hst key uid).mp h with hbefore | ⟨rfl, rfl⟩
    · exact .inl hbefore
    · exact .inr ⟨_, hr, rfl, rfl⟩
  | part => exact .inl (((part_leaves ..).holds key uid).mp h).1
  | flags => exact .inl ((holds_congr (applyIntendedFlags_members ..) uid).mp h)
  | _ => exact .inl (hsame rfl)

theorem steps_member (hsteps : Steps L s t) (hs : Standing s) (hl : Linked s.state) {key : Text}
    {uid : UserId} (hout : ∀ r, L.joined r → r.user = uid → lower r.channel ≠ key)
    (h : ¬ Holds s.state key uid) : ¬ Holds t.state key uid := by
  induction hsteps with
  | refl => exact h
  | tail hbefore hstep ih =>
    intro hmember
    rcases step_member hstep (steps_linked hbefore hs hl) hmember with hin | ⟨r, hr, huid, hkey⟩
    · exact ih hin
    · exact hout r hr huid hkey

/-- What is relayed is added to the record, under the licence. -/
theorem steps_relayed (hsteps : Steps L s t) :
    ∃ new, t.relayed = s.relayed ++ new ∧ ∀ r ∈ new, L.relayed r := by
  have hrecompute : ∀ (s : Server) uid, (recompute s uid).relayed = s.relayed := by
    intro s uid
    rcases recompute_cases s uid with ⟨-, heq⟩ | ⟨u, c, -, heq⟩
    · rw [heq]
    · rw [heq]
      rfl
  have hone : ∀ {s t : Server}, Step L s t →
      t.relayed = s.relayed ∨ ∃ r, L.relayed r ∧ t.relayed = s.relayed ++ [r] := by
    intro s t hstep
    cases hstep with
    | recompute => exact .inl (hrecompute s _)
    | @grant nick rfTx a _ =>
      unfold withGrant
      split
      · exact .inl rfl
      · exact .inl (hrecompute { s with accounts := a } _)
    | join hjoin _ =>
      obtain ⟨⟨flags, st⟩, -, heq⟩ := Option.map_eq_some_iff.mp hjoin
      obtain ⟨-, rfl⟩ := Prod.mk.inj heq
      exact .inl rfl
    | relayed hr => exact .inr ⟨_, hr, rfl⟩
    | _ => exact .inl rfl
  induction hsteps with
  | refl => exact ⟨[], (List.append_nil _).symm, fun _ h => absurd h List.not_mem_nil⟩
  | tail _ hstep ih =>
    obtain ⟨new, hnew, hlicensed⟩ := ih
    rcases hone hstep with heq | ⟨r, hr, heq⟩
    · exact ⟨new, heq.trans hnew, hlicensed⟩
    · refine ⟨new ++ [r], by rw [heq, hnew, List.append_assoc], fun x hx => ?_⟩
      rcases List.mem_append.mp hx with hx | hx
      · exact hlicensed x hx
      · exact List.mem_singleton.mp hx ▸ hr

/-! ### The station as a user -/

theorem user_modifyUser_none {uid j : UserId} {f : User → User} (h : s.user j = none) :
    (s.modifyUser uid f).user j = none := by
  have huser := State.user_modifyUser s.state uid f j
  rw [Server.user, Server.modifyUser, huser]
  split_ifs with hj
  · rw [← hj, show s.state.user j = none from h]
    rfl
  · exact h

theorem user_recompute_none {j : UserId} (h : s.user j = none) (uid : UserId) :
    (recompute s uid).user j = none := by
  rcases recompute_cases s uid with ⟨-, hsame⟩ | ⟨u, c, -, heq⟩
  · rwa [hsame]
  · rw [heq]
    exact user_modifyUser_none h

theorem user_setNick_none {st st' : State} {uid j : UserId} {nick : Text} {ok : Bool} {u : User}
    (hu : st.user uid = some u) (hset : st.setNick uid nick = (ok, st')) (h : st.user j = none) :
    st'.user j = none := by
  cases ok with
  | false => rwa [State.setNick_false hset]
  | true =>
    rw [(State.setNick_true hu hset).1 j]
    split_ifs with hj
    · subst hj
      exact absurd (hu.symm.trans h) (by simp)
    · exact h

/-- Only a station that may come in, and has a record, becomes a user. -/
theorem step_arrival (hstep : Step L s t) (h : s.user (.rf call) = none) :
    t.user (.rf call) = none ∨
      L.station call ∧ (s.outlet.peer call).isSome = true ∧ t.outlet = s.outlet := by
  cases hstep with
  | @station other u _ hid _ hother hthere =>
    by_cases heq : call = other
    · subst heq
      exact .inr ⟨hother, hthere, rfl⟩
    · refine .inl ((State.user_insertUser s.state u _).trans ?_)
      rw [if_neg (by simpa [hid] using heq)]
      exact h
  | touch _ _ | register _ | oper | yields _ | identify _ _ _ _ | named _ =>
    exact .inl (user_modifyUser_none h)
  | recompute => exact .inl (user_recompute_none h _)
  | @recase uid u nick hu _ _ => exact .inl (user_setNick_none hu rfl h)
  | rename hu _ _ hset => exact .inl (user_setNick_none hu hset h)
  | @connect id u _ hid _ _ =>
    refine .inl ((State.user_insertUser s.state u _).trans ?_)
    rw [if_neg (by simp [hid])]
    exact h
  | @remove uid =>
    refine .inl ((State.user_removeUser s.state uid _).trans ?_)
    split_ifs
    · rfl
    · exact h
  | channel _ _ _ =>
    rw [Server.user, State.user, Server.modifyChannel, State.users_modifyChannel]
    exact .inl h
  | ensure =>
    rw [Server.user, State.user, State.users_ensureChannel]
    exact .inl h
  | join hjoin _ =>
    obtain ⟨⟨flags, st⟩, hst, heq⟩ := Option.map_eq_some_iff.mp hjoin
    obtain ⟨-, rfl⟩ := Prod.mk.inj heq
    obtain ⟨-, u, hu, husers⟩ := State.join_users hst
    refine .inl ((husers _).trans ?_)
    split_ifs with hj
    · exact absurd (hu.symm.trans (hj ▸ h)) (by simp)
    · exact h
  | @part uid channel =>
    obtain ⟨-, husers | husers⟩ := State.part_users s.state uid channel
    · exact .inl ((congrFun husers _).trans h)
    · exact .inl ((congrFun husers _).trans (user_modifyUser_none (s := s) h))
  | @flags uid channel =>
    rw [Server.user, State.user, (State.applyIntendedFlags_users s.state uid channel).1]
    exact .inl h
  | @grant nick rfTx a _ =>
    have haccounts : Server.user { s with accounts := a } (.rf call) = none := h
    unfold withGrant
    split
    · exact .inl h
    · exact .inl (user_recompute_none haccounts _)
  | _ => exact .inl h

/-- Nobody is a user again who may not come in. -/
theorem step_absent (hstep : Step L s t) (hout : ¬ L.station call) (h : s.user (.rf call) = none) :
    t.user (.rf call) = none :=
  (step_arrival hstep h).resolve_right fun harrived => hout harrived.1

/-! ### Its departure -/

/-- A delivery that no station hears of leaves the radio alone. -/
theorem broadcastPeers_core (o : Outlet) (st : State) (m : Moment) (uid : UserId) {d : Delivery}
    (includeSelf : Bool) (h : ∀ presence, d.rfEmission presence = none) :
    (o.broadcastPeers st m uid d includeSelf).core = o.core := by
  unfold Outlet.broadcastPeers
  extract_lets targets
  refine List.foldlRecOn (motive := fun acc : Outlet × Bool => acc.1.core = o.core) targets _ rfl ?_
  intro acc hacc t _
  refine Eq.trans ?_ hacc
  simp only [h, Option.isNone_none, Bool.or_true, if_true]
  cases t with
  | ip id => rfl
  | rf call => rfl

/-- A station that leaves is no user any more, and its record is gone. -/
theorem quitUser_cases (s : Server) (m : Moment) (call : Callsign) (reason : Text) :
    s.user (.rf call) = none ∧ s.quitUser m (.rf call) reason = s ∨
      (s.quitUser m (.rf call) reason).state = s.state.removeUser (.rf call) ∧
        (s.quitUser m (.rf call) reason).outlet.sessions = s.outlet.sessions.forget call := by
  have hfold : ∀ (f : Server → Channel → Server) (_ : ∀ s c, (f s c).state = s.state ∧
      (f s c).outlet.core = s.outlet.core) (channels : List Channel) (s : Server),
      (channels.foldl f s).state = s.state ∧ (channels.foldl f s).outlet.core = s.outlet.core := by
    intro f hf channels
    induction channels with
    | nil => exact fun s => ⟨rfl, rfl⟩
    | cons c channels ih => exact fun s => ⟨(ih _).1.trans (hf s c).1, (ih _).2.trans (hf s c).2⟩
  unfold Server.quitUser
  split
  · rename_i hnone
    exact .inl ⟨hnone, rfl⟩
  · rename_i u _
    extract_lets told rfChannels outlet removed gone
    right
    have htold : told.state = s.state ∧ told.outlet.core = s.outlet.core := by
      simp only [told]
      split_ifs
      · exact ⟨rfl, broadcastPeers_core _ _ _ _ _ fun _ => rfl⟩
      · exact ⟨rfl, rfl⟩
    obtain ⟨hstate, hcore⟩ := hfold (fun s c =>
      if (s.state.channel c.name).all Channel.hasRfMembers = true then s
      else s.send fun o st => o.noticeRfAudience st m c.name
        "No RF station remains in this channel. Users with RF-TX can still CQ.") (fun s c => by
      split_ifs
      · exact ⟨rfl, rfl⟩
      · exact ⟨rfl, Outlet.noticeRfAudience_core ..⟩) rfChannels gone
    have hair : told.outlet.sessions = s.outlet.sessions :=
      congrArg (fun c : Core => c.air.gateway.radio.sessions) htold.2
    refine ⟨hstate.trans ?_, ?_⟩
    · exact congrArg (fun st => State.removeUser st (.rf call)) htold.1
    · have hgone := congrArg (fun c : Core => c.air.gateway.radio.sessions) hcore
      exact hgone.trans (congrArg (fun x => Sessions.forget x call) hair)

theorem quitUser_station (s : Server) (m : Moment) (call : Callsign) (reason : Text) :
    (s.quitUser m (.rf call) reason).user (.rf call) = none ∧
      ((s.user (.rf call)).isSome = true →
        (s.quitUser m (.rf call) reason).outlet.sessions.peer call = none) := by
  rcases quitUser_cases s m call reason with ⟨hnone, heq⟩ | ⟨hstate, hsessions⟩
  · rw [heq, hnone]
    exact ⟨rfl, fun h => by cases h⟩
  · rw [Server.user, hstate, hsessions]
    exact ⟨(State.user_removeUser ..).trans (if_pos rfl), fun _ =>
      (Table.get_erase ..).trans (if_pos rfl)⟩

/-! ### Its record, and its mail -/

theorem outletStep_sessions {A : OutletLicence} {o o' : Outlet} (h : OutletStep A o o') :
    Changes A o.sessions o'.sessions := by
  cases h with
  | book hcore =>
    have hair : o'.air = o.air := congrArg Core.air hcore
    simp only [Outlet.sessions, Outlet.gateway, hair]
    exact .refl
  | radio hop => exact perform_changes hop _
  | _ => exact .refl

theorem step_sessions (hstep : Step L s t) :
    Changes L.toOutletLicence s.outlet.sessions t.outlet.sessions := by
  rcases step_outlet hstep with hsame | hstep | ⟨call, -, hforgotten⟩
  · rw [hsame]
  · exact outletStep_sessions hstep
  · rw [hforgotten]
    exact .single .forget

theorem steps_sessions (hsteps : Steps L s t) :
    Changes L.toOutletLicence s.outlet.sessions t.outlet.sessions := by
  induction hsteps with
  | refl => exact .refl
  | tail _ hstep ih => exact ih.trans (step_sessions hstep)

/-- What waits for the station and is not too old. -/
def fresh (mb : Mailbox) (call : Callsign) (now : ℕ) : List StoredMessage :=
  (mb.queue call).filter fun mail => now - mail.storedAt < mb.ttl

/-- Only time takes mail of the station away: what is not too old waits where it waited. -/
structure MailKept (call : Callsign) (now : ℕ) (mb mb' : Mailbox) : Prop where
  ttl : mb'.ttl = mb.ttl
  fresh : fresh mb call now <+: fresh mb' call now

theorem MailKept.refl (call : Callsign) (now : ℕ) (mb : Mailbox) : MailKept call now mb mb :=
  ⟨rfl, List.prefix_refl _⟩

theorem MailKept.trans {now : ℕ} {mb mb' mb'' : Mailbox} (h : MailKept call now mb mb')
    (h' : MailKept call now mb' mb'') : MailKept call now mb mb'' :=
  ⟨h'.ttl.trans h.ttl, h.fresh.trans h'.fresh⟩

theorem store_kept (mb : Mailbox) (dst : Callsign) (mail : StoredMessage) (now : ℕ) :
    MailKept call now mb (mb.store dst mail).2 := by
  unfold Mailbox.store
  split_ifs
  · exact .refl ..
  · exact .refl ..
  · exact .refl ..
  · refine ⟨rfl, ?_⟩
    simp only [StationRecords.fresh, Mailbox.queue, Table.get_set]
    split_ifs with hcall
    · rw [hcall, Option.getD_some, List.filter_append]
      exact List.prefix_append ..
    · exact List.prefix_refl _

theorem dropFront_kept (mb : Mailbox) {other : Callsign} (hother : call ≠ other) (now : ℕ) :
    MailKept call now mb (mb.dropFront other) := by
  unfold Mailbox.dropFront
  split
  · exact .refl ..
  · refine ⟨rfl, ?_⟩
    simp only [StationRecords.fresh, Mailbox.queue]
    split_ifs
    · rw [Table.get_erase, if_neg hother]
    · rw [Table.get_set, if_neg hother]

theorem queue_expire (mb : Mailbox) (call : Callsign) (now : ℕ) :
    (mb.expire now).queue call = fresh mb call now := by
  simp only [StationRecords.fresh, Mailbox.queue, Mailbox.expire, Table.get_filterMap]
  cases hq : mb.boxes.get call with
  | none => rfl
  | some q =>
    simp only [Option.bind_some, Option.getD_some]
    split_ifs with hgone
    · exact hgone.symm
    · rfl

theorem expire_kept (mb : Mailbox) (now : ℕ) : MailKept call now mb (mb.expire now) := by
  refine ⟨rfl, ?_⟩
  have hfresh : fresh (mb.expire now) call now = fresh mb call now := by
    rw [StationRecords.fresh, queue_expire]
    refine List.filter_eq_self.mpr fun mail hmail => ?_
    exact (List.mem_filter.mp hmail).2
  rw [hfresh]

theorem outletStep_mail {A : OutletLicence} {o o' : Outlet} (h : OutletStep A o o') {now : ℕ}
    (hout : ¬ A.station call) (htime : ∀ n, A.expires n → n = now) :
    MailKept call now o.mailbox o'.mailbox := by
  cases h with
  | book hcore =>
    have hmail : o'.mailbox = o.mailbox := congrArg Core.mailbox hcore
    rw [hmail]
    exact .refl ..
  | hold _ => exact store_kept ..
  | @take other hother =>
    refine dropFront_kept _ (fun heq => ?_) _
    exact hout (heq ▸ hother)
  | expire hn => exact htime _ hn ▸ expire_kept ..
  | _ => exact .refl ..

theorem step_mail (hstep : Step L s t) {now : ℕ} (hout : ¬ L.station call)
    (htime : ∀ n, L.expires n → n = now) : MailKept call now s.outlet.mailbox t.outlet.mailbox := by
  rcases step_outlet hstep with hsame | hstep | ⟨other, -, hforgotten⟩
  · rw [hsame]
    exact .refl ..
  · exact outletStep_mail hstep hout htime
  · rw [hforgotten]
    exact .refl ..

end StationRecords
