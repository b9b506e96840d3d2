import Rfircd.KickedStations

/-! Every station that is a user has a record, and so goes when it falls silent.
The users and the records are two tables: what takes a record away makes the user leave within the
same event. -/
namespace StationExpiry

open Basics AircSession KeyedTable IrcState RadioSessions RadioGateway ServerOutput ServerCore
open ServerCore.Server Bridge ServerSteps ServerInvariants ServerRuns StateConsistency StationRecords
open RadioGateway.Gateway TransitionSystem AirTrace

variable {L : Licence} {s t : Server} {call : Callsign} {verifies : Text → Text → Prop}
  {reader : BeaconReader}

/-- Every station that is a user has a record, or has lost it and is one of those who leave. -/
def RecordedBut (leaving : List Callsign) (s : Server) : Prop :=
  ∀ call, (s.user (.rf call)).isSome = true →
    (s.outlet.peer call).isSome = true ∨ call ∈ s.outlet.sessions.evicted ∨ call ∈ leaving

/-- Between events nobody is about to leave. -/
structure Recorded (s : Server) : Prop where
  recorded : ∀ call, (s.user (.rf call)).isSome = true → (s.outlet.peer call).isSome = true
  evicted : s.outlet.sessions.evicted = []

theorem Recorded.but (h : Recorded s) : RecordedBut [] s := fun call hu => .inl (h.recorded call hu)

theorem RecordedBut.done (h : RecordedBut [] s) (hnone : s.outlet.sessions.evicted = []) :
    Recorded s := by
  refine ⟨fun call hu => ?_, hnone⟩
  rcases h call hu with hpeer | hgone | hgone
  · exact hpeer
  · rw [hnone] at hgone
    exact absurd hgone List.not_mem_nil
  · exact absurd hgone List.not_mem_nil

/-! ### Steps -/

theorem perform_retains {A : OutletLicence} {op : RadioOp} (h : A.MayPerform op)
    (hsweeps : ¬ A.sweeps) (g : Gateway) :
    Retains g.radio.sessions (AirTrace.perform g op).radio.sessions := by
  have hsame : ∀ {a b : Sessions}, b.peers = a.peers → b.evicted = a.evicted → Retains a b :=
    fun hp he => ⟨fun call hcall => .inl (by rwa [Sessions.peer, hp]), fun call hcall => he ▸ hcall⟩
  by_cases hban : ∃ call, op = .ban call
  · obtain ⟨call, rfl⟩ := hban
    exact hsame rfl rfl
  by_cases hlift : ∃ call, op = .liftBan call
  · obtain ⟨call, rfl⟩ := hlift
    exact hsame rfl rfl
  exact entries_retains (perform_entries h g (fun call heq => hban ⟨call, heq⟩)
    fun call heq => hlift ⟨call, heq⟩) hsweeps

theorem outletStep_retains {A : OutletLicence} {o o' : Outlet} (h : OutletStep A o o')
    (hsweeps : ¬ A.sweeps) : Retains o.sessions o'.sessions := by
  cases h with
  | book hcore =>
    have hair : o'.sessions = o.sessions :=
      congrArg (fun c : Core => c.air.gateway.radio.sessions) hcore
    rw [hair]
    exact .refl _
  | radio hop => exact perform_retains hop hsweeps _
  | _ => exact .refl _

/-- No record is taken away but of who is no user. -/
theorem step_retains (hstep : Step L s t) (hsweeps : ¬ L.sweeps) :
    Retains s.outlet.sessions t.outlet.sessions ∨
      ∃ call, s.user (.rf call) = none ∧ t.outlet.sessions = s.outlet.sessions.forget call := by
  rcases step_outlet hstep with hsame | hstep | ⟨call, hnone, hforgotten⟩
  · exact .inl (hsame ▸ .refl _)
  · exact .inl (outletStep_retains hstep hsweeps)
  · exact .inr ⟨call, hnone, by rw [hforgotten]; rfl⟩

theorem step_recorded (hstep : Step L s t) (hsweeps : ¬ L.sweeps) {leaving : List Callsign}
    (h : RecordedBut leaving s) : RecordedBut leaving t := by
  intro call hthere
  cases hu : s.user (.rf call) with
  | none =>
    rcases step_arrival hstep hu with hnone | ⟨-, hpeer, hsame⟩
    · rw [hnone] at hthere
      cases hthere
    · rw [hsame]
      exact .inl hpeer
  | some u =>
    have hbefore := h call (by rw [hu]; rfl)
    rcases step_retains hstep hsweeps with hkept | ⟨other, hnone, hforgotten⟩
    · rcases hbefore with hpeer | hgone | hgone
      · exact (hkept.peer call hpeer).imp_right .inl
      · exact .inr (.inl (hkept.evicted call hgone))
      · exact .inr (.inr hgone)
    · have hne : call ≠ other := by
        rintro rfl
        rw [hu] at hnone
        cases hnone
      have hpeer : t.outlet.peer call = s.outlet.peer call := by
        change t.outlet.sessions.peer call = _
        rw [hforgotten]
        exact (Table.get_erase ..).trans (if_neg hne)
      rw [hpeer, hforgotten]
      exact hbefore

theorem steps_recorded (hsteps : Steps L s t) (hsweeps : ¬ L.sweeps) {leaving : List Callsign}
    (h : RecordedBut leaving s) : RecordedBut leaving t := by
  induction hsteps with
  | refl => exact h
  | tail _ hstep ih => exact step_recorded hstep hsweeps ih

/-! ### Departures -/

/-- One of those who leave has left. -/
theorem quitUser_recorded (m : Moment) (reason : Text) {leaving : List Callsign}
    (h : RecordedBut (call :: leaving) s) :
    RecordedBut leaving (s.quitUser m (.rf call) reason) ∧
      (s.quitUser m (.rf call) reason).outlet.sessions.evicted = s.outlet.sessions.evicted := by
  rcases quitUser_cases s m call reason with ⟨hnone, heq⟩ | ⟨hstate, hsessions⟩
  · rw [heq]
    refine ⟨fun other hthere => ?_, rfl⟩
    have hne : other ≠ call := by
      rintro rfl
      rw [hnone] at hthere
      cases hthere
    simpa [hne] using h other hthere
  · have hevicted : (s.quitUser m (.rf call) reason).outlet.sessions.evicted =
        s.outlet.sessions.evicted := by
      rw [hsessions]
      rfl
    refine ⟨fun other hthere => ?_, hevicted⟩
    rw [Server.user, hstate, State.user_removeUser] at hthere
    split_ifs at hthere with hother
    · cases hthere
    · have hne : other ≠ call := fun heq => hother (congrArg UserId.rf heq)
      have hpeer : (s.quitUser m (.rf call) reason).outlet.peer other = s.outlet.peer other := by
        change (s.quitUser m (.rf call) reason).outlet.sessions.peer other = _
        rw [hsessions]
        exact (Table.get_erase ..).trans (if_neg hne)
      rw [hpeer, hevicted]
      simpa [hne] using h other hthere

theorem quitAll_recorded (m : Moment) (reason : Text) {leaving : List Callsign}
    (h : RecordedBut leaving s) :
    RecordedBut [] (leaving.foldl (fun s call => s.quitUser m (.rf call) reason) s) ∧
      (leaving.foldl (fun s call => s.quitUser m (.rf call) reason) s).outlet.sessions.evicted =
        s.outlet.sessions.evicted := by
  induction leaving generalizing s with
  | nil => exact ⟨h, rfl⟩
  | cons call leaving ih =>
    obtain ⟨hone, hsame⟩ := quitUser_recorded m reason h
    obtain ⟨hall, hrest⟩ := ih hone
    exact ⟨hall, hrest.trans hsame⟩

/-- Whoever was pushed out leaves at the end of the event. -/
theorem reap_recorded (m : Moment) (h : RecordedBut [] s) : Recorded (s.reapEvictedPeers m) := by
  have htaken : RecordedBut s.outlet.sessions.evicted (s.perform .takeEvicted) := by
    intro call hthere
    rcases h call hthere with hpeer | hgone | hgone
    · exact .inl hpeer
    · exact .inr (.inr hgone)
    · exact absurd hgone List.not_mem_nil
  obtain ⟨hleft, hevicted⟩ := quitAll_recorded m "Replaced" htaken
  exact hleft.done hevicted

/-! ### Silence -/

/-- A licence for everything but to lose stations. -/
def staying : Licence := { anything with sweeps := False }

theorem staying_lenient : Lenient staying :=
  ⟨⟨fun _ _ => trivial, fun _ => trivial, fun _ => trivial, fun _ => trivial, fun _ => trivial⟩,
    fun _ _ => trivial, fun _ _ => trivial, fun _ => trivial, fun _ => trivial⟩

/-- A record that a tick takes away is one of the lost. -/
theorem tickRetries_retains (s : Sessions) (now : ℕ) (retry : Bool)
    (h : (s.peer call).isSome = true) : ((s.tickRetries now retry).1.peer call).isSome = true ∨
      call ∈ (s.tickRetries now retry).2.lost := by
  obtain ⟨p, hp⟩ := Option.isSome_iff_exists.mp h
  rw [Sessions.tickRetries_peer, hp, Option.bind_some]
  by_cases hkept : (s.ticked now retry p).1.isSome = true
  · exact .inl hkept
  · right
    have hgone : (call, p) ∈ s.peers.entries.filter fun e => (s.ticked now retry e.2).1.isNone :=
      List.mem_filter.mpr ⟨Table.mem_entries_iff.mpr hp, by simpa using hkept⟩
    refine List.mem_map.mpr ⟨(call, p), ?_, rfl⟩
    by_cases hfate : (p.tick s.config now retry).2.2 = .lost
    · exact List.mem_append_left _ (List.mem_filter.mpr ⟨hgone, by simpa using hfate⟩)
    · exact List.mem_append_right _ (List.mem_filter.mpr ⟨hgone, by simpa using hfate⟩)

theorem tickStations_recorded (m : Moment) (h : RecordedBut [] s) :
    RecordedBut [] (s.tickStations m) := by
  have hkeyed : Steps staying s (s.perform (.drainKeyed m.now)) := perform_steps _ _ (by trivial)
  have hdrained : RecordedBut [] (s.perform (.drainKeyed m.now)) :=
    steps_recorded hkeyed (fun h => h) h
  refine (quitAll_recorded m "Signal lost" ?_).1
  intro call hthere
  have hticked : ((s.perform (.drainKeyed m.now)).perform (.tickSessions m.now)).outlet.sessions =
      ((s.perform (.drainKeyed m.now)).outlet.sessions.tickRetries m.now
        ((s.perform (.drainKeyed m.now)).outlet.gateway.available &&
          !(s.perform (.drainKeyed m.now)).outlet.gateway.interlockDown)).1 := transmitAll_sessions ..
  rcases hdrained call hthere with hpeer | hgone | hgone
  · refine (tickRetries_retains _ _ _ hpeer).imp (fun hkept => ?_) .inr
    rwa [← hticked] at hkept
  · refine .inr (.inl ?_)
    rw [hticked]
    exact hgone
  · exact absurd hgone List.not_mem_nil

/-! ### Events -/

theorem initial_recorded (h : Initial s) : Recorded s := by
  obtain ⟨cfg, attached, tnc, accounts, unix, rfl⟩ := h
  refine ⟨fun call hthere => ?_, rfl⟩
  have hnone : (Server.new cfg attached tnc accounts unix).user (.rf call) = none := by
    change (configuredChannels cfg unix).users.get _ = none
    rw [(configuredChannels_vacant cfg unix).1]
    rfl
  rw [hnone] at hthere
  cases hthere

theorem handled_recorded (reader : BeaconReader) {e : Moment × ServerRuns.Event} (hs : Grounded s)
    (he : ServerRuns.Enabled verifies s e) (h : Recorded s) :
    RecordedBut [] (handled reader s e) := by
  have hout : ¬ staying.sweeps := fun h => h
  by_cases htick : e.2 = .tick
  · obtain ⟨m, e⟩ := e
    obtain rfl := htick
    have hstations : Steps anything s (s.tickStations m) := tickStations_steps s m trivial
    have hrest : Steps staying (s.tickStations m) (s.tick m) :=
      tickRest_steps m (steps_standing hstations hs.standing)
        ⟨trivial, fun _ => trivial, fun _ => trivial⟩
    exact steps_recorded hrest hout (tickStations_recorded m h.but)
  · have hsteps : Steps staying s (handled reader s e) :=
      handled_steps hs.standing hs.named he (fun heq => absurd heq htick)
        (lenient_licensed staying_lenient hs.standing he (fun _ _ _ _ _ => trivial)
          fun _ _ => trivial)
    exact steps_recorded hsteps hout h.but

theorem next_recorded {e : Moment × ServerRuns.Event} (hs : Grounded s)
    (he : ServerRuns.Enabled verifies s e) (h : Recorded s) : Recorded (s.next reader e) := by
  have hhandled := handled_recorded reader hs he h
  rw [next_eq]
  split_ifs with hreaps
  · exact reap_recorded e.1 hhandled
  · refine hhandled.done ?_
    obtain ⟨m, e⟩ := e
    cases e with
    | written _ | writerGone _ | pump _ => exact h.evicted
    | _ => exact absurd rfl hreaps

theorem recorded_inductive {guard : Server → Moment × ServerRuns.Event → Prop} :
    Inductive (ServerRuns.system reader verifies) guard fun s => Grounded s ∧ Recorded s :=
  .ofNext (fun _ h => ⟨initial_grounded h, initial_recorded h⟩) fun s e ⟨hs, hr⟩ hg he =>
    ⟨grounded_inductive.step s e _ hs hg ⟨he, rfl⟩, next_recorded hs he hr⟩

/-! ### Expiry -/

theorem quitUser_absent (m : Moment) (other : Callsign) (reason : Text)
    (h : s.user (.rf call) = none) : (s.quitUser m (.rf other) reason).user (.rf call) = none := by
  rcases quitUser_cases s m other reason with ⟨-, heq⟩ | ⟨hstate, -⟩
  · rwa [heq]
  · rw [Server.user, hstate, State.user_removeUser]
    split_ifs
    · rfl
    · exact h

theorem quitAll_absent (m : Moment) (reason : Text) {calls : List Callsign}
    (h : call ∈ calls ∨ s.user (.rf call) = none) :
    (calls.foldl (fun s call => s.quitUser m (.rf call) reason) s).user (.rf call) = none := by
  induction calls generalizing s with
  | nil => exact h.resolve_left List.not_mem_nil
  | cons other calls ih =>
    refine ih ?_
    rcases h with h | h
    · rcases List.mem_cons.mp h with rfl | h
      · exact .inr (quitUser_station s m call reason).1
      · exact .inl h
    · exact .inr (quitUser_absent m other reason h)

/-- To hear that a frame was keyed is not to hear from the station. -/
theorem drainKeyed_peer (keyed : List Keyed) (s : Sessions) (now : ℕ) {p : Peer}
    (hp : s.peer call = some p) :
    (keyed.foldl (fun s k => s.onKeyed k.dest k.seq now) s).config = s.config ∧
      ∃ q, (keyed.foldl (fun s k => s.onKeyed k.dest k.seq now) s).peer call = some q ∧
        q.lastHeard = p.lastHeard := by
  induction keyed generalizing s p with
  | nil => exact ⟨rfl, p, hp, rfl⟩
  | cons k keyed ih =>
    have hconfig : (s.onKeyed k.dest k.seq now).config = s.config := by
      unfold Sessions.onKeyed
      split <;> rfl
    have hone : ∃ q, (s.onKeyed k.dest k.seq now).peer call = some q ∧
        q.lastHeard = p.lastHeard := by
      rw [Sessions.onKeyed_peer, hp]
      split_ifs
      · refine ⟨_, rfl, ?_⟩
        simp only [Peer.onKeyed]
        split
        · rfl
        · split_ifs <;> rfl
      · exact ⟨p, rfl, rfl⟩
    obtain ⟨q, hq, hheard⟩ := hone
    obtain ⟨hrest, r, hr, hheard'⟩ := ih _ hq
    exact ⟨hrest.trans hconfig, r, hr, hheard'.trans hheard⟩

theorem tick_lost {cfg : SessionConfig} {p : Peer} {now : ℕ} (retry : Bool)
    (h : cfg.peerIdleTimeout < now - p.lastHeard) : (p.tick cfg now retry).2.2 = .lost := by
  unfold Peer.tick
  have hheard : (expireReasm cfg p now).1.lastHeard = p.lastHeard := rfl
  simp only [hheard, if_pos h]

/-- A station that was silent for too long is one of the lost. -/
theorem silent_lost {s : Sessions} {p : Peer} {now : ℕ} (retry : Bool) (hp : s.peer call = some p)
    (h : s.config.peerIdleTimeout < now - p.lastHeard) : call ∈ (s.tickRetries now retry).2.lost := by
  have hfate := tick_lost retry h
  have hticked : (s.ticked now retry p).1 = none := by
    unfold Sessions.ticked
    generalize p.tick s.config now retry = r at hfate
    obtain ⟨q, frames, fate⟩ := r
    obtain rfl : fate = .lost := hfate
    rfl
  have hgone : (call, p) ∈ s.peers.entries.filter fun e => (s.ticked now retry e.2).1.isNone :=
    List.mem_filter.mpr ⟨Table.mem_entries_iff.mpr hp, by rw [hticked]; rfl⟩
  refine List.mem_map.mpr ⟨(call, p), ?_, rfl⟩
  exact List.mem_append_left _ (List.mem_filter.mpr ⟨hgone, by simpa using hfate⟩)

theorem silent_leaves {m : Moment} {p : Peer} (hp : s.outlet.peer call = some p)
    (h : s.outlet.sessions.config.peerIdleTimeout < m.now - p.lastHeard) :
    (s.tickStations m).user (.rf call) = none := by
  obtain ⟨hconfig, q, hq, hheard⟩ :=
    drainKeyed_peer s.outlet.gateway.keyed s.outlet.sessions m.now hp
  refine quitAll_absent m "Signal lost" (.inl (silent_lost _ hq ?_))
  change (List.foldl _ s.outlet.sessions s.outlet.gateway.keyed).config.peerIdleTimeout < _
  rw [hconfig, hheard]
  exact h

/-- The station has left nothing behind: no user, no nick and no membership. -/
structure Gone (call : Callsign) (s : Server) : Prop where
  user : s.user (.rf call) = none
  nicks : ∀ key, s.state.nicks.get key ≠ some (.rf call)
  channels : ∀ key, ¬ Holds s.state key (.rf call)

/-- A licence to let no station in. -/
def closed : Licence := { anything with station := fun _ => False }

theorem steps_absent (hsteps : Steps closed s t) (h : s.user (.rf call) = none) :
    t.user (.rf call) = none := by
  induction hsteps with
  | refl => exact h
  | tail _ hstep ih => exact step_absent hstep (fun h => h) ih

/-- In every state that the server reaches, a station that is a user has a record, and the first
tick after it was silent for too long leaves nothing of it. -/
theorem stations_have_records {u : User}
    (h : Reachable (ServerRuns.system reader verifies) everyStep s)
    (hu : s.user (.rf call) = some u) :
    ∃ p, s.outlet.peer call = some p ∧
      ∀ m, s.outlet.sessions.config.peerIdleTimeout < m.now - p.lastHeard →
        Gone call (s.next reader (m, .tick)) := by
  obtain ⟨hgrounded, hrecorded⟩ := recorded_inductive.reachable h
  obtain ⟨p, hp⟩ := Option.isSome_iff_exists.mp (hrecorded.recorded call (by rw [hu]; rfl))
  refine ⟨p, hp, fun m hsilent => ?_⟩
  have hstations : Steps anything s (s.tickStations m) := tickStations_steps s m trivial
  have hrest : Steps closed (s.tickStations m) (s.next reader (m, .tick)) :=
    (tickRest_steps m (steps_standing hstations hgrounded.standing)
      ⟨trivial, fun _ => trivial, fun _ => trivial⟩).trans
      (reapEvictedPeers_steps (s.tick m) m trivial)
  have huser := steps_absent hrest (silent_leaves hp hsilent)
  have hnext : Reachable (ServerRuns.system reader verifies) everyStep (s.next reader (m, .tick)) :=
    h.fire (m, .tick) trivial trivial
  obtain ⟨-, hlinked⟩ := KickedStations.linked_inductive.reachable hnext
  refine ⟨huser, fun key hkey => ?_, fun key hmember => ?_⟩
  · obtain ⟨v, hv, -⟩ := (hlinked.nicks key _).mp hkey
    rw [show (s.next reader (m, .tick)).state.user (.rf call) = none from huser] at hv
    cases hv
  · have hpresent := hlinked.member_present hmember
    rw [show (s.next reader (m, .tick)).state.user (.rf call) = none from huser] at hpresent
    cases hpresent

/-- A station joins, and is not heard again. -/
theorem silent_station_expires :
    ∃ p, (Small.run [Small.airc Small.station .join 1 ["#rf"]]).outlet.peer Small.station = some p ∧
      ∀ m, (Small.run [Small.airc Small.station .join 1 ["#rf"]]).outlet.sessions.config.peerIdleTimeout <
          m.now - p.lastHeard →
        Gone Small.station
          ((Small.run [Small.airc Small.station .join 1 ["#rf"]]).next Small.noBeacon (m, .tick)) := by
  have hreached : Small.Feasible [Small.airc Small.station .join 1 ["#rf"]] := by decide +kernel
  have hthere : ((Small.run [Small.airc Small.station .join 1 ["#rf"]]).user
      (.rf Small.station)).isSome = true := by decide +kernel
  obtain ⟨u, hu⟩ := Option.isSome_iff_exists.mp hthere
  exact stations_have_records (Small.reachable hreached) hu

end StationExpiry
