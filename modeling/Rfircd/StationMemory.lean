import Rfircd.FrameLimit
import Rfircd.StationExpiry

/-! What the server remembers of a message that a station has begun.
The numbers that were seen and the parts that were received stay with the record of the station.
Nothing but the station's own frames changes them before they expire. -/
namespace StationMemory

open Basics Airc AircSession KeyedTable AirTrace RadioGateway RadioGateway.Gateway RadioSessions
open Ax25 IrcState ServerOutput ServerCore ServerCore.Server Bridge ServerSteps ServerInvariants
open ServerRuns StationRecords StationExpiry FrameLimit

variable {L : Licence} {s t : Server} {src : Callsign} {seq : UInt16}
  {M : List UInt16 × Option Reassembly} {verifies : Text → Text → Prop} {reader : BeaconReader}

/-- What a record says of one number. -/
def memory (seq : UInt16) (p : Peer) : List UInt16 × Option Reassembly := (p.seen, p.reasm.get seq)

/-- The station has a record, and that is what it says. -/
def Remembers (src : Callsign) (seq : UInt16) (M : List UInt16 × Option Reassembly) (s : Sessions) :
    Prop :=
  (s.peer src).map (memory seq) = some M

theorem Remembers.present {s : Sessions} (h : Remembers src seq M s) :
    (s.peer src).isSome = true := by
  obtain ⟨p, hp, -⟩ := Option.map_eq_some_iff.mp h
  rw [hp]
  rfl

theorem memory_inbox {p q : Peer} (h : SameInbox p q) : memory seq q = memory seq p := by
  rw [memory, h.seen, h.reasm, memory]

/-! ### Operations -/

section

variable {s t : Sessions} {g g' : Gateway}

theorem Remembers.of_peers (h : Remembers src seq M s) (hpeers : t.peers = s.peers) :
    Remembers src seq M t := by
  rwa [Remembers, Sessions.peer, hpeers]

theorem Remembers.of_peer (h : Remembers src seq M s) (hpeer : t.peer src = s.peer src) :
    Remembers src seq M t := by
  rwa [Remembers, hpeer]

/-- A record is replaced by one that remembers the same. -/
theorem Remembers.store {call : Callsign} {p : Peer} (h : Remembers src seq M s)
    (hsame : call = src → memory seq p = memory seq (s.record src)) :
    Remembers src seq M (s.store call p) := by
  obtain ⟨q, hq, hmemory⟩ := Option.map_eq_some_iff.mp h
  rw [Remembers, Sessions.peer_store]
  split_ifs with hc
  · rw [Option.map_some, hsame hc.symm, record_of_some hq, hmemory]
  · exact h

theorem enqueue_memory (cfg : SessionConfig) (p : Peer) (n : UInt16) (kind : Kind)
    (payload : List UInt8) (reliable : Bool) :
    memory seq (p.enqueue cfg n kind payload reliable).1 = memory seq p := by
  rcases AircSession.enqueue_cases cfg p n kind payload reliable with ⟨q, hq, hin, -⟩ | ⟨-, h⟩
  · rw [hq]
    exact memory_inbox hin
  · rcases h with ⟨-, h⟩ | ⟨-, -, -, h⟩ | ⟨-, -, h⟩ | ⟨acked, -, -, -, h⟩
    all_goals exact (congrArg (fun r => memory seq r.1) h).trans rfl

/-- A message of ours to any station takes at most another record away. -/
theorem Remembers.enqueue (h : Remembers src seq M s) (dst : Callsign) (kind : Kind)
    (payload : List UInt8) (reliable : Bool) (now : ℕ) :
    (s.enqueue dst kind payload reliable now).1.peer src = none ∨
      Remembers src seq M (s.enqueue dst kind payload reliable now).1 := by
  obtain ⟨t, -, hpeer, heq⟩ := s.enqueue_cases dst kind payload reliable now
  have hkept : src ≠ dst ∧ t.peer src = none ∨ Remembers src seq M t := by
    rcases hpeer src with hsame | hgone
    · exact .inr (h.of_peer hsame)
    · exact .inl hgone
  rcases heq with heq | ⟨p, hin, -, heq⟩
  · rw [heq]
    exact hkept.imp_left And.right
  · rw [heq]
    rcases hkept with ⟨hne, hnone⟩ | hkept
    · left
      rw [Sessions.peer_store, if_neg hne]
      exact hnone
    · refine .inr (hkept.store ?_)
      rintro rfl
      rcases hpeer dst with hsame | ⟨hne, -⟩
      · rw [Sessions.record_of_peer hsame, enqueue_memory, memory_inbox hin]
      · exact absurd rfl hne

theorem Remembers.noteAirc (h : Remembers src seq M s) (dst : Callsign) :
    Remembers src seq M (noteAirc s dst) := by
  unfold Gateway.noteAirc
  split
  · exact h
  · rename_i p hp
    refine h.store ?_
    rintro rfl
    rw [record_of_some hp]
    rfl

theorem noteAirc_absent (h : s.peer src = none) (dst : Callsign) :
    (Gateway.noteAirc s dst).peer src = none := by
  unfold Gateway.noteAirc
  split
  · exact h
  · rename_i p hp
    have hne : src ≠ dst := by
      rintro rfl
      rw [h] at hp
      cases hp
    rw [Sessions.peer_store, if_neg hne]
    exact h

theorem Remembers.drainKeyed (h : Remembers src seq M s) (keyed : List Keyed) (now : ℕ) :
    Remembers src seq M (keyed.foldl (fun s k => s.onKeyed k.dest k.seq now) s) := by
  induction keyed generalizing s with
  | nil => exact h
  | cons k keyed ih =>
    refine ih ?_
    rw [Remembers, Sessions.onKeyed_peer]
    split_ifs
    · obtain ⟨p, hp, hmemory⟩ := Option.map_eq_some_iff.mp h
      rw [hp, Option.map_some, Option.map_some, memory_inbox (onKeyed_inbox s.config p k.seq now),
        hmemory]
    · exact h

theorem Remembers.drainAcks (h : Remembers src seq M g.radio.sessions) :
    Remembers src seq M (AirTrace.perform g .drainAcks).radio.sessions := by
  simp only [AirTrace.perform, Gateway.drainAcks]
  rw [transmitAll_sessions]
  change (g.radio.sessions.drainAcks.1.peer src).map (memory seq) = some M
  rw [Sessions.drainAcks_peer, Option.map_map]
  exact h

/-- The operations after which a message that the station has begun is remembered, unless its record
was pushed out. -/
def Spares (src : Callsign) : RadioOp → Prop
  | .receive call _ _ _ => call ≠ src
  | .tickSessions _ | .forget _ => False
  | _ => True

theorem perform_remembers {op : RadioOp} (hop : Spares src op)
    (h : Remembers src seq M g.radio.sessions) :
    (AirTrace.perform g op).radio.sessions.peer src = none ∨
      Remembers src seq M (AirTrace.perform g op).radio.sessions := by
  have hqueuing : ∀ {g'}, Queuing g g' → g'.radio.sessions.peer src = none ∨
      Remembers src seq M g'.radio.sessions := by
    rintro g' ⟨added, hadded⟩
    exact .inr (h.of_peers hadded.sessions.peers)
  have hidentifies : ∀ {g'}, Identifies g g' ∨ Queues 0 g g' → g'.radio.sessions.peer src = none ∨
      Remembers src seq M g'.radio.sessions :=
    fun hid => .inr (h.of_peers (hid.elim (·.sessions.peers) (·.sessions.peers)))
  cases op with
  | broadcast b => exact hqueuing (g.broadcastFlagged_queuing ..)
  | unicast dst m now =>
    have hsent := h.enqueue dst m.kind (m.payload dst) m.reliable now
    simp only [AirTrace.perform]
    rcases g.unicastFlagged_cases dst m.kind (m.payload dst) m.reliable m.cls m.flags now with
      ⟨g', hg, hsame⟩ | ⟨-, -, -, -, ⟨-, hg⟩ | ⟨-, hg⟩⟩
    · rw [hg]
      exact .inr (h.of_peers hsame.sessions.peers)
    · rw [hg]
      exact hsent
    · rw [hg, transmitAll_sessions]
      rcases hsent with hgone | hkept
      · exact .inl (noteAirc_absent hgone dst)
      · exact .inr (hkept.noteAirc dst)
  | aprsChat dst body channel now => exact hqueuing (g.enqueueAprsChat_queuing ..)
  | aprsAck dst msgid => exact hqueuing (g.enqueueUi_queuing ..)
  | aprsRej dst msgid => exact hqueuing (g.enqueueUi_queuing ..)
  | aprsReply dst text => exact hqueuing (g.enqueueUi_queuing ..)
  | receive call f now forUs =>
    right
    simp only [AirTrace.perform, Gateway.onReceive]
    rw [transmitAll_sessions]
    exact h.of_peer (Sessions.onReceive_peer _ (Ne.symm hop) ..)
  | drainAcks => exact .inr h.drainAcks
  | aprsAnswered call id now => exact hqueuing (g.onAprsAck_queuing ..)
  | touch call now =>
    right
    simp only [AirTrace.perform]
    split
    · exact h
    · rename_i p hp
      refine h.store ?_
      rintro rfl
      exact memory_inbox (Sessions.touched_same hp).1
  | note call n =>
    right
    simp only [AirTrace.perform]
    split
    · exact h
    · rename_i p hp
      refine h.store ?_
      rintro rfl
      rw [record_of_some hp]
      exact memory_inbox (noted_same p n).1
  | ban call | liftBan call | takeEvicted | refuse => exact .inr h
  | forget call => exact hop.elim
  | tickSessions now => exact hop.elim
  | drainKeyed now => exact .inr (h.drainKeyed g.keyed now)
  | tickAprs now => exact hqueuing (g.tickAprs_queuing now)
  | maybeIdentify now => exact hidentifies (g.maybeIdentify_cases now)
  | idIfNeeded now => exact hidentifies (g.idIfNeeded_cases now)
  | identifyNow now => exact hidentifies (g.identifyNow_cases now)
  | radioOff now => exact hidentifies (g.radioOff_cases now)
  | radioOn => exact hqueuing ⟨0, g.radioOn_queues⟩
  | limitDuty percent =>
    right
    simp only [AirTrace.perform, overrideWith]
    split_ifs <;> exact h
  | limitPacing ms =>
    right
    simp only [AirTrace.perform, overrideWith]
    split_ifs <;> exact h
  | pump e => exact .inr h

end

/-! ### Steps -/

/-- A licence for everything but to hear the station, to let it in and to lose stations. -/
def away (src : Callsign) : Licence :=
  { anything with
    received := fun call _ => call ≠ src
    station := fun call => call ≠ src
    sweeps := False }

theorem away_spares {op : RadioOp} (h : (away src).MayPerform op) : Spares src op := by
  cases op with
  | receive call f now forUs => exact h
  | tickSessions now => exact h
  | forget call => exact h
  | _ => trivial

/-- The station is no user any more, or is about to leave, or is remembered. -/
def Followed (src : Callsign) (seq : UInt16) (M : List UInt16 × Option Reassembly) (s : Server) :
    Prop :=
  s.user (.rf src) = none ∨ src ∈ s.outlet.sessions.evicted ∨ Remembers src seq M s.outlet.sessions

theorem outletStep_remembers {o o' : Outlet} (hstep : OutletStep (away src).toOutletLicence o o')
    (h : Remembers src seq M o.sessions) :
    o'.sessions.peer src = none ∨ Remembers src seq M o'.sessions := by
  cases hstep with
  | book hcore =>
    have hsame : o'.sessions = o.sessions :=
      congrArg (fun c : Core => c.air.gateway.radio.sessions) hcore
    rw [hsame]
    exact .inr h
  | radio hop => exact perform_remembers (away_spares hop) h
  | _ => exact .inr h

theorem step_followed (hstep : Step (away src) s t) (h : Followed src seq M s) :
    Followed src seq M t := by
  have hout : ¬ (away src).station src := fun hne => hne rfl
  have hstays : ¬ (away src).sweeps := id
  rcases h with hnone | hgone | hkept
  · exact .inl (step_absent hstep hout hnone)
  · right; left
    rcases step_retains hstep hstays with hretains | ⟨call, -, hforgotten⟩
    · exact hretains.evicted src hgone
    · rw [hforgotten]
      exact hgone
  · rcases step_outlet hstep with hsame | houtlet | ⟨call, hnone, hforgotten⟩
    · rw [Followed, hsame]
      exact .inr (.inr hkept)
    · rcases outletStep_remembers houtlet hkept with hgone | hkept'
      · have hretains := (outletStep_retains houtlet hstays).peer src hkept.present
        exact .inr (.inl (hretains.resolve_left (by simp [hgone])))
      · exact .inr (.inr hkept')
    · by_cases hcall : call = src
      · exact .inl (step_absent hstep hout (hcall ▸ hnone))
      · right; right
        have hpeer : t.outlet.sessions.peer src = s.outlet.sessions.peer src := by
          rw [hforgotten]
          exact (Table.get_erase ..).trans (if_neg (Ne.symm hcall))
        exact hkept.of_peer hpeer

theorem steps_followed (hsteps : Steps (away src) s t) (h : Followed src seq M s) :
    Followed src seq M t := by
  induction hsteps with
  | refl => exact h
  | tail _ hstep ih => exact step_followed hstep ih

/-! ### Departures -/

theorem quitUser_followed (m : Moment) (call : Callsign) (reason : Text)
    (h : Followed src seq M s) : Followed src seq M (s.quitUser m (.rf call) reason) := by
  rcases quitUser_cases s m call reason with ⟨-, heq⟩ | ⟨hstate, hsessions⟩
  · rwa [heq]
  · by_cases hcall : call = src
    · exact .inl (hcall ▸ (quitUser_station s m call reason).1)
    · refine h.imp (quitUser_absent m call reason) (Or.imp (fun hgone => ?_) fun hkept => ?_)
      · rw [hsessions]
        exact hgone
      · refine hkept.of_peer ?_
        rw [hsessions]
        exact (Table.get_erase ..).trans (if_neg (Ne.symm hcall))

theorem quitAll_followed (m : Moment) (reason : Text) {calls : List Callsign}
    (h : Followed src seq M s ∨ src ∈ calls) :
    Followed src seq M (calls.foldl (fun s call => s.quitUser m (.rf call) reason) s) := by
  induction calls generalizing s with
  | nil => exact h.resolve_right List.not_mem_nil
  | cons call calls ih =>
    refine ih ?_
    rcases h with h | h
    · exact .inl (quitUser_followed m call reason h)
    · rcases List.mem_cons.mp h with rfl | h
      · exact .inl (.inl (quitUser_station s m src reason).1)
      · exact .inr h

theorem quitAll_evicted (m : Moment) (reason : Text) (calls : List Callsign) (s : Server) :
    (calls.foldl (fun s call => s.quitUser m (.rf call) reason) s).outlet.sessions.evicted =
      s.outlet.sessions.evicted := by
  induction calls generalizing s with
  | nil => rfl
  | cons call calls ih =>
    have hone : (s.quitUser m (.rf call) reason).outlet.sessions.evicted =
        s.outlet.sessions.evicted := by
      rcases quitUser_cases s m call reason with ⟨-, heq⟩ | ⟨-, hsessions⟩
      · rw [heq]
      · rw [hsessions]
        rfl
    exact (ih _).trans hone

/-- At the end of an event a station that is still a user is remembered. -/
theorem reap_followed (m : Moment) (h : Followed src seq M s)
    (hthere : (s.reapEvictedPeers m).user (.rf src) ≠ none) :
    Remembers src seq M (s.reapEvictedPeers m).outlet.sessions := by
  have hevicted : (s.reapEvictedPeers m).outlet.sessions.evicted = [] := quitAll_evicted ..
  have htaken : Followed src seq M (s.perform .takeEvicted) ∨ src ∈ s.outlet.sessions.evicted := by
    rcases h with hnone | hgone | hkept
    · exact .inl (.inl hnone)
    · exact .inr hgone
    · exact .inl (.inr (.inr hkept))
  rcases quitAll_followed m "Replaced" htaken with hnone | hgone | hkept
  · exact absurd hnone hthere
  · exact absurd (hevicted ▸ hgone) List.not_mem_nil
  · exact hkept

/-! ### Timers -/

/-- The parts that were received are not too old. -/
def Lasts (cfg : SessionConfig) (now : ℕ) (M : List UInt16 × Option Reassembly) : Prop :=
  ∀ r ∈ M.2, expiredReasm cfg now r = false

theorem tickRetries_remembers {s : Sessions} {now : ℕ} (retry : Bool) (h : Remembers src seq M s)
    (hlasts : Lasts s.config now M) :
    (s.tickRetries now retry).1.peer src = none ∨
      Remembers src seq M (s.tickRetries now retry).1 := by
  obtain ⟨p, hp, rfl⟩ := Option.map_eq_some_iff.mp h
  rw [Remembers, Sessions.tickRetries_peer, hp, Option.bind_some]
  cases hq : (s.ticked now retry p).1 with
  | none => exact .inl rfl
  | some q =>
    right
    have hafter := ticked_after hq
    have hreasm : q.reasm.get seq = p.reasm.get seq := by
      rw [hafter.reasm, expireReasm, Table.get_filterMap]
      cases hr : p.reasm.get seq with
      | none => rfl
      | some r =>
        have hyoung : expiredReasm s.config now r = false := hlasts r hr
        rw [Option.bind_some, hyoung]
        rfl
    rw [Option.map_some, memory, hafter.seen, hreasm, memory]

theorem tickStations_followed (m : Moment) (h : Followed src seq M s)
    (hlasts : Lasts s.outlet.sessions.config m.now M) : Followed src seq M (s.tickStations m) := by
  have hkeyed : Steps (away src) s (s.perform (.drainKeyed m.now)) := perform_steps _ _ (by trivial)
  have hdrained := steps_followed hkeyed h
  refine quitAll_followed m "Signal lost" ?_
  have hticked : ((s.perform (.drainKeyed m.now)).perform (.tickSessions m.now)).outlet.sessions =
      ((s.perform (.drainKeyed m.now)).outlet.sessions.tickRetries m.now
        ((s.perform (.drainKeyed m.now)).outlet.gateway.available &&
          !(s.perform (.drainKeyed m.now)).outlet.gateway.interlockDown)).1 :=
    transmitAll_sessions ..
  have hconfig : (s.perform (.drainKeyed m.now)).outlet.sessions.config =
      s.outlet.sessions.config :=
    (perform_remains s.outlet.gateway (.drainKeyed m.now)).config
  rcases hdrained with hnone | hgone | hkept
  · exact .inl (.inl hnone)
  · left; right; left
    rw [hticked]
    exact hgone
  · rcases tickRetries_remembers _ hkept (by rwa [hconfig]) with hlost | hkept'
    · refine .inr ((tickRetries_retains _ _ _ hkept.present).resolve_left ?_)
      rw [hlost]
      exact Bool.false_ne_true
    · left; right; right
      rw [hticked]
      exact hkept'

/-! ### Events -/

/-- The event is no frame of the station, and no tick that comes too late. -/
structure Apart (src : Callsign) (M : List UInt16 × Option Reassembly) (s : Server)
    (e : Moment × ServerRuns.Event) : Prop where
  silent : ∀ frame, e.2 = .rf frame → frame.source.call ≠ src
  lasts : e.2 = .tick → Lasts s.outlet.sessions.config e.1.now M

theorem handled_followed {e : Moment × ServerRuns.Event} (hs : Grounded s)
    (he : ServerRuns.Enabled verifies s e) (hapart : Apart src M s e) (h : Followed src seq M s) :
    Followed src seq M (handled reader s e) := by
  by_cases htick : e.2 = .tick
  · have hstations : Steps anything s (s.tickStations e.1) := tickStations_steps s e.1 trivial
    have hrest : Steps (away src) (s.tickStations e.1) (s.tick e.1) :=
      tickRest_steps e.1 (steps_standing hstations hs.standing)
        ⟨trivial, fun _ => trivial, fun _ => trivial⟩
    have hdone := steps_followed hrest (tickStations_followed e.1 h (hapart.lasts htick))
    obtain ⟨m, e⟩ := e
    obtain rfl := htick
    exact hdone
  · have hrecording : Recording (away src) :=
      ⟨fun _ _ => trivial, fun _ => trivial, fun _ => trivial, fun _ => trivial, fun _ => trivial⟩
    have hadmits : ∀ frame, e.2 = .rf frame → Acceptable s frame.source.call →
        Admits (away src) reader s e.1 frame := by
      intro frame hframe _
      have hother := hapart.silent frame hframe
      exact ⟨fun _ _ _ _ => hother, fun _ _ _ _ _ _ _ => hother, fun _ => hother⟩
    have hlicence : EventLicence (away src) reader s e :=
      recording_licensed hrecording (fun _ _ => trivial) hs.standing he hadmits trivial
        (fun _ _ _ _ _ => trivial) fun _ _ => trivial
    exact steps_followed (handled_steps hs.standing hs.named he (fun heq => absurd heq htick)
      hlicence) h

/-- What a station has begun to say is remembered as long as it is a user, whatever else happens. -/
theorem next_remembers {e : Moment × ServerRuns.Event} (hs : Grounded s)
    (he : ServerRuns.Enabled verifies s e) (hapart : Apart src M s e)
    (h : Remembers src seq M s.outlet.sessions) (hnone : s.outlet.sessions.evicted = [])
    (hthere : (s.next reader e).user (.rf src) ≠ none) :
    Remembers src seq M (s.next reader e).outlet.sessions := by
  have hhandled : Followed src seq M (handled reader s e) :=
    handled_followed hs he hapart (.inr (.inr h))
  rw [next_eq] at hthere ⊢
  split_ifs at hthere ⊢ with hreaps
  · exact reap_followed e.1 hhandled hthere
  · obtain ⟨m, e⟩ := e
    cases e with
    | written _ | writerGone _ | pump _ =>
      rcases hhandled with hgone | hgone | hkept
      · exact absurd hgone hthere
      · exact absurd (hnone ▸ hgone) List.not_mem_nil
      · exact hkept
    | _ => exact absurd rfl hreaps

/-! ### Settings -/

theorem outletStep_config {A : OutletLicence} {o o' : Outlet} (hstep : OutletStep A o o') :
    o'.sessions.config = o.sessions.config := by
  cases hstep with
  | book hcore => exact congrArg (fun c : Core => c.air.gateway.radio.sessions.config) hcore
  | radio hop => exact (perform_remains ..).config
  | _ => rfl

theorem steps_sessionConfig (hsteps : Steps L s t) :
    t.outlet.sessions.config = s.outlet.sessions.config := by
  induction hsteps with
  | refl => rfl
  | tail _ hstep ih =>
    refine Eq.trans ?_ ih
    rcases step_outlet hstep with hsame | houtlet | ⟨call, -, hforgotten⟩
    · rw [hsame]
    · exact outletStep_config houtlet
    · rw [hforgotten]
      rfl

end StationMemory
