import Rfircd.RadioSteps
import Rfircd.ServerRuns

/-! Which dialect a station speaks.
The gateway writes to a station in the dialect it is known by, so the mark is to follow what the
station sends, and nothing that is sent to it. -/
namespace Dialects

open Basics Airc AircSession KeyedTable RadioGateway RadioGateway.Gateway AprsCodec AirTrace
open ServerCore

/-! ### Sessions keep the mark -/

theorem releasePending_dialect (p : Peer) : (releasePending p).1.dialect = p.dialect := by
  unfold releasePending
  split <;> rfl

theorem applyAck_dialect (p : Peer) (seq : UInt16) (bitmap : Option (List UInt8)) :
    (applyAck p seq bitmap).1.dialect = p.dialect := by
  rcases applyAck_cases p seq bitmap with ⟨h, -⟩ | ⟨pd, bits, -, -, -, -, -, h⟩ | ⟨pd, -, -, -, h⟩
  · rw [h]
  · rw [h]
  · rw [h, releasePending_dialect]

theorem applyPiggyback_dialect (p : Peer) (f : AircFrame) :
    (applyPiggyback p f).1.dialect = p.dialect := by
  unfold applyPiggyback
  split
  · rfl
  · exact applyAck_dialect _ _ _

theorem helloReset_dialect (p : Peer) (f : AircFrame) : (helloReset p f).dialect = p.dialect := by
  unfold helloReset
  split_ifs <;> rfl

theorem receiveFragment_dialect (cfg : SessionConfig) (p : Peer) (f : AircFrame) (now : ℕ)
    (forUs : Bool) : (receiveFragment cfg p f now forUs).1.dialect = p.dialect := by
  simp only [receiveFragment]
  split_ifs
  · rfl
  · simp only [keepParts]
    split_ifs <;> rfl
  · simp only [finishParts]
    split_ifs <;> rfl

theorem receiveMessage_dialect (cfg : SessionConfig) (p : Peer) (f : AircFrame) (now : ℕ)
    (forUs : Bool) : (receiveMessage cfg p f now forUs).1.dialect = p.dialect := by
  have hacked : (if (forUs && f.wantsAck) = true then oweAck p f.seq none else p).dialect =
      p.dialect := by
    split_ifs <;> rfl
  simp only [receiveMessage]
  split_ifs <;> first | exact receiveFragment_dialect cfg p f now forUs | rfl

/-- Whoever sends an AIRC frame speaks AIRC. -/
theorem receive_dialect (cfg : SessionConfig) (p : Peer) (f : AircFrame) (now : ℕ) (forUs : Bool) :
    (p.receive cfg f now forUs).1.dialect = .airc := by
  have hafter : (applyPiggyback (helloReset p.noteAirc f) f).1.dialect = .airc := by
    rw [applyPiggyback_dialect, helloReset_dialect]
    rfl
  simp only [Peer.receive]
  split_ifs
  · split
    · exact hafter
    · rw [applyAck_dialect]
      exact hafter
  · rw [receiveMessage_dialect]
    exact hafter

theorem touched_dialect {s : Sessions} {call : Callsign} {now : ℕ} {p : Peer}
    (h : s.touched call now = some p) :
    p.dialect = ((s.peer call).map Peer.dialect).getD .aprs := by
  rw [Sessions.touched] at h
  rw [Sessions.peer]
  cases hp : s.peers.get call with
  | some old =>
    simp only [hp, Option.some.injEq] at h
    subst h
    rfl
  | none =>
    simp only [hp] at h
    split_ifs at h
    obtain rfl := Option.some.inj h
    rfl

theorem peerEnqueue_dialect (cfg : SessionConfig) (p : Peer) (seq : UInt16) (kind : Kind)
    (payload : List UInt8) (reliable : Bool) :
    (p.enqueue cfg seq kind payload reliable).1.dialect = p.dialect := by
  have htake : (takePiggyback cfg p reliable).2.dialect = p.dialect := by
    unfold takePiggyback
    split_ifs
    · split <;> rfl
    · rfl
  have hrestore : ∀ q : Peer, ∀ piggy, (restorePiggyback q piggy).dialect = q.dialect := by
    intro q piggy
    cases piggy <;> rfl
  simp only [Peer.enqueue]
  split_ifs
  · exact (hrestore _ _).trans htake
  · exact htake
  · exact (hrestore _ _).trans htake
  · exact (hrestore _ _).trans htake
  · exact htake

theorem abandon_dialect {p q : Peer} {frames : List AircFrame}
    (h : p.abandon = some (q, frames)) : q.dialect = p.dialect := by
  unfold Peer.abandon at h
  split at h
  · exact absurd h (by simp)
  · have hreleased := releasePending_dialect { p with dropped := p.dropped + 1 }
    rw [Option.some.inj h] at hreleased
    exact hreleased

theorem ticked_dialect {s : Sessions} {now : ℕ} {retry : Bool} {p q : Peer}
    (h : (s.ticked now retry p).1 = some q) : q.dialect = p.dialect := by
  have htick : (p.tick s.config now retry).1.dialect = p.dialect := by
    simp only [Peer.tick]
    split_ifs
    · rfl
    · rfl
    · split
      · rfl
      · split_ifs <;> rfl
  unfold Sessions.ticked at h
  split at h <;> rename_i heq
  · obtain rfl := Option.some.inj h
    rw [heq] at htick
    exact htick
  · exact absurd h (by simp)
  · split at h <;> rename_i hab
    · exact absurd h (by simp)
    · obtain rfl := Option.some.inj h
      rw [heq] at htick
      exact (abandon_dialect hab).trans htick

theorem peerOnKeyed_dialect (cfg : SessionConfig) (p : Peer) (seq : UInt16) (now : ℕ) :
    (p.onKeyed cfg seq now).dialect = p.dialect := by
  unfold Peer.onKeyed
  split
  · rfl
  · split_ifs <;> rfl

theorem note_dialect (p : Peer) (n : PeerNote) : (n.apply p).dialect = p.dialect := by
  cases n with
  | aprs =>
    simp only [PeerNote.apply, Peer.noteAprs]
    split_ifs with h
    · rfl
    · cases hd : p.dialect with
      | airc => exact absurd hd h
      | aprs => rfl
  | _ => rfl

/-- Whoever is known keeps its mark, and whoever is new has none. -/
def KeepsMarks (s t : Sessions) : Prop :=
  ∀ call p, t.peer call = some p → p.dialect = ((s.peer call).map Peer.dialect).getD .aprs

theorem KeepsMarks.of_peers {s t : Sessions} (h : t.peers = s.peers) : KeepsMarks s t := by
  intro call p hp
  rw [Sessions.peer, h] at hp
  rw [Sessions.peer, hp]
  rfl

theorem KeepsMarks.refl (s : Sessions) : KeepsMarks s s := .of_peers rfl

theorem KeepsMarks.store {s : Sessions} {call : Callsign} {p : Peer}
    (h : p.dialect = ((s.peer call).map Peer.dialect).getD .aprs) : KeepsMarks s (s.store call p) := by
  intro j q hq
  rw [Sessions.peer_store] at hq
  split_ifs at hq with hj
  · obtain rfl := Option.some.inj hq
    rw [hj]
    exact h
  · rw [hq]
    rfl

/-- What was there before may also be gone. -/
theorem KeepsMarks.of_kept {s t : Sessions}
    (h : ∀ call p, t.peer call = some p →
      ∃ old, s.peer call = some old ∧ p.dialect = old.dialect) : KeepsMarks s t := by
  intro call p hp
  obtain ⟨old, hold, hd⟩ := h call p hp
  rw [hold, hd]
  rfl

/-! ### What an operation does to the marks -/

/-- A unicast that is accepted. -/
def Accepts (g : Gateway) (dst : Callsign) (m : Addressed) : Prop :=
  g.available = true ∧ g.interlockDown = false ∧
    g.backlogHasRoom (g.wireOctets (m.payload dst).length) m.cls = true ∧
    (g.queuedBehind dst m.reliable = false →
      g.expectedFragments (m.payload dst) ≤ g.txRoomIn m.cls) ∧
    g.radio.sessions.accepts dst (m.payload dst) m.reliable = true

instance (g : Gateway) (dst : Callsign) (m : Addressed) : Decidable (Accepts g dst m) :=
  inferInstanceAs (Decidable (_ ∧ _))

/-- A unicast is accepted only for a station that is known to speak AIRC. -/
def KnownDialect (g : Gateway) : RadioOp → Prop
  | .unicast dst m _ => Accepts g dst m →
      (g.radio.sessions.peer dst).map Peer.dialect = some .airc
  | _ => True

instance (g : Gateway) (op : RadioOp) : Decidable (KnownDialect g op) := by
  induction op using RadioOp.casesOn <;> dsimp only [KnownDialect] <;> infer_instance

/-- An AIRC frame from the station. -/
def isFrameFrom (call : Callsign) : RadioOp → Bool
  | .receive src _ _ _ => src = call
  | _ => false

/-- The station was heard speaking AIRC since its record was made. -/
def heardStep (call : Callsign) (heard : Bool) (e : Gateway × RadioOp) : Bool :=
  ((AirTrace.perform e.1 e.2).radio.sessions.peer call).isSome && (heard || isFrameFrom call e.2)

def heardAirc (steps : List (Gateway × RadioOp)) (call : Callsign) : Bool :=
  steps.foldl (heardStep call) false

theorem queuing_marks {g g' : Gateway} (h : Queuing g g') :
    KeepsMarks g.radio.sessions g'.radio.sessions := by
  obtain ⟨added, h⟩ := h
  exact .of_peers h.sessions.peers

theorem identifies_marks {g g' : Gateway} (h : Identifies g g' ∨ Queues 0 g g') :
    KeepsMarks g.radio.sessions g'.radio.sessions :=
  .of_peers (h.elim (·.sessions.peers) (·.sessions.peers))

theorem enqueue_marks (s : Sessions) (dst : Callsign) (kind : Kind) (payload : List UInt8)
    (reliable : Bool) (now : ℕ) : KeepsMarks s (s.enqueue dst kind payload reliable now).1 := by
  have hevict : ∀ call p, (s.drawSeq.2.evictPeer dst).peer call = some p → s.peer call = some p := by
    intro call p hp
    rcases Sessions.evictPeer_peer s.drawSeq.2 dst call with h | ⟨-, h⟩
    · exact h.symm.trans hp
    · exact absurd (h.symm.trans hp) (by simp)
  have hdst : (s.drawSeq.2.evictPeer dst).peer dst = s.peer dst := by
    rcases Sessions.evictPeer_peer s.drawSeq.2 dst dst with h | ⟨h, -⟩
    · exact h
    · exact absurd rfl h
  simp only [Sessions.enqueue]
  split_ifs
  · exact .of_peers rfl
  · split <;> rename_i ht
    · exact .of_kept fun call p hp => ⟨p, hevict call p hp, rfl⟩
    · rename_i p
      intro j q hq
      rw [Sessions.peer_store] at hq
      split_ifs at hq with hj
      · obtain rfl := Option.some.inj hq
        rw [peerEnqueue_dialect, touched_dialect ht, hdst, hj]
      · rw [hevict j q hq]
        rfl

theorem unicast_marks {g : Gateway} {dst : Callsign} {m : Addressed} {now : ℕ}
    (h : KnownDialect g (.unicast dst m now)) :
    KeepsMarks g.radio.sessions (AirTrace.perform g (.unicast dst m now)).radio.sessions := by
  have henq := enqueue_marks g.radio.sessions dst m.kind (m.payload dst) m.reliable now
  simp only [AirTrace.perform]
  rcases g.unicastFlagged_cases dst m.kind (m.payload dst) m.reliable m.cls m.flags now with
    ⟨g', hg, hsame⟩ | ⟨havail, hlock, hroom, hfew, ⟨-, hg⟩ | ⟨hacc, hg⟩⟩
  · rw [hg]
    exact .of_peers hsame.sessions.peers
  · rw [hg]
    exact henq
  · have hairc := h ⟨havail, hlock, hroom, hfew, (Sessions.enqueue_accepted ..).symm.trans hacc⟩
    rw [hg, transmitAll_sessions]
    change KeepsMarks _ (Gateway.noteAirc _ dst)
    unfold Gateway.noteAirc
    split
    · exact henq
    · rename_i p hp
      intro j q hq
      rw [Sessions.peer_store] at hq
      split_ifs at hq with hj
      · obtain rfl := Option.some.inj hq
        rw [hj, hairc]
        rfl
      · exact henq j q hq

theorem drainKeyed_marks (g : Gateway) (now : ℕ) :
    KeepsMarks g.radio.sessions (g.drainKeyed now).radio.sessions := by
  have hall : ∀ (keyed : List Keyed) (s : Sessions) (call : Callsign) (p : Peer),
      (keyed.foldl (fun s k => s.onKeyed k.dest k.seq now) s).peer call = some p →
        ∃ old, s.peer call = some old ∧ p.dialect = old.dialect := by
    intro keyed
    induction keyed with
    | nil => exact fun s call p hp => ⟨p, hp, rfl⟩
    | cons k keyed ih =>
      intro s call p hp
      obtain ⟨q, hq, hd⟩ := ih _ call p hp
      rw [Sessions.onKeyed_peer] at hq
      split_ifs at hq
      · obtain ⟨old, hold, rfl⟩ := Option.map_eq_some_iff.mp hq
        exact ⟨old, hold, hd.trans (peerOnKeyed_dialect ..)⟩
      · exact ⟨q, hq, hd⟩
  exact .of_kept (hall g.keyed g.radio.sessions)

theorem tickSessions_marks (g : Gateway) (now : ℕ) :
    KeepsMarks g.radio.sessions (g.tickSessions now).radio.sessions := by
  simp only [Gateway.tickSessions]
  rw [transmitAll_sessions]
  refine .of_kept fun call p hp => ?_
  have hp' := (Sessions.tickRetries_peer g.radio.sessions now _ call).symm.trans hp
  obtain ⟨old, hold, ht⟩ := Option.bind_eq_some_iff.mp hp'
  exact ⟨old, hold, ticked_dialect ht⟩

theorem drainAcks_marks (g : Gateway) :
    KeepsMarks g.radio.sessions g.drainAcks.radio.sessions := by
  simp only [Gateway.drainAcks]
  rw [transmitAll_sessions]
  refine .of_kept fun call p hp => ?_
  have hp' := (Sessions.drainAcks_peer g.radio.sessions call).symm.trans hp
  obtain ⟨old, hold, rfl⟩ := Option.map_eq_some_iff.mp hp'
  exact ⟨old, hold, rfl⟩

/-- Only a frame of the station itself sets its mark. -/
theorem perform_marks {g : Gateway} {op : RadioOp} (h : KnownDialect g op)
    (hquiet : ∀ call, isFrameFrom call op = false) :
    KeepsMarks g.radio.sessions (AirTrace.perform g op).radio.sessions := by
  cases op with
  | broadcast b => exact queuing_marks (g.broadcastFlagged_queuing ..)
  | unicast dst m now => exact unicast_marks h
  | aprsChat dst body channel now => exact queuing_marks (g.enqueueAprsChat_queuing ..)
  | aprsAck dst msgid => exact queuing_marks (g.enqueueUi_queuing ..)
  | aprsRej dst msgid => exact queuing_marks (g.enqueueUi_queuing ..)
  | aprsReply dst text => exact queuing_marks (g.enqueueUi_queuing ..)
  | receive src f now forUs => exact absurd (hquiet src) (by simp [isFrameFrom])
  | drainAcks => exact drainAcks_marks g
  | aprsAnswered src id now => exact queuing_marks (g.onAprsAck_queuing ..)
  | touch call now =>
    simp only [AirTrace.perform]
    split
    · exact .refl _
    · rename_i p hp
      exact .store (touched_dialect hp)
  | note call n =>
    simp only [AirTrace.perform]
    split
    · exact .refl _
    · rename_i p hp
      refine .store ?_
      rw [note_dialect, hp]
      rfl
  | ban call | liftBan call | takeEvicted | refuse => exact .of_peers rfl
  | forget call =>
    refine .of_kept fun j p hp => ?_
    have hp' := (Table.get_erase g.radio.sessions.peers call j).symm.trans hp
    split_ifs at hp'
    exact ⟨p, hp', rfl⟩
  | drainKeyed now => exact drainKeyed_marks g now
  | tickSessions now => exact tickSessions_marks g now
  | tickAprs now => exact queuing_marks (g.tickAprs_queuing now)
  | maybeIdentify now => exact identifies_marks (g.maybeIdentify_cases now)
  | idIfNeeded now => exact identifies_marks (g.idIfNeeded_cases now)
  | identifyNow now => exact identifies_marks (g.identifyNow_cases now)
  | radioOff now => exact identifies_marks (g.radioOff_cases now)
  | radioOn => exact queuing_marks ⟨0, g.radioOn_queues⟩
  | limitDuty percent =>
    simp only [AirTrace.perform, overrideWith]
    split_ifs <;> exact .refl _
  | limitPacing ms =>
    simp only [AirTrace.perform, overrideWith]
    split_ifs <;> exact .refl _
  | pump e => exact .refl _

theorem receive_marks (g : Gateway) (src : Callsign) (f : AircFrame) (now : ℕ) (forUs : Bool)
    (call : Callsign) :
    (∀ p, (AirTrace.perform g (.receive src f now forUs)).radio.sessions.peer call = some p →
      p.dialect =
        if src = call then .airc else ((g.radio.sessions.peer call).map Peer.dialect).getD .aprs) := by
  intro p hp
  simp only [AirTrace.perform, Gateway.onReceive] at hp
  rw [transmitAll_sessions] at hp
  change (g.radio.sessions.onReceive src f now forUs).1.peer call = some p at hp
  split_ifs with hsrc
  · subst hsrc
    rcases Sessions.onReceive_cases g.radio.sessions src f now forUs with ⟨ht, hr⟩ | ⟨q, -, hr⟩
    · rw [hr] at hp
      rw [Sessions.touched] at ht
      cases hold : g.radio.sessions.peers.get src with
      | none => exact absurd (hold.symm.trans hp) (by simp)
      | some old => simp [hold] at ht
    · rw [hr, Sessions.peer_store, if_pos rfl] at hp
      obtain rfl := Option.some.inj hp
      exact receive_dialect ..
  · rw [Sessions.onReceive_peer _ (Ne.symm hsrc)] at hp
    rw [hp]
    rfl

/-! ### The marks follow what was heard -/

/-- The mark of every known station is that it was heard; nobody else counts as heard. -/
structure Marked (g : Gateway) (heard : Callsign → Bool) : Prop where
  known : ∀ call p, g.radio.sessions.peer call = some p →
    (p.dialect = .airc ↔ heard call = true)
  unknown : ∀ call, g.radio.sessions.peer call = none → heard call = false

theorem perform_marked {g : Gateway} {op : RadioOp} {heard : Callsign → Bool}
    (hop : KnownDialect g op) (h : Marked g heard) :
    Marked (AirTrace.perform g op) fun call => heardStep call (heard call) (g, op) := by
  have hold : ∀ call, ((g.radio.sessions.peer call).map Peer.dialect).getD .aprs = .airc ↔
      heard call = true := by
    intro call
    cases hp : g.radio.sessions.peer call with
    | none => simp [h.unknown call hp]
    | some p => simpa using h.known call p hp
  refine ⟨fun call p hp => ?_, fun call hp => by simp [heardStep, hp]⟩
  have hstep : heardStep call (heard call) (g, op) = (heard call || isFrameFrom call op) := by
    simp [heardStep, hp]
  rw [hstep]
  by_cases hr : ∃ src f now forUs, op = .receive src f now forUs
  · obtain ⟨src, f, now, forUs, rfl⟩ := hr
    rw [receive_marks g src f now forUs call p hp]
    by_cases hsrc : src = call
    · simp [isFrameFrom, hsrc]
    · simpa [isFrameFrom, hsrc] using hold call
  · have hquiet : ∀ c, isFrameFrom c op = false := by
      intro c
      cases op with
      | receive src f now forUs => exact absurd ⟨src, f, now, forUs, rfl⟩ hr
      | _ => rfl
    rw [perform_marks hop hquiet call p hp, hquiet call, Bool.or_false]
    exact hold call

theorem marked_throughout (ops : List RadioOp) :
    ∀ (g : Gateway) (heard : Callsign → Bool),
      (∀ e ∈ Air.befores g ops, KnownDialect e.1 e.2) → Marked g heard →
        Marked (ops.foldl AirTrace.perform g)
          fun call => (Air.befores g ops).foldl (heardStep call) (heard call) := by
  induction ops with
  | nil => exact fun g heard _ h => h
  | cons op ops ih =>
    intro g heard hops h
    have hop : KnownDialect g op := hops (g, op) List.mem_cons_self
    exact ih _ _ (fun e he => hops e (List.mem_cons_of_mem _ he)) (perform_marked hop h)

theorem start_marked (a : Air) : Marked a.start fun _ => false where
  known call p hp := absurd hp (by simp [Air.start, startGateway, Radio.new, Sessions.new, Sessions.peer])
  unknown call hp := rfl

/-- Whatever the server did with its radio: as long as it wrote AIRC to AIRC stations only, a
station's dialect is AIRC exactly when an AIRC frame of it was received since its record was
made. -/
theorem dialect_iff_heard (s : Server)
    (hknown : ∀ e ∈ s.outlet.air.steps, KnownDialect e.1 e.2) (call : Callsign) (p : Peer)
    (hp : s.outlet.peer call = some p) :
    p.dialect = .airc ↔ heardAirc s.outlet.air.steps call = true := by
  have h := marked_throughout s.outlet.air.performed s.outlet.air.start (fun _ => false) hknown
    (start_marked s.outlet.air)
  refine h.known call p ?_
  unfold ServerOutput.Outlet.peer ServerOutput.Outlet.sessions ServerOutput.Outlet.gateway at hp
  rw [s.outlet.air.faithful] at hp
  exact hp

open ServerRuns TransitionSystem in
/-- A station that only ever spoke APRS is removed from a channel: the error sent to it marks it. -/
theorem kicked_station_marked : ∃ s : Server,
    Reachable (system Small.noBeacon Eq) everyStep s ∧
      (s.outlet.peer Small.station).map Peer.dialect = some .airc ∧
      heardAirc s.outlet.air.steps Small.station = false := by
  let es := Small.joins 1 "ann" false ++ [.line 1 "OPER root secret",
    Small.aprs Small.station "#rf hello", .line 1 "KICK #rf SM0ABC|7"]
  have hruns : Small.Feasible es := by decide +kernel
  exact ⟨Small.run es, Small.reachable hruns, by decide +kernel, by decide +kernel⟩

/-- Both stations of the run: one says hello, the other sends APRS. -/
def twoStations : Server :=
  ServerRuns.Small.run [ServerRuns.Small.airc ServerRuns.Small.station .hello 1 ["SM0ABC".toList],
    ServerRuns.Small.aprs ⟨"SM0XYZ", 0⟩ "#rf hello"]

theorem dialect_iff_heard_two_stations :
    (∀ p, twoStations.outlet.peer ServerRuns.Small.station = some p →
      (p.dialect = .airc ↔
        heardAirc twoStations.outlet.air.steps ServerRuns.Small.station = true)) ∧
    (twoStations.outlet.peer ServerRuns.Small.station).isSome = true := by
  have hknown : ∀ e ∈ twoStations.outlet.air.steps, KnownDialect e.1 e.2 := by decide +kernel
  exact ⟨fun p hp => dialect_iff_heard twoStations hknown _ p hp, by decide +kernel⟩

end Dialects
