import Rfircd.RadioSessions

/-! The mark that a kick leaves in the record of a station.
Whatever is sent to the station or received from it leaves the mark alone, as long as there is the
record. -/
namespace KickMarks

open Basics Airc AircSession KeyedTable AirTrace RadioGateway RadioGateway.Gateway RadioSessions

variable {s t : Sessions} {call dst : Callsign} {channel : String}

/-! ### Records -/

theorem releasePending_kicked (p : Peer) : (releasePending p).1.kicked = p.kicked := by
  unfold releasePending startPending
  cases p.queue <;> rfl

theorem applyAck_kicked (p : Peer) (seq : UInt16) (bitmap : Option (List UInt8)) :
    (applyAck p seq bitmap).1.kicked = p.kicked := by
  obtain ⟨h, -⟩ | ⟨pd, bits, -, -, -, -, -, h⟩ | ⟨pd, -, -, -, h⟩ := applyAck_cases p seq bitmap
  · rw [h]
  · rw [h]
  · rw [h]
    exact releasePending_kicked p

theorem piggybacked_kicked (p : Peer) (f : AircFrame) : (p.piggybacked f).kicked = p.kicked := by
  have hreset : (helloReset p.noteAirc f).kicked = p.kicked := by
    unfold helloReset
    split_ifs <;> rfl
  unfold Peer.piggybacked applyPiggyback
  cases f.piggybackSeq with
  | none => exact hreset
  | some seq => exact (applyAck_kicked ..).trans hreset

theorem receiveFragment_kicked (cfg : SessionConfig) (p : Peer) (f : AircFrame) (now : ℕ)
    (forUs : Bool) : (receiveFragment cfg p f now forUs).1.kicked = p.kicked := by
  simp only [receiveFragment, keepParts, finishParts]
  split_ifs <;> rfl

theorem receiveMessage_kicked (cfg : SessionConfig) (p : Peer) (f : AircFrame) (now : ℕ)
    (forUs : Bool) : (receiveMessage cfg p f now forUs).1.kicked = p.kicked := by
  simp only [receiveMessage]
  split_ifs <;> first | rfl | exact receiveFragment_kicked ..

theorem receive_kicked (cfg : SessionConfig) (p : Peer) (f : AircFrame) (now : ℕ) (forUs : Bool) :
    (p.receive cfg f now forUs).1.kicked = p.kicked := by
  by_cases hk : f.kind = .ack
  · rw [receive_of_ack hk]
    cases parseAckPayload f.payload with
    | none => exact piggybacked_kicked p f
    | some ack => exact (applyAck_kicked ..).trans (piggybacked_kicked p f)
  · rw [receive_of_message hk]
    exact (receiveMessage_kicked ..).trans (piggybacked_kicked p f)

theorem enqueue_kicked (cfg : SessionConfig) (p : Peer) (seq : UInt16) (kind : Kind)
    (payload : List UInt8) (reliable : Bool) :
    (p.enqueue cfg seq kind payload reliable).1.kicked = p.kicked := by
  unfold Peer.enqueue
  obtain h | ⟨acked, -, -, -, h⟩ := takePiggyback_cases cfg p reliable
  all_goals
    simp only [h, restorePiggyback]
    split_ifs <;> rfl

/-! ### The table -/

/-- The station was kicked from the channel, and its record says so. -/
def Marked (s : Sessions) (call : Callsign) (channel : String) : Prop :=
  ∃ p, s.peer call = some p ∧ channel ∈ p.kicked

theorem store_marked {p : Peer} (h : Marked s call channel)
    (hp : ∀ q, s.peer dst = some q → channel ∈ q.kicked → channel ∈ p.kicked) :
    Marked (s.store dst p) call channel := by
  obtain ⟨q, hq, hmark⟩ := h
  by_cases hcall : call = dst
  · subst hcall
    exact ⟨p, (Sessions.peer_store ..).trans (if_pos rfl), hp q hq hmark⟩
  · exact ⟨q, (Sessions.peer_store ..).trans ((if_neg hcall).trans hq), hmark⟩

theorem touched_kicked {now : ℕ} {p q : Peer} (hp : s.touched call now = some p)
    (hq : s.peer call = some q) : p.kicked = q.kicked := by
  have hq' : s.peers.get call = some q := hq
  simp only [Sessions.touched, hq', Option.some.injEq] at hp
  rw [← hp]

theorem onReceive_marked (f : AircFrame) (now : ℕ) (forUs : Bool) (h : Marked s call channel) :
    Marked (s.onReceive dst f now forUs).1 call channel := by
  obtain ⟨-, heq⟩ | ⟨p, hp, heq⟩ := Sessions.onReceive_cases s dst f now forUs
  · rwa [heq]
  · rw [heq]
    refine store_marked h fun q hq hmark => ?_
    rw [receive_kicked, touched_kicked hp hq]
    exact hmark

/-- What is sent to the station itself pushes only others out. -/
theorem enqueue_marked (kind : Kind) (payload : List UInt8) (reliable : Bool) (now : ℕ)
    (h : Marked s call channel) :
    Marked (s.enqueue call kind payload reliable now).1 call channel := by
  obtain ⟨p, hp, hmark⟩ := h
  have hevicted : (s.drawSeq.2.evictPeer call).peer call = some p := by
    rcases Sessions.evictPeer_peer s.drawSeq.2 call call with heq | ⟨hne, -⟩
    · exact heq.trans hp
    · exact absurd rfl hne
  unfold Sessions.enqueue
  dsimp only
  split_ifs
  · exact ⟨p, hp, hmark⟩
  · split
    · exact ⟨p, hevicted, hmark⟩
    · rename_i q hq
      refine ⟨_, (Sessions.peer_store ..).trans (if_pos rfl), ?_⟩
      rw [enqueue_kicked, touched_kicked hq hevicted]
      exact hmark

/-- Nobody is pushed out for a station that has a record. -/
theorem enqueue_evicted (kind : Kind) (payload : List UInt8) (reliable : Bool) (now : ℕ)
    (h : (s.peer call).isSome = true) :
    (s.enqueue call kind payload reliable now).1.evicted = s.evicted := by
  have hknown : call ∈ s.peers.keys := Table.mem_keys_iff.mpr h
  have hkept : s.drawSeq.2.evictPeer call = s.drawSeq.2 := if_neg fun hnew => hnew.1 hknown
  unfold Sessions.enqueue
  dsimp only
  rw [hkept]
  split_ifs
  · rfl
  · split <;> rfl

/-! ### Operations -/

/-- Only a new membership takes a mark away. -/
theorem note_kicked {p : Peer} {n : PeerNote} (hn : ∀ channel, n ≠ .joined channel)
    (h : channel ∈ p.kicked) : channel ∈ (n.apply p).kicked := by
  cases n with
  | aprs =>
    rw [PeerNote.apply, Peer.noteAprs]
    split_ifs <;> exact h
  | joined other => exact absurd rfl (hn other)
  | kicked other => exact Finset.mem_insert_of_mem h
  | _ => exact h

theorem note_marked {n : PeerNote} (hn : ∀ channel, n ≠ .joined channel) {g : Gateway}
    (h : Marked g.radio.sessions call channel) :
    Marked (AirTrace.perform g (.note dst n)).radio.sessions call channel := by
  simp only [AirTrace.perform]
  split
  · exact h
  · rename_i p hp
    refine store_marked h fun q hq hmark => ?_
    obtain rfl := Option.some.inj (hp.symm.trans hq)
    exact note_kicked hn hmark

theorem touch_marked (now : ℕ) {g : Gateway} (h : Marked g.radio.sessions call channel) :
    Marked (AirTrace.perform g (.touch dst now)).radio.sessions call channel := by
  simp only [AirTrace.perform]
  split
  · exact h
  · rename_i p hp
    refine store_marked h fun q hq hmark => ?_
    rw [touched_kicked hp hq]
    exact hmark

theorem drew_marked (h : Marked s call channel) (hdrew : Drew s t) : Marked t call channel := by
  obtain ⟨p, hp, hmark⟩ := h
  exact ⟨p, by rw [Sessions.peer, hdrew.peers]; exact hp, hmark⟩

theorem attends_marked (call : Callsign) (channel : String) {op : RadioOp} (hop : Attends op)
    {g : Gateway}
    (h : Marked g.radio.sessions call channel) :
    Marked (AirTrace.perform g op).radio.sessions call channel := by
  cases op with
  | receive src f now forUs =>
    simp only [AirTrace.perform, Gateway.onReceive]
    rw [transmitAll_sessions]
    exact onReceive_marked f now forUs h
  | touch other now => exact touch_marked now h
  | note other n => exact note_marked (fun channel heq => by rw [heq] at hop; exact hop) h
  | aprsAck dst msgid =>
    rw [AirTrace.perform, Gateway.transmitUi, enqueueUi_sessions]
    exact h
  | aprsRej dst msgid =>
    rw [AirTrace.perform, Gateway.transmitUi, enqueueUi_sessions]
    exact h
  | _ => exact hop.elim

theorem unicast_marked (m : Addressed) (now : ℕ) {g : Gateway}
    (h : Marked g.radio.sessions call channel) :
    Marked (AirTrace.perform g (.unicast call m now)).radio.sessions call channel := by
  have hsent := enqueue_marked m.kind (m.payload call) m.reliable now h
  simp only [AirTrace.perform]
  rcases g.unicastFlagged_cases call m.kind (m.payload call) m.reliable m.cls m.flags now with
    ⟨g', hg, hsame⟩ | ⟨-, -, -, -, ⟨-, hg⟩ | ⟨-, hg⟩⟩
  · rw [hg]
    exact drew_marked h hsame.sessions
  · rw [hg]
    exact hsent
  · rw [hg, transmitAll_sessions]
    generalize (g.radio.sessions.enqueue call m.kind (m.payload call) m.reliable now).1 = sent at *
    show Marked (noteAirc sent call) call channel
    unfold noteAirc
    split
    · exact hsent
    · rename_i p hp
      refine store_marked hsent fun q hq hmark => ?_
      obtain rfl := Option.some.inj (hp.symm.trans hq)
      exact hmark

theorem unicast_evicted (m : Addressed) (now : ℕ) {g : Gateway}
    (h : (g.radio.sessions.peer call).isSome = true) :
    (AirTrace.perform g (.unicast call m now)).radio.sessions.evicted = g.radio.sessions.evicted := by
  have hsent := enqueue_evicted m.kind (m.payload call) m.reliable now h
  simp only [AirTrace.perform]
  rcases g.unicastFlagged_cases call m.kind (m.payload call) m.reliable m.cls m.flags now with
    ⟨g', hg, hsame⟩ | ⟨-, -, -, -, ⟨-, hg⟩ | ⟨-, hg⟩⟩
  · rw [hg]
    obtain ⟨seq, hseq⟩ := hsame.sessions
    change g'.radio.sessions.evicted = _
    rw [hseq]
  · rw [hg]
    exact hsent
  · rw [hg, transmitAll_sessions]
    refine Eq.trans ?_ hsent
    change (noteAirc _ call).evicted = _
    unfold noteAirc
    split <;> rfl

end KickMarks
