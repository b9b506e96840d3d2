import Rfircd.Configuration
import Rfircd.FragmentSizes
import Rfircd.HandedOver
import Rfircd.ServerInvariants

/-! The largest frame the pump takes. It is computed from `paclen`, which bounds the information
field of AIRC frames only. -/
namespace FrameLimit

open Basics Airc AircSession KeyedTable Ax25 TransmitPump RadioGateway AprsCodec AirTrace HandedOver
open Configuration FragmentSizes RoundTrip ServerOutput ServerCore ServerRuns ServerSteps
open ServerInvariants TransitionSystem

variable {cfg : SessionConfig} {p q : Peer} {f : AircFrame} {now : ℕ}

/-! ### What the session layer keeps -/

/-- Messages are cut to fit, and a bitmap has a bit for each of 255 parts at most. -/
structure Small (cfg : SessionConfig) (p : Peer) : Prop where
  outbox : ∀ frames ∈ p.outbox, ∀ f ∈ frames, f.payload.length ≤ cfg.maxPayload
  owed : ∀ o ∈ p.owedAck, ∀ bits ∈ o.bitmap, bits.length ≤ 32
  buffers : ∀ seq r, p.reasm.get seq = some r → r.parts.length ≤ 255

theorem small_new (now : ℕ) : Small cfg (Peer.new now) where
  outbox _ hf := absurd hf List.not_mem_nil
  owed _ ho := by cases ho
  buffers seq r hr := by simp [Peer.new] at hr

theorem Small.same (h : Small cfg p) (hin : SameInbox p q)
    (hout : ∀ frames ∈ q.outbox, frames ∈ p.outbox) : Small cfg q where
  outbox frames hf := h.outbox frames (hout frames hf)
  owed := hin.owedAck ▸ h.owed
  buffers := hin.reasm ▸ h.buffers

theorem Small.fromOutbox (h : Small cfg p) (hf : FromOutbox p.outbox f) :
    f.payload.length ≤ cfg.maxPayload := by
  obtain ⟨frames, hframes, g, hg, rfl | rfl⟩ := hf
  · exact h.outbox frames hframes _ hg
  · change g.payload.length ≤ cfg.maxPayload
    exact h.outbox frames hframes g hg

theorem length_bitmapFromParts {parts : List (Option (List UInt8))} (h : parts.length ≤ 255) :
    (bitmapFromParts parts).length ≤ 32 := by
  rw [bitmapFromParts, List.length_map, List.length_range]
  omega

theorem length_stored (cfg : SessionConfig) (now : ℕ) (p : Peer) (f : AircFrame) (addressedToUs : Bool) :
    (stored cfg p f now addressedToUs).parts.length ≤ 255 := by
  have hbuffer : ∀ reasm wantAck,
      (bufferFor reasm f now wantAck).parts.length = f.fragTotal.toNat := by
    intro reasm wantAck
    unfold bufferFor
    dsimp only
    split
    · exact List.length_replicate
    · split_ifs with hlength
      · exact List.length_replicate
      · exact not_not.mp hlength
  have hoctet := f.fragTotal.toNat_lt
  unfold stored storePart
  simp only [List.length_set, hbuffer]
  omega

theorem receiveFragment_small (h : Small cfg p) (f : AircFrame) (addressedToUs : Bool) :
    Small cfg (receiveFragment cfg p f now addressedToUs).1 := by
  have hbox := (receiveFragment_outbox cfg p f now addressedToUs).outbox
  have hstored := length_stored cfg now p f addressedToUs
  have hevict : ∀ seq r, (evictReasm p f.seq cfg.maxReasm).get seq = some r → r.parts.length ≤ 255 :=
    fun seq r hr => h.buffers seq r (get_evictReasm hr)
  refine ⟨hbox ▸ h.outbox, ?_, ?_⟩
  · rcases receiveFragment_cases cfg p f now addressedToUs with hr | ⟨-, hr⟩ | ⟨-, hr⟩
    · rw [hr]
      exact h.owed
    · rw [hr]
      rcases keepParts_owedAck cfg p f addressedToUs (stored cfg p f now addressedToUs) with
        howed | howed
      · exact howed ▸ h.owed
      · rw [howed]
        rintro _ ⟨rfl⟩ _ ⟨rfl⟩
        exact length_bitmapFromParts hstored
    · rw [hr]
      rcases finishParts_owedAck cfg p f addressedToUs (stored cfg p f now addressedToUs) with
        howed | howed
      · exact howed ▸ h.owed
      · rw [howed]
        rintro _ ⟨rfl⟩ _ hbits
        cases hbits
  · rcases receiveFragment_cases cfg p f now addressedToUs with hr | ⟨-, hr⟩ | ⟨-, hr⟩
    · rw [hr]
      exact h.buffers
    · rw [hr, keepParts_reasm]
      intro seq r hget
      rw [Table.get_set] at hget
      split_ifs at hget
      · exact Option.some.inj hget ▸ hstored
      · exact hevict seq r hget
    · rw [hr, finishParts_reasm]
      intro seq r hget
      rw [Table.get_erase] at hget
      split_ifs at hget
      exact hevict seq r hget

theorem receiveMessage_small (h : Small cfg p) (f : AircFrame) (addressedToUs : Bool) :
    Small cfg (receiveMessage cfg p f now addressedToUs).1 := by
  have hbox := (receiveMessage_outbox cfg p f now addressedToUs).outbox
  have hcomplete : ∀ q : Peer, q.outbox = p.outbox → q.reasm = p.reasm →
      (q.owedAck = p.owedAck ∨ q.owedAck = some ⟨f.seq, none⟩) → Small cfg q := by
    intro q hq hreasm howed
    refine ⟨hq ▸ h.outbox, ?_, hreasm ▸ h.buffers⟩
    rcases howed with howed | howed
    · exact howed ▸ h.owed
    · rw [howed]
      rintro _ ⟨rfl⟩ _ hbits
      cases hbits
  rcases receiveMessage_cases cfg p f now addressedToUs with
    ⟨q, deliver, duplicate, hr, -, -, hreasm, howed⟩ | ⟨q, hr, -, -, hreasm, howed⟩ | ⟨-, -, hr⟩
  · rw [hr] at hbox ⊢
    exact hcomplete q hbox hreasm howed
  · rw [hr] at hbox ⊢
    exact hcomplete q hbox hreasm howed
  · rw [hr]
    exact receiveFragment_small h f addressedToUs

theorem receive_small (h : Small cfg p) (f : AircFrame) (addressedToUs : Bool) :
    Small cfg (p.receive cfg f now addressedToUs).1 := by
  have hreset : Small cfg (helloReset p.noteAirc f) := by
    refine ⟨fun frames hf => h.outbox frames (helloReset_outbox p f frames hf), ?_, ?_⟩
    · unfold helloReset
      split_ifs
      · intro o ho
        cases ho
      · exact h.owed
    · unfold helloReset
      split_ifs
      · intro seq r hr
        simp at hr
      · exact h.buffers
  have hpiggy : Small cfg (p.piggybacked f) :=
    hreset.same (applyPiggyback_inbox _ f) (applyPiggyback_outbox _ f).1
  by_cases hk : f.kind = .ack
  · rw [receive_of_ack hk]
    cases parseAckPayload f.payload with
    | none => exact hpiggy
    | some ack => exact hpiggy.same (applyAck_inbox _ ack.1 ack.2) (applyAck_outbox _ ack.1 ack.2).1
  · rw [receive_of_message hk]
    exact receiveMessage_small hpiggy f addressedToUs

theorem fragments_payload {kind : Kind} {seq : UInt16} {reliable : Bool} {payload : List UInt8}
    {piggy : Bool}
    (h : f ∈ fragments kind seq reliable (chunkPayload payload cfg.maxPayload piggy)) :
    f.payload.length ≤ cfg.maxPayload := by
  obtain ⟨i, hi, rfl⟩ := List.mem_mapIdx.mp h
  exact length_chunkPayload (maxPayload_pos cfg) payload piggy _ (List.getElem_mem hi)

theorem enqueue_small (h : Small cfg p) (seq : UInt16) (kind : Kind) (payload : List UInt8)
    (reliable : Bool) : Small cfg (p.enqueue cfg seq kind payload reliable).1 ∧
      ∀ f ∈ (p.enqueue cfg seq kind payload reliable).2.frames,
        f.payload.length ≤ cfg.maxPayload := by
  have hcut : ∀ f ∈ fragments kind seq reliable (p.parts cfg payload reliable),
      f.payload.length ≤ cfg.maxPayload := fun f hf => fragments_payload hf
  have hqueued : ∀ frames ∈ p.queue, ∀ f ∈ frames, f.payload.length ≤ cfg.maxPayload :=
    fun frames hf => h.outbox frames (List.mem_append_right _ hf)
  rcases enqueue_cases cfg p seq kind payload reliable with ⟨q, heq, hin, hout⟩ | ⟨-, ⟨-, heq⟩ |
      ⟨-, -, -, heq⟩ | ⟨-, -, heq⟩ | ⟨acked, -, -, -, heq⟩⟩
  · rw [heq]
    exact ⟨h.same hin fun frames hf => hout.outbox ▸ hf, fun f hf => absurd hf List.not_mem_nil⟩
  · rw [heq]
    exact ⟨h, hcut⟩
  · rw [heq]
    refine ⟨⟨?_, h.owed, h.buffers⟩, fun f hf => absurd hf List.not_mem_nil⟩
    intro frames hf
    rcases List.mem_append.mp hf with hf | hf
    · exact h.outbox frames (List.mem_append_left _ hf)
    · rcases List.mem_append.mp hf with hf | hf
      · exact hqueued frames hf
      · exact List.mem_singleton.mp hf ▸ hcut
  · rw [heq]
    refine ⟨⟨?_, h.owed, h.buffers⟩, hcut⟩
    intro frames hf
    rcases List.mem_cons.mp hf with rfl | hf
    · exact hcut
    · exact hqueued frames hf
  · rw [heq]
    refine ⟨⟨?_, fun o ho => (by cases ho), h.buffers⟩, ?_⟩
    · intro frames hf
      rcases List.mem_cons.mp hf with rfl | hf
      · exact hcut
      · exact hqueued frames hf
    · intro f hf
      have hlengths := modifyHead_lengths
        (fragments kind seq reliable (p.parts cfg payload reliable)) acked
      have hmem : f.payload.length ∈ ((fragments kind seq reliable
          (p.parts cfg payload reliable)).modifyHead (·.attachPiggyback acked)).map
            fun f => f.payload.length := List.mem_map_of_mem hf
      rw [hlengths] at hmem
      obtain ⟨d, hd, heq⟩ := List.mem_map.mp hmem
      exact heq ▸ hcut d hd

/-! ### All stations -/

def AllSmall (s : Sessions) : Prop := ∀ call p, s.peer call = some p → Small s.config p

variable {s t : Sessions}

theorem AllSmall.record (h : AllSmall s) (call : Callsign) : Small s.config (s.record call) := by
  unfold Sessions.record
  cases hp : s.peer call with
  | none => exact small_new 0
  | some p => exact h call p hp

theorem AllSmall.touched (h : AllSmall s) {call : Callsign} (ht : s.touched call now = some p) :
    Small s.config p := by
  obtain ⟨hin, hout, -⟩ := Sessions.touched_same ht
  exact (h.record call).same hin fun frames hf => hout.outbox ▸ hf

theorem AllSmall.store (h : AllSmall s) (hp : Small s.config p) (call : Callsign) :
    AllSmall (s.store call p) := by
  intro j q hq
  rw [Sessions.peer_store] at hq
  split_ifs at hq
  · exact Option.some.inj hq ▸ hp
  · exact h j q hq

theorem AllSmall.filterMap (h : AllSmall s) {f : Callsign → Peer → Option Peer}
    (hf : ∀ call p q, Small s.config p → f call p = some q → Small s.config q) :
    AllSmall { s with peers := s.peers.filterMap f } := by
  intro call q hq
  rw [Sessions.peer, Table.get_filterMap, Option.bind_eq_some_iff] at hq
  obtain ⟨p, hp, hq⟩ := hq
  exact hf call p q (h call p hp) hq

theorem AllSmall.drew (h : AllSmall s) (hd : Drew s t) : AllSmall t := by
  obtain ⟨seq, rfl⟩ := hd
  exact h

theorem expireReasm_acks (h : Small cfg p) (hf : f ∈ (expireReasm cfg p now).2) :
    f.payload.length ≤ 34 := by
  obtain ⟨e, he, rfl⟩ := List.mem_map.mp hf
  have hparts := h.buffers e.1 e.2 (Table.mem_entries_iff.mp (List.mem_filter.mp he).1)
  have hbits := length_bitmapFromParts hparts
  simp only [ackWithBitmap, AircFrame.new, toBeBytes, List.length_append, List.length_cons,
    List.length_nil]
  omega

theorem owed_ack {o : OwedAck} (h : Small cfg p) (ho : p.owedAck = some o) :
    o.toFrame.payload.length ≤ 34 := by
  unfold OwedAck.toFrame
  split
  · simp [ackFor, AircFrame.new, toBeBytes]
  · rename_i bits hbits
    have hlength := h.owed o ho bits hbits
    simp only [ackWithBitmap, AircFrame.new, toBeBytes, List.length_append, List.length_cons,
      List.length_nil]
    omega

/-- What the session layer has sent at once. -/
def Short (cfg : SessionConfig) (f : AircFrame) : Prop := f.payload.length ≤ max cfg.maxPayload 34

theorem enqueue_allSmall (h : AllSmall s) (dst : Callsign) (kind : Kind) (payload : List UInt8)
    (reliable : Bool) : AllSmall (s.enqueue dst kind payload reliable now).1 ∧
      (s.enqueue dst kind payload reliable now).1.config = s.config ∧
      ∀ f ∈ (s.enqueue dst kind payload reliable now).2.frames, Short s.config f := by
  obtain ⟨t, hconfig, hpeers, heq | ⟨p, hin, hout, heq⟩⟩ :=
    s.enqueue_cases dst kind payload reliable now
  all_goals
    have ht : AllSmall t := by
      intro call q hq
      rw [hconfig]
      rcases hpeers call with hsame | ⟨-, hnone⟩
      · exact h call q (hsame ▸ hq)
      · rw [hnone] at hq
        cases hq
  · rw [heq]
    exact ⟨ht, hconfig, fun f hf => absurd hf List.not_mem_nil⟩
  · have hp : Small s.config p := (h.record dst).same hin fun frames hf => hout.outbox ▸ hf
    obtain ⟨hkept, hframes⟩ := enqueue_small hp s.nextSeq kind payload reliable
    rw [heq]
    refine ⟨ht.store (hconfig ▸ hkept) dst, hconfig, fun f hf => ?_⟩
    exact (hframes f hf).trans (le_max_left _ _)

theorem onReceive_allSmall (h : AllSmall s) (src : Callsign) (f : AircFrame) (forUs : Bool) :
    AllSmall (s.onReceive src f now forUs).1 ∧
      ∀ next ∈ (s.onReceive src f now forUs).2.transmit, Short s.config next := by
  obtain ⟨-, heq⟩ | ⟨p, ht, heq⟩ := s.onReceive_cases src f now forUs
  · rw [heq]
    exact ⟨h, fun next hnext => absurd hnext List.not_mem_nil⟩
  · have hp := h.touched ht
    rw [heq]
    refine ⟨h.store (receive_small hp f forUs) src, fun next hnext => ?_⟩
    exact (hp.fromOutbox ((receive_outbox s.config p f now forUs).2 next hnext)).trans
      (le_max_left _ _)

theorem tickRetries_allSmall (h : AllSmall s) (retry : Bool) :
    AllSmall (s.tickRetries now retry).1 ∧
      ∀ e ∈ (s.tickRetries now retry).2.transmit, Short s.config e.2 := by
  refine ⟨h.filterMap fun call p q hp hq => ?_, fun e he => ?_⟩
  · obtain ⟨-, howed, hreasm, hadvances⟩ := ticked_after hq
    refine ⟨fun frames hf => hp.outbox frames (hadvances.outbox frames hf), howed ▸ hp.owed, ?_⟩
    intro seq r hr
    rw [hreasm, expireReasm, Table.get_filterMap, Option.bind_eq_some_iff] at hr
    obtain ⟨r', hget, hkept⟩ := hr
    split_ifs at hkept
    exact Option.some.inj hkept ▸ hp.buffers seq r' hget
  · obtain ⟨call, f⟩ := e
    obtain ⟨p, hp, hf | hf⟩ := Sessions.mem_tickRetries he
    · exact ((h call p hp).fromOutbox hf).trans (le_max_left _ _)
    · exact (expireReasm_acks (h call p hp) hf).trans (le_max_right _ _)

theorem drainAcks_allSmall (h : AllSmall s) :
    AllSmall s.drainAcks.1 ∧ ∀ e ∈ s.drainAcks.2, Short s.config e.2 := by
  refine ⟨h.filterMap fun call p q hp hq => ?_, fun e he => ?_⟩
  · obtain rfl := Option.some.inj hq
    exact ⟨hp.outbox, fun o ho => (by cases ho), hp.buffers⟩
  · obtain ⟨call, f⟩ := e
    obtain ⟨p, o, hp, ho, rfl⟩ := Sessions.mem_drainAcks he
    exact (owed_ack (h call p hp) ho).trans (le_max_right _ _)

theorem onKeyed_allSmall (h : AllSmall s) (dest : Callsign) (seq : UInt16) :
    AllSmall (s.onKeyed dest seq now) := by
  unfold Sessions.onKeyed
  cases hp : s.peers.get dest with
  | none => exact h
  | some p =>
    exact h.store ((h dest p hp).same (onKeyed_inbox ..) (onKeyed_advances ..).outbox) dest

/-! ### Every operation -/

/-- The table stays so, under the same configuration. -/
structure Remains (s t : Sessions) : Prop where
  config : t.config = s.config
  small : AllSmall s → AllSmall t

theorem Remains.refl (s : Sessions) : Remains s s := ⟨rfl, id⟩

theorem Remains.trans {r : Sessions} (h : Remains s t) (h' : Remains t r) : Remains s r :=
  ⟨h'.config.trans h.config, fun hs => h'.small (h.small hs)⟩

theorem drew_remains (h : Drew s t) : Remains s t := by
  obtain ⟨seq, rfl⟩ := h
  exact ⟨rfl, id⟩

theorem queuing_remains {g g' : Gateway} (h : Queuing g g') :
    Remains g.radio.sessions g'.radio.sessions := by
  obtain ⟨added, h⟩ := h
  exact drew_remains h.sessions

theorem identifies_remains {g g' : Gateway} (h : Gateway.Identifies g g' ∨ Queues 0 g g') :
    Remains g.radio.sessions g'.radio.sessions := drew_remains (h.elim (·.sessions) (·.sessions))

/-- Notes leave both halves of a record as they are. -/
theorem note_remains {call : Callsign} (hp : s.peer call = some p) (hin : SameInbox p q)
    (hout : SameOutbox p q) : Remains s (s.store call q) := by
  refine ⟨rfl, fun h => h.store ?_ call⟩
  exact (h call p hp).same hin fun frames hf => hout.outbox ▸ hf

theorem noteAirc_remains (s : Sessions) (dst : Callsign) : Remains s (Gateway.noteAirc s dst) := by
  unfold Gateway.noteAirc
  split
  · exact .refl s
  · rename_i p hp
    exact note_remains hp ⟨rfl, rfl, rfl⟩ ⟨rfl, rfl⟩

theorem noted_same (p : Peer) (n : PeerNote) : SameInbox p (n.apply p) ∧ SameOutbox p (n.apply p) := by
  cases n with
  | aprs =>
    rw [PeerNote.apply, Peer.noteAprs]
    split_ifs <;> exact ⟨⟨rfl, rfl, rfl⟩, ⟨rfl, rfl⟩⟩
  | _ => exact ⟨⟨rfl, rfl, rfl⟩, ⟨rfl, rfl⟩⟩

theorem drainKeyed_remains (keyed : List Keyed) (s : Sessions) (now : ℕ) :
    Remains s (keyed.foldl (fun s k => s.onKeyed k.dest k.seq now) s) := by
  induction keyed generalizing s with
  | nil => exact .refl s
  | cons k keyed ih =>
    have hone : Remains s (s.onKeyed k.dest k.seq now) := by
      refine ⟨?_, fun h => onKeyed_allSmall h k.dest k.seq⟩
      unfold Sessions.onKeyed
      split <;> rfl
    exact hone.trans (ih _)

theorem unicast_remains (g : Gateway) (dst : Callsign) (m : Addressed) (now : ℕ) :
    Remains g.radio.sessions (AirTrace.perform g (.unicast dst m now)).radio.sessions := by
  have hsent : Remains g.radio.sessions
      (g.radio.sessions.enqueue dst m.kind (m.payload dst) m.reliable now).1 := by
    refine ⟨?_, fun h => (enqueue_allSmall h ..).1⟩
    obtain ⟨t, hconfig, -, heq | ⟨p, -, -, heq⟩⟩ :=
      g.radio.sessions.enqueue_cases dst m.kind (m.payload dst) m.reliable now
    · rw [heq]
      exact hconfig
    · rw [heq]
      exact hconfig
  simp only [AirTrace.perform]
  rcases g.unicastFlagged_cases dst m.kind (m.payload dst) m.reliable m.cls m.flags now with
    ⟨g', hg, hsame⟩ | ⟨-, -, -, -, ⟨-, hg⟩ | ⟨-, hg⟩⟩
  · rw [hg]
    exact drew_remains hsame.sessions
  · rw [hg]
    exact hsent
  · rw [hg, Gateway.transmitAll_sessions]
    exact hsent.trans (noteAirc_remains ..)

theorem perform_remains (g : Gateway) (op : RadioOp) :
    Remains g.radio.sessions (AirTrace.perform g op).radio.sessions := by
  cases op with
  | broadcast b => exact queuing_remains (g.broadcastFlagged_queuing ..)
  | unicast dst m now => exact unicast_remains g dst m now
  | aprsChat dst body channel now => exact queuing_remains (g.enqueueAprsChat_queuing ..)
  | aprsAck dst msgid => exact queuing_remains (g.enqueueUi_queuing ..)
  | aprsRej dst msgid => exact queuing_remains (g.enqueueUi_queuing ..)
  | aprsReply dst text => exact queuing_remains (g.enqueueUi_queuing ..)
  | receive src f now forUs =>
    simp only [AirTrace.perform, Gateway.onReceive]
    rw [Gateway.transmitAll_sessions]
    refine ⟨?_, fun h => (onReceive_allSmall h src f forUs).1⟩
    obtain ⟨-, heq⟩ | ⟨p, -, heq⟩ := g.radio.sessions.onReceive_cases src f now forUs
    · exact congrArg (·.1.config) heq
    · exact congrArg (·.1.config) heq
  | drainAcks =>
    simp only [AirTrace.perform, Gateway.drainAcks]
    rw [Gateway.transmitAll_sessions]
    exact ⟨rfl, fun h => (drainAcks_allSmall h).1⟩
  | aprsAnswered src id now => exact queuing_remains (g.onAprsAck_queuing ..)
  | touch call now =>
    simp only [AirTrace.perform]
    split
    · exact .refl _
    · rename_i p hp
      exact ⟨rfl, fun h => h.store (h.touched hp) call⟩
  | note call n =>
    simp only [AirTrace.perform]
    split
    · exact .refl _
    · rename_i p hp
      exact note_remains hp (noted_same p n).1 (noted_same p n).2
  | ban call | liftBan call | takeEvicted => exact ⟨rfl, id⟩
  | forget call =>
    refine ⟨rfl, fun h => h.filterMap fun j p q hp hq => ?_⟩
    split_ifs at hq
    exact Option.some.inj hq ▸ hp
  | refuse => exact .refl _
  | drainKeyed now => exact drainKeyed_remains g.keyed g.radio.sessions now
  | tickSessions now =>
    simp only [AirTrace.perform, Gateway.tickSessions]
    rw [Gateway.transmitAll_sessions]
    exact ⟨rfl, fun h => (tickRetries_allSmall h _).1⟩
  | tickAprs now => exact queuing_remains (g.tickAprs_queuing now)
  | maybeIdentify now => exact identifies_remains (g.maybeIdentify_cases now)
  | idIfNeeded now => exact identifies_remains (g.idIfNeeded_cases now)
  | identifyNow now => exact identifies_remains (g.identifyNow_cases now)
  | radioOff now => exact identifies_remains (g.radioOff_cases now)
  | radioOn => exact queuing_remains ⟨0, g.radioOn_queues⟩
  | limitDuty percent =>
    simp only [AirTrace.perform, overrideWith]
    split_ifs <;> exact .refl _
  | limitPacing ms =>
    simp only [AirTrace.perform, overrideWith]
    split_ifs <;> exact .refl _
  | pump e => exact .refl _

/-! ### The largest frame -/

/-- The frame is not longer than the pump takes. -/
def Taken (n : ℕ) (_ : TransmitScheduler.Class) (ax : Ax25Frame) : Prop := ax.octets ≤ n

/-- The octets that are left for the information field. -/
def infoRoom (c : ServerConfig) : ℕ :=
  (tncFromConfig c).maxFrame - (addressLen * (2 + c.radio.path.length) + 2)

theorem ui_octets {source dest : Callsign} {path : List Callsign} {info : List UInt8} {ax : Ax25Frame}
    (h : Ax25Frame.ui source dest path info = some ax) :
    ax.octets = addressLen * (2 + path.length) + 2 + info.length := by
  unfold Ax25Frame.ui at h
  split_ifs at h
  obtain rfl := Option.some.inj h
  simp only [Ax25Frame.octets, List.length_map, Option.toList_some, List.length_singleton]

variable {c : Config}

theorem room_for_info (h : Radiable c.server) :
    addressLen * (2 + c.server.radio.path.length) + 2 + infoRoom c.server =
      (tncFromConfig c.server).maxFrame ∧ c.server.radio.sessions.paclen + 34 ≤ infoRoom c.server := by
  have hpath := h.path
  have hpaclen := h.paclen.1
  unfold infoRoom
  simp only [tncFromConfig, addressLen]
  omega

/-- A frame is taken exactly when its information field fits. -/
theorem makes_taken_iff (h : Radiable c.server) {cls : TransmitScheduler.Class} {info : List UInt8} :
    Makes (Taken (tncFromConfig c.server).maxFrame) c.server.radio.path cls info ↔
      info.length ≤ infoRoom c.server := by
  have hroom := (room_for_info h).1
  constructor
  · intro hmakes
    have hpath := h.path
    obtain ⟨ax, hax⟩ : ∃ ax, Ax25Frame.ui aprsDestination aprsDestination c.server.radio.path info =
        some ax := by
      refine ⟨_, if_neg ?_⟩
      unfold maxDigipeaters
      omega
    have htaken := hmakes _ _ ax hax
    unfold Taken at htaken
    rw [ui_octets hax] at htaken
    omega
  · intro hinfo source dest ax hax
    unfold Taken
    rw [ui_octets hax]
    omega

theorem short_fits (h : Radiable c.server) (hf : Short c.server.radio.sessions f) :
    f.encode.length ≤ infoRoom c.server := by
  have hroom := (room_for_info h).2
  have hpaclen := h.paclen.1
  have hpiggy : (if f.piggybackSeq.isSome then 2 else 0 : ℕ) ≤ 2 := by split_ifs <;> omega
  unfold Short SessionConfig.maxPayload headerLen at hf
  rw [length_encode, headerLen]
  omega

/-! ### What is bounded by nothing but its text -/

/-- APRS messages and the identification fit. A message number has five characters at most. -/
def Fits (c : ServerConfig) : RadioOp → Prop
  | .aprsChat dst body _ _ => (messageInfo dst body []).length + 5 ≤ infoRoom c
  | .aprsAck dst msgid => (ackInfo dst msgid).length ≤ infoRoom c
  | .aprsRej dst msgid => (rejInfo dst msgid).length ≤ infoRoom c
  | .aprsReply dst text => (replyInfo dst text).length ≤ infoRoom c
  | .maybeIdentify _ | .idIfNeeded _ | .identifyNow _ | .radioOff _ =>
    (idFrame c.radio 0).encode.length ≤ infoRoom c
  | _ => True

theorem length_messageInfo (dst : Callsign) (text id : Text) :
    (messageInfo dst (text.take 67) id).length =
      (messageInfo dst text []).length + (utf8 id).length := by
  simp only [messageInfo, utf8, List.take_take, min_self, List.flatMap_append, List.flatMap_cons,
    List.length_append, List.flatMap_nil, List.length_nil]
  omega

theorem hands_of_fits (h : Radiable c.server) {g : Gateway}
    (hcfg : g.radio.cfg = c.server.radio) (hconfig : g.radio.sessions.config = c.server.radio.sessions)
    (hsmall : AllSmall g.radio.sessions) {op : RadioOp} (hop : Fits c.server op) :
    Hands (Taken (tncFromConfig c.server).maxFrame) g op := by
  have hinfo : ∀ info, info.length ≤ infoRoom c.server → ∀ cls,
      Makes (Taken (tncFromConfig c.server).maxFrame) g.radio.cfg.path cls info := by
    intro info hlength cls
    rwa [hcfg, makes_taken_iff h]
  have hshort : ∀ f, Short g.radio.sessions.config f → ∀ cls,
      Makes (Taken (tncFromConfig c.server).maxFrame) g.radio.cfg.path cls f.encode :=
    fun f hf => hinfo _ (short_fits h (hconfig ▸ hf))
  cases op with
  | broadcast b =>
    intro f hf
    refine hshort f ?_ _
    obtain ⟨i, hi, rfl⟩ := List.mem_mapIdx.mp hf
    exact (length_broadcastChunks g b.payload _ (List.getElem_mem hi)).trans (le_max_left _ _)
  | unicast dst m now =>
    intro f hf
    have hf' : Short g.radio.sessions.config f := (enqueue_allSmall hsmall ..).2.2 f hf
    exact hshort (f.withFlags m.flags) hf' _
  | aprsChat dst body channel now =>
    intro id hid
    refine hinfo _ ?_ _
    rw [length_messageInfo]
    exact (Nat.add_le_add_left hid _).trans hop
  | aprsAck dst msgid => exact hinfo _ hop _
  | aprsRej dst msgid => exact hinfo _ hop _
  | aprsReply dst text => exact hinfo _ hop _
  | receive src f now forUs =>
    intro next hnext
    exact (hshort next ((onReceive_allSmall hsmall src f forUs).2 next hnext) _).now src
  | drainAcks => exact fun e he => hshort e.2 ((drainAcks_allSmall hsmall).2 e he) _
  | tickSessions now => exact fun e he => hshort e.2 ((tickRetries_allSmall hsmall _).2 e he) _
  | maybeIdentify | idIfNeeded | identifyNow | radioOff =>
    intro seq
    refine hinfo _ ?_ _
    have hlength : (idFrame c.server.radio seq).encode.length =
        (idFrame c.server.radio 0).encode.length := by
      rw [length_encode, length_encode]
      rfl
    rw [hcfg, hlength]
    exact hop
  | aprsAnswered | touch | note | ban | liftBan | forget | takeEvicted | refuse | drainKeyed
  | tickAprs | radioOn | limitDuty | limitPacing | pump => exact trivial

/-- The invariant. -/
structure Sized (c : ServerConfig) (g : Gateway) : Prop where
  keeps : Keeps (Taken (tncFromConfig c).maxFrame) c.radio (tncFromConfig c) g
  config : g.radio.sessions.config = c.radio.sessions
  small : AllSmall g.radio.sessions

theorem perform_sized (hc : Radiable c.server) {g : Gateway} {op : RadioOp} (hop : Fits c.server op)
    (h : Sized c.server g) : Sized c.server (AirTrace.perform g op) := by
  have hremains := perform_remains g op
  refine ⟨?_, hremains.config.trans h.config, hremains.small h.small⟩
  exact perform_keeps h.keeps (hands_of_fits hc h.keeps.config h.config h.small hop)

theorem sized_start (c : ServerConfig) (attached : Bool) :
    Sized c (startGateway c.radio attached (tncFromConfig c)) where
  keeps := keeps_start ..
  config := rfl
  small call p hp := by
    have hnone : (startGateway c.radio attached (tncFromConfig c)).radio.sessions.peer call = none := rfl
    rw [hnone] at hp
    cases hp

/-- The pump finds none of the frames too long. -/
theorem Sized.not_oversized {c : ServerConfig} {g : Gateway} (h : Sized c g)
    (e : TransmitPump.Event) (item : TransmitScheduler.Queued Ax25Frame) :
    .dropped item .oversized ∉ (g.pump.next e).2 := by
  have hother : ∀ (out : List (TransmitScheduler.Queued Ax25Frame)) why, why ≠ .oversized →
      Fate.dropped item .oversized ∉ out.map (.dropped · why) := by
    intro out why hwhy hmem
    obtain ⟨x, -, heq⟩ := List.mem_map.mp hmem
    exact hwhy (Fate.dropped.inj heq).2
  have hnone : Fate.dropped item .oversized ∉ [] := List.not_mem_nil
  cases e with
  | step written =>
    simp only [Pump.next]
    unfold Pump.advancePhase
    split
    · unfold Pump.drainInhibited
      dsimp only
      split_ifs
      · exact hother _ _ (by decide)
      · exact hnone
    · exact hnone
    · exact hother _ _ (by decide)
    · exact hnone
    · exact hnone
    · exact hnone
    · exact hnone
    · exact hnone
    · exact hnone
    · exact hnone
    · rename_i now x hphase
      -- the frame in hand is one of those that fit
      have hx : x.payload.octets ≤ g.pump.cfg.maxFrame := by
        rw [h.keeps.settings]
        exact h.keeps.held x (Multiset.mem_add.mpr (.inr (by simp [hphase, Phase.inHand])))
      unfold Pump.decide
      split_ifs with hinhibit hlong
      · exact hother [x] .inhibited (by decide)
      · exact absurd hx (not_le.mpr hlong)
      · split
        · exact hnone
        · split_ifs
          · exact hother [x] .deferred (by decide)
          · exact hnone
    · rename_i now x hphase
      unfold Pump.key
      split_ifs
      · exact hnone
      · exact hnone
      · intro hmem
        cases List.mem_singleton.mp hmem
    · exact hnone
  | enqueue x =>
    simp only [Pump.next]
    split <;> exact hnone
  | woken | timer | read | heard | linkDown | unlock | setInhibit | setInterlock | setDutyOverride
  | setPacingOverride | notify | advance => exact hnone

/-- None of the frames is too long, and the pump drops none as too long. -/
structure AllTaken (c : ServerConfig) (g : Gateway) : Prop where
  held : ∀ x ∈ g.pump.held, x.payload.octets ≤ (tncFromConfig c).maxFrame
  kept : ∀ e item, .dropped item .oversized ∉ (g.pump.next e).2

theorem Sized.allTaken {c : ServerConfig} {g : Gateway} (h : Sized c g) : AllTaken c g :=
  ⟨h.keeps.held, h.not_oversized⟩

/-! ### Runs -/

/-- The radio goes on with the configuration of the start. -/
structure SameRadio (s t : Server) : Prop where
  cfg : t.outlet.air.cfg = s.outlet.air.cfg
  tnc : t.outlet.air.tnc = s.outlet.air.tnc

variable {L : Licence} {s t : Server} {verifies : Text → Text → Prop} {reader : Bridge.BeaconReader}

theorem outletStep_sameRadio {o : Outlet} (hstep : OutletStep L.toOutletLicence s.outlet o) :
    o.air.cfg = s.outlet.air.cfg ∧ o.air.tnc = s.outlet.air.tnc := by
  cases hstep with
  | book hcore =>
    have hair : o.air = s.outlet.air := congrArg Core.air hcore
    rw [hair]
    exact ⟨rfl, rfl⟩
  | _ => exact ⟨rfl, rfl⟩

theorem step_sameRadio (hstep : Step L s t) : SameRadio s t := by
  rcases step_outlet hstep with hsame | hstep | ⟨call, -, hforgotten⟩
  · exact ⟨by rw [hsame], by rw [hsame]⟩
  · obtain ⟨hcfg, htnc⟩ := outletStep_sameRadio hstep
    exact ⟨hcfg, htnc⟩
  · exact ⟨by rw [hforgotten]; rfl, by rw [hforgotten]; rfl⟩

theorem steps_sameRadio (hsteps : Steps L s t) : SameRadio s t := by
  induction hsteps with
  | refl => exact ⟨rfl, rfl⟩
  | tail _ hstep ih =>
    have hlast := step_sameRadio hstep
    exact ⟨hlast.cfg.trans ih.cfg, hlast.tnc.trans ih.tnc⟩

theorem execution_sameRadio {guard : Server → Moment × ServerRuns.Event → Prop}
    (h : Execution (system reader verifies) guard s t) (hs : Grounded s) : SameRadio s t := by
  have hboth : Grounded t ∧ SameRadio s t := by
    induction h with
    | refl => exact ⟨hs, rfl, rfl⟩
    | tail _ hguard hstep ih =>
      obtain ⟨he, rfl⟩ := hstep
      refine ⟨grounded_inductive.step _ _ _ ih.1 hguard ⟨he, rfl⟩, ?_, ?_⟩
      · exact (steps_sameRadio (next_anything ih.1 he)).cfg.trans ih.2.cfg
      · exact (steps_sameRadio (next_anything ih.1 he)).tnc.trans ih.2.tnc
  exact hboth.2

/-- The server as it starts on a configuration. -/
def boot (c : Config) (attached : Bool) (accounts : Accounts.Store) (unix : ℕ) : Server :=
  .new c.server attached (tncFromConfig c.server) accounts unix

theorem boot_initial (c : Config) (attached : Bool) (accounts : Accounts.Store) (unix : ℕ) :
    Initial (boot c attached accounts unix) :=
  ⟨c.server, attached, tncFromConfig c.server, accounts, unix, rfl⟩

/-- A frame is taken exactly when its information field fits. AIRC frames always do; a run in which
the APRS messages and the identification do has no frame that is too long. -/
theorem queued_frames_fit {attached : Bool} {accounts : Accounts.Store} {unix : ℕ} (hc : Accepted c)
    (h : Execution (system reader verifies) everyStep (boot c attached accounts unix) s) :
    (∀ source dest info ax, Ax25Frame.ui source dest c.server.radio.path info = some ax →
      (ax.octets ≤ (tncFromConfig c.server).maxFrame ↔ info.length ≤ infoRoom c.server)) ∧
    ((∀ e ∈ s.outlet.air.steps, Fits c.server e.2) →
      (∀ e ∈ s.outlet.air.steps, AllTaken c.server e.1) ∧ AllTaken c.server s.outlet.gateway) := by
  have hstep : ∀ g op, Fits c.server op → Sized c.server g → Sized c.server (AirTrace.perform g op) :=
    fun g op hop h => perform_sized hc.radiable hop h
  have hsame := execution_sameRadio h (initial_grounded (boot_initial c attached accounts unix))
  have hcfg : s.outlet.air.cfg = c.server.radio := hsame.cfg
  have htnc : s.outlet.air.tnc = tncFromConfig c.server := hsame.tnc
  have hstart : Sized c.server s.outlet.air.start := by
    unfold Air.start
    rw [hcfg, htnc]
    exact sized_start c.server s.outlet.air.attached
  refine ⟨fun source dest info ax hax => ?_, fun hfits => ?_⟩
  · have hroom := (room_for_info hc.radiable).1
    rw [ui_octets hax]
    omega
  · constructor
    · intro e he
      exact (Air.preserved_throughout hstep s.outlet.air.performed _ hfits hstart e he).allTaken
    · have hlast := Air.preserved hstep s.outlet.air.performed _ hfits hstart
      unfold ServerOutput.Outlet.gateway
      rw [s.outlet.air.faithful]
      exact hlast.allTaken

instance (c : ServerConfig) (op : RadioOp) : Decidable (Fits c op) := by
  induction op using RadioOp.casesOn <;> dsimp only [Fits] <;> infer_instance

/-- The station of the other examples, with the TNC as its configuration has it. -/
def station : Config := ⟨Small.config, 60, true, false, false, none⟩

theorem station_accepted : Accepted station := ⟨by decide +kernel, rfl⟩

def booted : Server := boot station true .empty 0

def heard (es : List ServerRuns.Event) : Server :=
  (Small.seconds es).foldl (Server.next Small.noBeacon) booted

/-- One station greets the channel, and another one sends it a private message. -/
def tell (text : Text) : List ServerRuns.Event :=
  [Small.aprs Small.station "hi", Small.aprs ⟨"SM0XYZ", 0⟩ ("SM0ABC|7 " ++ text)]

theorem heard_executes (es : List ServerRuns.Event)
    (h : Runs everyStep (Enabled Eq) (Server.next Small.noBeacon) booted (Small.seconds es)) :
    Execution (system Small.noBeacon Eq) everyStep booted (heard es) :=
  (Execution.refl booted).run h

theorem short_tell_fits : AllTaken station.server (heard (tell "hello")).outlet.gateway :=
  ((queued_frames_fit station_accepted (heard_executes (tell "hello") (by decide +kernel))).2
    (by decide +kernel)).2

/-- Sixty letters of three octets each are accepted, and queued in a frame that is dropped. -/
theorem long_letters_queued : Accepted station ∧
    Reachable (system Small.noBeacon Eq) everyStep (heard (tell (List.replicate 60 '€'))) ∧
    ∃ x ∈ (heard (tell (List.replicate 60 '€'))).outlet.gateway.pump.scheduler.queues .direct,
      (tncFromConfig station.server).maxFrame < x.payload.octets := by
  have hinitial : Initial booted := boot_initial ..
  have hruns : Runs everyStep (Enabled Eq) (Server.next Small.noBeacon) booted
      (Small.seconds (tell (List.replicate 60 '€'))) := by decide +kernel
  exact ⟨station_accepted, (Reachable.initial hinitial).run hruns, by decide +kernel⟩

end FrameLimit
