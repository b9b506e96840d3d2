import Rfircd.AtMostOnce
import Rfircd.ReliableDelivery

/-! A message that is cut into frames and put together again, in whatever order they arrive. -/
namespace RoundTrip

open Basics Airc AircSession KeyedTable FragmentBuffers

/-! ### One record -/

/-- A frame of the message as the receiver reads it. -/
structure Arrives (cfg : SessionConfig) (m : Message) (f : AircFrame) : Prop where
  fragment : m.IsFragment f
  wantsAck : f.wantsAck = m.reliable
  first : f.has Flags.retry = false
  short : f.payload.length ≤ cfg.maxPayload

/-- A buffer remembers whether an acknowledgement is wanted. -/
structure Wants (m : Message) (addressedToUs : Bool) (r : Reassembly) : Prop where
  of : BufferOf m r
  wantAck : r.wantAck = (addressedToUs && m.reliable)
  flags : m.reliable = false → r.flags &&& Flags.ackReq = 0

/-- Those parts of the message are there, and nothing is owed for it. -/
structure Waiting (m : Message) (addressedToUs : Bool) (owed : Option OwedAck) (got : ℕ → Prop)
    (p : Peer) : Prop where
  new : m.seq ∉ p.seen
  owed : p.owedAck = owed
  buffer : ∀ r, p.reasm.get m.seq = some r → Wants m addressedToUs r
  parts : ∀ i, got i ↔ ∃ r, p.reasm.get m.seq = some r ∧ HasPart r i

/-- The message was delivered. -/
structure Done (m : Message) (addressedToUs : Bool) (owed : Option OwedAck) (p : Peer) : Prop where
  seen : m.seq ∈ p.seen
  owed : p.owedAck = if addressedToUs && m.reliable then some ⟨m.seq, none⟩ else owed

section

variable {cfg : SessionConfig} {m : Message} {addressedToUs : Bool} {owed : Option OwedAck}
variable {got : ℕ → Prop} {p q : Peer} {f : AircFrame} {now : ℕ}

theorem Waiting.same (h : Waiting m addressedToUs owed got p) (hs : SameInbox p q) :
    Waiting m addressedToUs owed got q := by
  refine ⟨hs.seen ▸ h.new, hs.owedAck ▸ h.owed, hs.reasm ▸ h.buffer, ?_⟩
  rw [hs.reasm]
  exact h.parts

theorem Done.same (h : Done m addressedToUs owed p) (hs : SameInbox p q) :
    Done m addressedToUs owed q :=
  ⟨hs.seen ▸ h.seen, hs.owedAck ▸ h.owed⟩

/-- The buffer a frame is put into. -/
theorem wants_bufferFor (h : Waiting m addressedToUs owed got p) (hf : Arrives cfg m f)
    (maxReasm : ℕ) :
    let b := bufferFor (evictReasm p f.seq maxReasm) f now (addressedToUs && f.wantsAck)
    Wants m addressedToUs b ∧ ∀ i, HasPart b i ↔ got i := by
  intro b
  have hself := get_evictReasm_self p f.seq maxReasm
  rw [hf.fragment.seq] at hself
  cases hr : p.reasm.get m.seq with
  | none =>
    have hb : b = ⟨f.kind, f.flags, List.replicate f.fragTotal.toNat none, now,
        addressedToUs && f.wantsAck⟩ := by
      simp only [b, bufferFor, hf.fragment.seq, hself, hr]
    have hwants : f.flags &&& Flags.ackReq ≠ 0 ↔ m.reliable = true := by
      rw [← hf.wantsAck, AircFrame.wantsAck, AircFrame.has, bne_iff_ne]
    refine ⟨⟨⟨?_, ?_, ?_⟩, ?_, ?_⟩, ?_⟩
    · rw [hb]
      exact hf.fragment.kind
    · rw [hb]
      simp [hf.fragment.total]
    · intro i part hpart
      rw [hb] at hpart
      simp [List.getElem?_replicate] at hpart
    · rw [hb, hf.wantsAck]
    · intro hrel
      rw [hb]
      by_contra hne
      rw [hwants.mp hne] at hrel
      cases hrel
    · intro i
      have hopen : ¬ HasPart b i := by
        rw [hb, HasPart, List.getElem?_replicate]
        split_ifs <;> exact Bool.false_ne_true
      rw [h.parts, hr]
      simp [hopen]
  | some r =>
    have hwants := h.buffer r hr
    have hb : b = r := by
      have hlen : r.parts.length = f.fragTotal.toNat :=
        hwants.of.length.trans hf.fragment.total.symm
      simp only [b, bufferFor, hf.fragment.seq, hself, hr, hlen, ne_eq, not_true_eq_false, if_false]
    rw [hb]
    refine ⟨hwants, fun i => ?_⟩
    rw [h.parts, hr]
    simp

theorem wants_stored (h : Waiting m addressedToUs owed got p) (hf : Arrives cfg m f) :
    Wants m addressedToUs (stored cfg p f now addressedToUs) ∧
    ∀ i, HasPart (stored cfg p f now addressedToUs) i ↔ got i ∨ i = f.fragIndex.toNat := by
  obtain ⟨⟨hof, hwant, hflags⟩, hparts⟩ := @wants_bufferFor cfg m addressedToUs owed got p f now h hf
    cfg.maxReasm
  rw [stored]
  generalize bufferFor (evictReasm p f.seq cfg.maxReasm) f now (addressedToUs && f.wantsAck) = b
    at hof hwant hflags hparts
  refine ⟨⟨storePart_of hf.fragment hof, ?_, ?_⟩, ?_⟩
  · simp only [storePart, hwant, hf.wantsAck, Bool.or_self]
  · intro hrel
    simp only [storePart, hf.wantsAck, hrel, Bool.false_eq_true, if_false]
    exact hflags hrel
  · intro i
    rw [storePart_hasPart hf.fragment hof, hparts]

/-- Parts are still missing. -/
theorem Waiting.keep (h : Waiting m addressedToUs owed got p) (hf : Arrives cfg m f)
    (hopen : ∃ j < m.parts.length, ¬ (got j ∨ j = f.fragIndex.toNat)) :
    (receiveMessage cfg p f now addressedToUs).2.1 = none ∧
    Waiting m addressedToUs owed (fun i => got i ∨ i = f.fragIndex.toNat)
      (receiveMessage cfg p f now addressedToUs).1 := by
  obtain ⟨j, hj, hnot⟩ := hopen
  obtain ⟨hwants, hparts⟩ := @wants_stored cfg m addressedToUs owed got p f now h hf
  have hindex : f.fragIndex.toNat < m.parts.length :=
    (List.getElem?_eq_some_iff.mp hf.fragment.part).1
  have hseq := hf.fragment.seq
  have hnew : f.seq ∉ p.seen := hseq ▸ h.new
  have htotal : f.fragTotal ≠ 1 := by
    intro hone
    have hlen : m.parts.length = 1 := by rw [← hf.fragment.total, hone]; rfl
    have := fun hsame => hnot (.inr hsame)
    omega
  have hincomplete : (stored cfg p f now addressedToUs).complete = false := by
    by_contra hc
    rw [Bool.not_eq_false] at hc
    have hall := parts_of_complete hwants.of hc
    refine hnot ((hparts j).mp ?_)
    rw [HasPart, hall, List.getElem?_map, List.getElem?_eq_getElem hj]
    rfl
  have hkeep : receiveMessage cfg p f now addressedToUs =
      (keepParts cfg p f addressedToUs (stored cfg p f now addressedToUs), none, false) := by
    simp only [receiveMessage, if_neg hnew, if_neg htotal, receiveFragment,
      if_neg (Nat.not_lt.mpr hf.short), hincomplete, Bool.not_false, if_true]
  have howed : (keepParts cfg p f addressedToUs (stored cfg p f now addressedToUs)).owedAck =
      p.owedAck := by
    simp only [keepParts, hf.first, Bool.and_false, Bool.false_eq_true, if_false]
  have hbuffer : (keepParts cfg p f addressedToUs
      (stored cfg p f now addressedToUs)).reasm.get m.seq =
        some (stored cfg p f now addressedToUs) := by
    rw [keepParts_reasm, hseq, Table.get_set_self]
  rw [hkeep]
  refine ⟨rfl, ?_, howed.trans h.owed, ?_, ?_⟩
  · rw [keepParts_seen]
    exact h.new
  · intro r hr
    exact Option.some.inj (hbuffer.symm.trans hr) ▸ hwants
  · intro i
    rw [hbuffer, ← hparts i]
    simp

/-- The last missing part completes the message. -/
theorem Waiting.finish (h : Waiting m addressedToUs owed got p) (hv : m.Valid)
    (hf : Arrives cfg m f) (hw : 1 ≤ cfg.dedupWindow)
    (hall : ∀ j < m.parts.length, got j ∨ j = f.fragIndex.toNat) :
    (∃ d, (receiveMessage cfg p f now addressedToUs).2.1 = some d ∧ d.kind = m.kind ∧
      d.seq = m.seq ∧ d.payload = m.payload) ∧
    Done m addressedToUs owed (receiveMessage cfg p f now addressedToUs).1 := by
  have hseq := hf.fragment.seq
  have hnew : f.seq ∉ p.seen := hseq ▸ h.new
  by_cases htotal : f.fragTotal = 1
  · have hsingle := delivered_single (d := []) hv hf.fragment htotal
    obtain ⟨d, hd, hmessage⟩ := hsingle
    obtain rfl := List.mem_singleton.mp hd
    simp only [receiveMessage, if_neg hnew, if_pos htotal, hf.wantsAck]
    refine ⟨⟨d, rfl, hmessage⟩, ?_, ?_⟩
    · rw [← hseq]
      exact mem_rememberSeq_self _ _ hw
    · rw [← hseq, ← h.owed]
      split_ifs <;> rfl
  · obtain ⟨hwants, hparts⟩ := @wants_stored cfg m addressedToUs owed got p f now h hf
    have hcomplete := complete_of_has hwants.of fun i hi => (hparts i).mpr (hall i hi)
    have hfinish : receiveMessage cfg p f now addressedToUs =
        (finishParts cfg p f addressedToUs (stored cfg p f now addressedToUs),
          some ((stored cfg p f now addressedToUs).message f.seq), false) := by
      simp only [receiveMessage, if_neg hnew, if_neg htotal, receiveFragment,
        if_neg (Nat.not_lt.mpr hf.short), hcomplete, Bool.not_true, Bool.false_eq_true, if_false]
    have howes : ((stored cfg p f now addressedToUs).wantAck || addressedToUs && (f.wantsAck ||
        (stored cfg p f now addressedToUs).flags &&& Flags.ackReq != 0)) =
          (addressedToUs && m.reliable) := by
      rw [hwants.wantAck, hf.wantsAck]
      cases hrel : m.reliable with
      | true => simp
      | false => simp [hwants.flags hrel]
    rw [hfinish]
    refine ⟨⟨_, rfl, ?_⟩, ?_, ?_⟩
    · obtain ⟨hkind, hnumber, hpayload⟩ := message_of_complete hv hwants.of hcomplete f.seq
      exact ⟨hkind, hnumber.trans hseq, hpayload⟩
    · have hseen : f.seq ∈ (finishParts cfg p f addressedToUs
          (stored cfg p f now addressedToUs)).seen := by
        simp only [finishParts]
        split_ifs <;> exact mem_rememberSeq_self _ _ hw
      exact hseq ▸ hseen
    · simp only [finishParts, howes]
      rw [← hseq, ← h.owed]
      split_ifs <;> rfl

/-- A frame of a message that was delivered is acknowledged again, and that is all. -/
theorem Done.again (h : Done m addressedToUs owed p) (hk : m.kind ≠ .hello)
    (hf : Arrives cfg m f) :
    (receiveMessage cfg p f now addressedToUs).2.1 = none ∧
    Done m addressedToUs owed (receiveMessage cfg p f now addressedToUs).1 := by
  have hseq := hf.fragment.seq
  have hseen : f.seq ∈ p.seen := hseq ▸ h.seen
  have hkind : f.kind ≠ .hello := hf.fragment.kind ▸ hk
  simp only [receiveMessage, if_pos hseen, if_neg hkind, hf.wantsAck]
  refine ⟨trivial, ?_, ?_⟩
  · split_ifs <;> exact h.seen
  · rw [hseq]
    by_cases hwanted : (addressedToUs && m.reliable) = true
    · rw [if_pos hwanted, if_pos hwanted]
      rfl
    · have howed := h.owed
      rw [if_neg hwanted] at howed
      rw [if_neg hwanted, if_neg hwanted]
      exact howed

end

/-! ### The frames of a message -/

/-- The frames of a message, the first of them with the acknowledgement it takes along. -/
def produced (cfg : SessionConfig) (kind : Kind) (seq : UInt16) (payload : List UInt8)
    (reliable : Bool) (piggy : Option UInt16) : List AircFrame :=
  let frames := fragments kind seq reliable (chunkPayload payload cfg.maxPayload piggy.isSome)
  match piggy with
  | none => frames
  | some acked => frames.modifyHead (·.attachPiggyback acked)

/-- What a sender hands over of a message, now or when its turn comes. -/
theorem enqueue_produced (cfg : SessionConfig) (p : Peer) (seq : UInt16) (kind : Kind)
    (payload : List UInt8) (reliable : Bool)
    (h : (p.enqueue cfg seq kind payload reliable).2.accepted = true) :
    (∃ piggy, (p.enqueue cfg seq kind payload reliable).2.frames =
      produced cfg kind seq payload reliable piggy) ∨
    (p.enqueue cfg seq kind payload reliable).2.frames = [] ∧
      (p.enqueue cfg seq kind payload reliable).1.queue =
        p.queue ++ [produced cfg kind seq payload reliable none] := by
  unfold Peer.enqueue at h ⊢
  obtain htake | ⟨acked, -, hrel, hpending, htake⟩ := takePiggyback_cases cfg p reliable
  · simp only [htake, restorePiggyback] at h ⊢
    split_ifs at h ⊢ with hlong hrel hpend hfull
    · exact absurd h Bool.false_ne_true
    · exact .inl ⟨none, rfl⟩
    · exact absurd h Bool.false_ne_true
    · exact .inr ⟨rfl, rfl⟩
    · exact .inl ⟨none, rfl⟩
  · subst hrel
    simp only [htake, restorePiggyback] at h ⊢
    simp only [hpending, Option.isSome_none, Bool.not_true, Bool.false_eq_true, if_false] at h ⊢
    split_ifs at h ⊢ with hlong
    · exact absurd h Bool.false_ne_true
    · exact .inl ⟨some acked, rfl⟩

theorem length_chunksWith {max fuel : ℕ} {l : List UInt8} :
    ∀ part ∈ chunksWith max fuel l, part.length ≤ max := by
  induction fuel generalizing l with
  | zero => exact fun part hp => absurd hp List.not_mem_nil
  | succ fuel ih =>
    intro part hp
    rw [chunksWith] at hp
    split_ifs at hp
    · exact absurd hp List.not_mem_nil
    · rcases List.mem_cons.mp hp with rfl | hp
      · exact List.length_take_le _ _
      · exact ih part hp

theorem length_chunkPayload {max : ℕ} (hm : 0 < max) (payload : List UInt8) (piggy : Bool) :
    ∀ part ∈ chunkPayload payload max piggy, part.length ≤ max := by
  have hfirst : (if piggy = true then Nat.max (max - 2) 1 else max) ≤ max := by
    split_ifs
    · exact Nat.max_le.mpr ⟨Nat.sub_le _ _, hm⟩
    · exact le_rfl
  intro part hp
  simp only [chunkPayload] at hp
  generalize (if piggy = true then Nat.max (max - 2) 1 else max) = firstMax at hp hfirst
  split_ifs at hp with hshort
  · rw [List.mem_singleton.mp hp]
    exact hshort.trans hfirst
  · rcases List.mem_cons.mp hp with rfl | hp
    · exact (List.length_take_le _ _).trans hfirst
    · exact length_chunksWith part hp

section

variable (cfg : SessionConfig) (kind : Kind) (seq : UInt16) (payload : List UInt8)
variable (reliable : Bool) (piggy : Option UInt16)

def message : Message :=
  ⟨kind, seq, reliable, payload, chunkPayload payload cfg.maxPayload piggy.isSome⟩

variable {cfg kind seq payload reliable piggy}

theorem message_valid (hk : kind ≠ .ack)
    (hfew : (chunkPayload payload cfg.maxPayload piggy.isSome).length ≤ 255) :
    (message cfg kind seq payload reliable piggy).Valid :=
  ⟨hk, chunkPayload_ne_nil _ _ _, hfew, chunkPayload_flatten (maxPayload_pos cfg) _ _⟩

/-- The fragment a frame was made of, with or without an acknowledgement on it. -/
theorem mem_produced {f : AircFrame}
    (h : f ∈ produced cfg kind seq payload reliable piggy) :
    ∃ g ∈ (message cfg kind seq payload reliable piggy).frames,
      f = g ∨ ∃ acked, f = g.attachPiggyback acked := by
  unfold produced at h
  cases piggy with
  | none => exact ⟨f, h, .inl rfl⟩
  | some acked =>
    rcases ReliableDelivery.of_mem_modifyHead h with hf | ⟨g, hg, rfl⟩
    · exact ⟨f, hf, .inl rfl⟩
    · exact ⟨g, hg, .inr ⟨acked, rfl⟩⟩

theorem produced_isFragment (hv : (message cfg kind seq payload reliable piggy).Valid)
    {f : AircFrame} (h : f ∈ produced cfg kind seq payload reliable piggy) :
    (message cfg kind seq payload reliable piggy).IsFragment f := by
  obtain ⟨g, hg, rfl | ⟨acked, rfl⟩⟩ := mem_produced h
  · exact Message.isFragment_of_mem hv hg
  · exact (Message.isFragment_of_mem hv hg).piggyback acked

/-- What the flags say on the air, without and with an acknowledgement that is carried. -/
theorem flags_read : ∀ reliable carried : Bool,
    let sent := if reliable then Flags.ackReq else 0
    let read := if carried then (sent ||| Flags.piggyack) &&& ~~~Flags.piggyack ||| Flags.piggyack
      else sent &&& ~~~Flags.piggyack
    (read &&& Flags.ackReq != 0) = reliable ∧ (read &&& Flags.retry != 0) = false := by
  decide

/-- The octets of a frame are read back as a frame of the message. -/
theorem produced_arrives (hv : (message cfg kind seq payload reliable piggy).Valid)
    {f : AircFrame} (h : f ∈ produced cfg kind seq payload reliable piggy) :
    ∃ g, AircFrame.decode f.encode = .ok g ∧ g.fragIndex = f.fragIndex ∧
      Arrives cfg (message cfg kind seq payload reliable piggy) g := by
  have hf := produced_isFragment hv h
  have hflags : ({ f with flags := f.wireFlags } : AircFrame).wantsAck = reliable ∧
      ({ f with flags := f.wireFlags } : AircFrame).has Flags.retry = false := by
    obtain ⟨g, hg, rfl | ⟨acked, rfl⟩⟩ := mem_produced h
    · obtain ⟨i, hi, rfl⟩ := List.mem_mapIdx.mp hg
      exact flags_read reliable false
    · obtain ⟨i, hi, rfl⟩ := List.mem_mapIdx.mp hg
      exact flags_read reliable true
  refine ⟨_, AtMostOnce.decode_fragment hf, rfl, ?_, hflags.1, hflags.2, ?_⟩
  · exact ⟨hf.kind, hf.seq, hf.total, hf.part⟩
  · exact length_chunkPayload (maxPayload_pos cfg) _ _ _ (List.mem_of_getElem? hf.part)

theorem length_produced : (produced cfg kind seq payload reliable piggy).length =
    (message cfg kind seq payload reliable piggy).parts.length := by
  unfold produced
  cases piggy with
  | none => exact List.length_mapIdx
  | some acked => exact (List.length_modifyHead ..).trans List.length_mapIdx

/-- A frame stands at its number. -/
theorem produced_getElem (hv : (message cfg kind seq payload reliable piggy).Valid) {i : ℕ}
    {f : AircFrame} (h : (produced cfg kind seq payload reliable piggy)[i]? = some f) :
    f.fragIndex.toNat = i := by
  have hfew := hv.few
  have hlt := (List.getElem?_eq_some_iff.mp h).1
  rw [length_produced] at hlt
  have hindex : ∀ g, (message cfg kind seq payload reliable piggy).frames[i]? = some g →
      g.fragIndex.toNat = i := by
    intro g hg
    obtain ⟨hi, rfl⟩ := List.getElem?_eq_some_iff.mp hg
    simp only [Message.frames, fragments, List.getElem_mapIdx]
    exact UInt8.toNat_ofNat_of_lt (show i < 256 by omega)
  unfold produced at h
  cases piggy with
  | none => exact hindex f h
  | some acked =>
    rw [List.getElem?_modifyHead] at h
    split_ifs at h
    · obtain ⟨g, hg, rfl⟩ := Option.map_eq_some_iff.mp h
      exact hindex g hg
    · exact hindex f h

theorem frame_at (hv : (message cfg kind seq payload reliable piggy).Valid) {j : ℕ}
    (hj : j < (message cfg kind seq payload reliable piggy).parts.length) :
    ∃ f ∈ produced cfg kind seq payload reliable piggy, j = f.fragIndex.toNat := by
  rw [← length_produced] at hj
  exact ⟨_, List.getElem_mem hj, (produced_getElem hv (List.getElem?_eq_getElem hj)).symm⟩

theorem produced_injective (hv : (message cfg kind seq payload reliable piggy).Valid)
    {f g : AircFrame} (hf : f ∈ produced cfg kind seq payload reliable piggy)
    (hg : g ∈ produced cfg kind seq payload reliable piggy)
    (h : f.fragIndex.toNat = g.fragIndex.toNat) : f = g := by
  obtain ⟨i, hi, rfl⟩ := List.mem_iff_getElem.mp hf
  obtain ⟨j, hj, rfl⟩ := List.mem_iff_getElem.mp hg
  rw [produced_getElem hv (List.getElem?_eq_getElem hi),
    produced_getElem hv (List.getElem?_eq_getElem hj)] at h
  subst h
  rfl

end

/-! ### Arrivals -/

/-- The octets of one frame are received. -/
def hear (src : Callsign) (addressedToUs : Bool) (s : Sessions) (octets : List UInt8) (now : ℕ) :
    Sessions × Option AircFrame :=
  match AircFrame.decode octets with
  | .error _ => (s, none)
  | .ok f =>
    ((s.onReceive src f now addressedToUs).1, (s.onReceive src f now addressedToUs).2.deliver)

/-- Frames arrive one after the other; with each goes what is delivered at its arrival. -/
def hearAll (src : Callsign) (addressedToUs : Bool) :
    Sessions → List (AircFrame × ℕ) → Sessions × List (Option AircFrame)
  | s, [] => (s, [])
  | s, a :: arrivals =>
    let r := hear src addressedToUs s a.1.encode a.2
    let t := hearAll src addressedToUs r.1 arrivals
    (t.1, r.2 :: t.2)

/-- The station has a record, or there is room for one. -/
def HasRoom (s : Sessions) (src : Callsign) : Prop :=
  (s.peer src).isSome ∨ s.peers.size < s.config.maxPeers

instance (s : Sessions) (src : Callsign) : Decidable (HasRoom s src) :=
  inferInstanceAs (Decidable (_ ∨ _))

/-- Nothing is remembered, buffered or owed under that number. -/
structure Fresh (s : Sessions) (src : Callsign) (seq : UInt16) : Prop where
  new : seq ∉ (s.record src).seen
  unbuffered : (s.record src).reasm.get seq = none
  owed : ∀ o, (s.record src).owedAck = some o → o.seq ≠ seq

section

variable {cfg : SessionConfig} {kind : Kind} {seq : UInt16} {payload : List UInt8}
variable {reliable : Bool} {piggy : Option UInt16} {s : Sessions} {src : Callsign}
variable {addressedToUs : Bool}

theorem touched_of_room (h : HasRoom s src) (now : ℕ) : ∃ p, s.touched src now = some p := by
  unfold Sessions.touched
  cases hp : s.peers.get src with
  | some p => exact ⟨_, rfl⟩
  | none =>
    have hless : s.peers.size < s.config.maxPeers := by
      rcases h with h | h
      · rw [Sessions.peer, hp] at h
        cases h
      · exact h
    simp [Nat.not_le.mpr hless]

theorem Fresh.waiting (h : Fresh s src seq) (cfg : SessionConfig) (kind : Kind)
    (payload : List UInt8) (reliable : Bool) (piggy : Option UInt16) (addressedToUs : Bool) :
    Waiting (message cfg kind seq payload reliable piggy) addressedToUs (s.record src).owedAck
      (fun _ => False) (s.record src) := by
  refine ⟨h.new, rfl, ?_, ?_⟩
  · intro r hr
    exact absurd (hr.symm.trans h.unbuffered) (Option.some_ne_none r)
  · intro i
    refine ⟨False.elim, ?_⟩
    rintro ⟨r, hr, -⟩
    exact absurd (hr.symm.trans h.unbuffered) (Option.some_ne_none r)

/-- What the arrival of a frame does to the record of its sender. -/
theorem hear_eq (hc : s.config = cfg) (hroom : HasRoom s src) (hk : kind ≠ .ack)
    (hh : kind ≠ .hello) (hv : (message cfg kind seq payload reliable piggy).Valid)
    {f : AircFrame} (hf : f ∈ produced cfg kind seq payload reliable piggy) (now : ℕ) :
    ∃ p g, SameInbox (s.record src) p ∧ g.fragIndex = f.fragIndex ∧
      Arrives cfg (message cfg kind seq payload reliable piggy) g ∧
      (hear src addressedToUs s f.encode now).1.record src =
        (receiveMessage cfg p g now addressedToUs).1 ∧
      (hear src addressedToUs s f.encode now).2 =
        (receiveMessage cfg p g now addressedToUs).2.1 ∧
      (hear src addressedToUs s f.encode now).1.config = cfg ∧
      HasRoom (hear src addressedToUs s f.encode now).1 src := by
  obtain ⟨g, hdecode, hindex, harrives⟩ := produced_arrives hv hf
  obtain ⟨p, ht⟩ := touched_of_room hroom now
  obtain ⟨hin, -, -⟩ := Sessions.touched_same ht
  have hgk : g.kind ≠ .ack := harrives.fragment.kind ▸ hk
  have hgh : g.kind ≠ .hello := harrives.fragment.kind ▸ hh
  have hreset : SameInbox p (helloReset p.noteAirc g) := by
    rw [helloReset, if_neg fun hr => hgh hr.1]
    exact ⟨rfl, rfl, rfl⟩
  have hpiggy := applyPiggyback_inbox (helloReset p.noteAirc g) g
  have hreceive : s.onReceive src g now addressedToUs =
      (s.store src (p.receive cfg g now addressedToUs).1, (p.receive cfg g now addressedToUs).2) := by
    rw [Sessions.onReceive, ht, hc]
  refine ⟨p.piggybacked g, g, ⟨?_, ?_, ?_⟩, hindex, harrives, ?_⟩
  · exact hpiggy.seen.trans (hreset.seen.trans hin.seen)
  · exact hpiggy.reasm.trans (hreset.reasm.trans hin.reasm)
  · exact hpiggy.owedAck.trans (hreset.owedAck.trans hin.owedAck)
  · simp only [hear, hdecode, hreceive, Sessions.record_store_self, receive_of_message hgk]
    refine ⟨trivial, trivial, hc, .inl ?_⟩
    rw [Sessions.peer_store, if_pos rfl]
    rfl

/-- After the delivery nothing more is delivered. -/
theorem hearAll_done (hk : kind ≠ .ack) (hh : kind ≠ .hello)
    (hv : (message cfg kind seq payload reliable piggy).Valid) {owed : Option OwedAck}
    {arrivals : List (AircFrame × ℕ)}
    (honly : ∀ a ∈ arrivals, a.1 ∈ produced cfg kind seq payload reliable piggy)
    (hc : s.config = cfg) (hroom : HasRoom s src)
    (hdone : Done (message cfg kind seq payload reliable piggy) addressedToUs owed (s.record src)) :
    (hearAll src addressedToUs s arrivals).2 = arrivals.map (fun _ => none) ∧
    Done (message cfg kind seq payload reliable piggy) addressedToUs owed
      ((hearAll src addressedToUs s arrivals).1.record src) := by
  induction arrivals generalizing s with
  | nil => exact ⟨rfl, hdone⟩
  | cons a arrivals ih =>
    obtain ⟨p, g, hsame, -, harrives, hrecord, hdeliver, hconfig, hroom'⟩ :=
      hear_eq hc hroom hk hh hv (honly a List.mem_cons_self) a.2
    obtain ⟨hnone, hagain⟩ := (hdone.same hsame).again hh harrives
    rw [← hdeliver] at hnone
    rw [← hrecord] at hagain
    obtain ⟨hlater, hend⟩ := ih (fun b hb => honly b (List.mem_cons_of_mem _ hb)) hconfig hroom'
      hagain
    simp only [hearAll, hlater, List.map_cons]
    exact ⟨by rw [hnone], hend⟩

/-- Up to the arrival that completes the message, and from then on. -/
theorem hearAll_waiting (hk : kind ≠ .ack) (hh : kind ≠ .hello)
    (hv : (message cfg kind seq payload reliable piggy).Valid) (hw : 1 ≤ cfg.dedupWindow)
    {owed : Option OwedAck} {got : ℕ → Prop} {arrivals : List (AircFrame × ℕ)}
    (honly : ∀ a ∈ arrivals, a.1 ∈ produced cfg kind seq payload reliable piggy)
    (hopen : ∃ j < (message cfg kind seq payload reliable piggy).parts.length, ¬ got j)
    (hall : ∀ j < (message cfg kind seq payload reliable piggy).parts.length,
      got j ∨ ∃ a ∈ arrivals, j = a.1.fragIndex.toNat)
    (hc : s.config = cfg) (hroom : HasRoom s src)
    (hwait : Waiting (message cfg kind seq payload reliable piggy) addressedToUs owed got
      (s.record src)) :
    (∃ earlier a later d, arrivals = earlier ++ a :: later ∧
      (∃ j < (message cfg kind seq payload reliable piggy).parts.length,
        ¬ (got j ∨ ∃ b ∈ earlier, j = b.1.fragIndex.toNat)) ∧
      (∀ j < (message cfg kind seq payload reliable piggy).parts.length,
        got j ∨ ∃ b ∈ earlier ++ [a], j = b.1.fragIndex.toNat) ∧
      (hearAll src addressedToUs s arrivals).2 =
        earlier.map (fun _ => none) ++ some d :: later.map (fun _ => none) ∧
      d.kind = kind ∧ d.seq = seq ∧ d.payload = payload) ∧
    Done (message cfg kind seq payload reliable piggy) addressedToUs owed
      ((hearAll src addressedToUs s arrivals).1.record src) := by
  induction arrivals generalizing s got with
  | nil =>
    obtain ⟨j, hj, hnot⟩ := hopen
    rcases hall j hj with hgot | ⟨a, ha, -⟩
    · exact absurd hgot hnot
    · exact absurd ha List.not_mem_nil
  | cons a arrivals ih =>
    obtain ⟨p, g, hsame, hindex, harrives, hrecord, hdeliver, hconfig, hroom'⟩ :=
      hear_eq hc hroom hk hh hv (honly a List.mem_cons_self) a.2
    have honly' := fun b hb => honly b (List.mem_cons_of_mem _ hb)
    have hwait' := hwait.same hsame
    by_cases hlast : ∀ j < (message cfg kind seq payload reliable piggy).parts.length,
        got j ∨ j = g.fragIndex.toNat
    · -- this arrival completes the message
      obtain ⟨⟨d, hd, hmessage⟩, hdone⟩ := hwait'.finish hv harrives hw hlast
      rw [← hdeliver] at hd
      rw [← hrecord] at hdone
      obtain ⟨hlater, hend⟩ := hearAll_done hk hh hv honly' hconfig hroom' hdone
      refine ⟨⟨[], a, arrivals, d, rfl, ?_, ?_, ?_, hmessage⟩, hend⟩
      · obtain ⟨j, hj, hnot⟩ := hopen
        refine ⟨j, hj, ?_⟩
        rintro (hgot | ⟨b, hb, -⟩)
        · exact hnot hgot
        · exact absurd hb List.not_mem_nil
      · intro j hj
        refine (hlast j hj).imp_right fun hj => ⟨a, List.mem_singleton.mpr rfl, ?_⟩
        rw [hj, hindex]
      · simp only [hearAll, hlater, hd]
        rfl
    · -- parts are missing still
      have hopen' : ∃ j < (message cfg kind seq payload reliable piggy).parts.length,
          ¬ (got j ∨ j = g.fragIndex.toNat) := by simpa using hlast
      obtain ⟨hnone, hkeep⟩ := hwait'.keep harrives hopen'
      rw [← hdeliver] at hnone
      rw [← hrecord] at hkeep
      have hall' : ∀ j < (message cfg kind seq payload reliable piggy).parts.length,
          (got j ∨ j = g.fragIndex.toNat) ∨ ∃ b ∈ arrivals, j = b.1.fragIndex.toNat := by
        intro j hj
        rcases hall j hj with hgot | ⟨b, hb, hj⟩
        · exact .inl (.inl hgot)
        · rcases List.mem_cons.mp hb with rfl | hb
          · exact .inl (.inr (hj.trans (by rw [hindex])))
          · exact .inr ⟨b, hb, hj⟩
      obtain ⟨⟨earlier, b, later, d, harrivals, hbefore, hafter, hlist, hmessage⟩, hend⟩ :=
        ih honly' hopen' hall' hconfig hroom' hkeep
      refine ⟨⟨a :: earlier, b, later, d, by rw [harrivals]; rfl, ?_, ?_, ?_, hmessage⟩, hend⟩
      · obtain ⟨j, hj, hnot⟩ := hbefore
        refine ⟨j, hj, ?_⟩
        rintro (hgot | ⟨e, he, hje⟩)
        · exact hnot (.inl (.inl hgot))
        · rcases List.mem_cons.mp he with rfl | he
          · exact hnot (.inl (.inr (hje.trans (by rw [hindex]))))
          · exact hnot (.inr ⟨e, he, hje⟩)
      · intro j hj
        rcases hafter j hj with (hgot | hj) | ⟨e, he, hje⟩
        · exact .inl hgot
        · exact .inr ⟨a, List.mem_cons_self, by rw [hj, hindex]⟩
        · exact .inr ⟨e, List.mem_cons_of_mem _ he, hje⟩
      · simp only [hearAll, hlist, hnone, List.map_cons, List.cons_append]

end

/-- A message that is cut into at most 255 frames is delivered once, at the arrival of the last of
them, whatever their order and however often they are repeated. -/
theorem fragmentation_round_trip {cfg : SessionConfig} {kind : Kind} (hk : kind ≠ .ack)
    (hh : kind ≠ .hello) (seq : UInt16) (payload : List UInt8) (reliable : Bool)
    (piggy : Option UInt16)
    (hfew : (chunkPayload payload cfg.maxPayload piggy.isSome).length ≤ 255)
    (hw : 1 ≤ cfg.dedupWindow) {s : Sessions} (hc : s.config = cfg) {src : Callsign}
    (hfresh : Fresh s src seq) (hroom : HasRoom s src) (addressedToUs : Bool)
    {arrivals : List (AircFrame × ℕ)}
    (honly : ∀ a ∈ arrivals, a.1 ∈ produced cfg kind seq payload reliable piggy)
    (hall : ∀ f ∈ produced cfg kind seq payload reliable piggy, f ∈ arrivals.map Prod.fst) :
    (∃ earlier a later d, arrivals = earlier ++ a :: later ∧
      (¬ ∀ f ∈ produced cfg kind seq payload reliable piggy, f ∈ earlier.map Prod.fst) ∧
      (∀ f ∈ produced cfg kind seq payload reliable piggy,
        f ∈ (earlier ++ [a]).map Prod.fst) ∧
      (hearAll src addressedToUs s arrivals).2 =
        earlier.map (fun _ => none) ++ some d :: later.map (fun _ => none) ∧
      d.kind = kind ∧ d.seq = seq ∧ d.payload = payload) ∧
    (((hearAll src addressedToUs s arrivals).1.record src).owedAck = some ⟨seq, none⟩ ↔
      reliable = true ∧ addressedToUs = true) := by
  have hv := @message_valid cfg kind seq payload reliable piggy hk hfew
  have hnumber : ∀ f ∈ produced cfg kind seq payload reliable piggy,
      f.fragIndex.toNat < (message cfg kind seq payload reliable piggy).parts.length := by
    intro f hf
    obtain ⟨i, hi, rfl⟩ := List.mem_iff_getElem.mp hf
    rw [produced_getElem hv (List.getElem?_eq_getElem hi), ← length_produced]
    exact hi
  -- the numbers that arrived are those of the frames that arrived
  have hmem : ∀ l : List (AircFrame × ℕ), (∀ a ∈ l, a ∈ arrivals) →
      ∀ f ∈ produced cfg kind seq payload reliable piggy,
        (∃ b ∈ l, f.fragIndex.toNat = b.1.fragIndex.toNat) → f ∈ l.map Prod.fst := by
    intro l hl f hf ⟨b, hb, hsame⟩
    rw [produced_injective hv hf (honly b (hl b hb)) hsame]
    exact List.mem_map_of_mem hb
  obtain ⟨⟨earlier, a, later, d, harrivals, hbefore, hafter, hlist, hmessage⟩, hdone⟩ :=
    hearAll_waiting hk hh hv hw honly
      ⟨0, List.length_pos_of_ne_nil hv.parts, id⟩
      (by
        intro j hj
        obtain ⟨f, hf, rfl⟩ := frame_at hv hj
        obtain ⟨b, hb, rfl⟩ := List.mem_map.mp (hall f hf)
        exact .inr ⟨b, hb, rfl⟩) hc hroom (hfresh.waiting ..)
  refine ⟨⟨earlier, a, later, d, harrivals, ?_, ?_, hlist, hmessage⟩, ?_⟩
  · intro hcomplete
    obtain ⟨j, hj, hnot⟩ := hbefore
    obtain ⟨f, hf, rfl⟩ := frame_at hv hj
    obtain ⟨b, hb, rfl⟩ := List.mem_map.mp (hcomplete f hf)
    exact hnot (.inr ⟨b, hb, rfl⟩)
  · intro f hf
    refine hmem (earlier ++ [a]) ?_ f hf ((hafter _ (hnumber f hf)).resolve_left id)
    intro b hb
    rw [harrivals]
    rcases List.mem_append.mp hb with hb | hb
    · exact List.mem_append_left _ hb
    · exact List.mem_append_right _ (List.mem_singleton.mp hb ▸ List.mem_cons_self)
  · rw [hdone.owed]
    split_ifs with hwanted
    · rw [Bool.and_eq_true] at hwanted
      exact iff_of_true rfl ⟨hwanted.2, hwanted.1⟩
    · rw [Bool.and_eq_true] at hwanted
      refine iff_of_false ?_ fun h => hwanted ⟨h.2, h.1⟩
      exact fun howed => hfresh.owed _ howed rfl

/-! ### Three frames, and a receiver without room -/

def tiny : SessionConfig := { SessionConfig.default with paclen := 10, maxPeers := 1 }

def sender : Callsign := ⟨"SM0ABC", 7⟩

def greetings : List UInt8 := [35, 97, 31, 104, 105]

def cut : List AircFrame := produced tiny .msg 5 greetings true (some 7)

def shuffled : List (AircFrame × ℕ) := [2, 0, 2, 1, 0].filterMap fun i => cut[i]?.map (·, i)

instance (s : Sessions) (src : Callsign) (seq : UInt16) : Decidable (Fresh s src seq) :=
  decidable_of_iff (seq ∉ (s.record src).seen ∧ ((s.record src).reasm.get seq).isNone ∧
      (s.record src).owedAck.all fun o => o.seq != seq) (by
    constructor
    · rintro ⟨hnew, hnone, howed⟩
      refine ⟨hnew, Option.isNone_iff_eq_none.mp hnone, fun o ho => ?_⟩
      simpa [ho] using howed
    · rintro ⟨hnew, hnone, howed⟩
      refine ⟨hnew, Option.isNone_iff_eq_none.mpr hnone, ?_⟩
      cases ho : (s.record src).owedAck with
      | none => rfl
      | some o => simpa using howed o ho)

theorem fragmentation_round_trip_shuffled :
    (∃ earlier a later d, shuffled = earlier ++ a :: later ∧
      (hearAll sender true (.new tiny) shuffled).2 =
        earlier.map (fun _ => none) ++ some d :: later.map (fun _ => none) ∧
      d.payload = greetings) ∧
    ((hearAll sender true (.new tiny) shuffled).1.record sender).owedAck = some ⟨5, none⟩ := by
  obtain ⟨⟨earlier, a, later, d, harrivals, -, -, hlist, -, -, hpayload⟩, howed⟩ :=
    @fragmentation_round_trip tiny .msg (by decide) (by decide) 5 greetings true (some 7)
      (by decide) (by decide) (.new tiny) rfl sender (by decide +kernel) (by decide +kernel) true
      shuffled (by decide +kernel) (by decide +kernel)
  exact ⟨⟨earlier, a, later, d, harrivals, hlist, hpayload⟩, howed.mpr ⟨rfl, rfl⟩⟩

/-- The table is full, and the sender is not in it. -/
def full : Sessions := (Sessions.new tiny).store ⟨"SM0XYZ", 0⟩ (.new 0)

/-- Every frame arrives, and nothing is delivered or acknowledged. -/
theorem unknown_sender_ignored :
    full.config = tiny ∧ Fresh full sender 5 ∧ (∀ f ∈ cut, f ∈ shuffled.map Prod.fst) ∧
    (hearAll sender true full shuffled).2 = [none, none, none, none, none] ∧
    ((hearAll sender true full shuffled).1.record sender).owedAck = none := by
  decide +kernel

end RoundTrip
