import Rfircd.SessionSteps

/-! What the receiver of a message holds of it, and what its acknowledgements may say. -/
namespace FragmentBuffers

open Basics Airc AircSession KeyedTable

/-! ### Messages and their fragments -/

/-- A message that was accepted, with the parts it was cut into. -/
structure Message where
  kind : Kind
  seq : UInt16
  reliable : Bool
  payload : List UInt8
  parts : List (List UInt8)
  deriving DecidableEq

namespace Message

def frames (m : Message) : List AircFrame := fragments m.kind m.seq m.reliable m.parts

structure Valid (m : Message) : Prop where
  kind : m.kind ≠ .ack
  parts : m.parts ≠ []
  few : m.parts.length ≤ 255
  whole : m.parts.flatten = m.payload

/-- A frame that carries a part of the message, whatever its flags. -/
structure IsFragment (m : Message) (f : AircFrame) : Prop where
  kind : f.kind = m.kind
  seq : f.seq = m.seq
  total : f.fragTotal.toNat = m.parts.length
  part : m.parts[f.fragIndex.toNat]? = some f.payload

theorem IsFragment.retry {m : Message} {f : AircFrame} (h : m.IsFragment f) :
    m.IsFragment (retryFrame f) :=
  ⟨h.kind, h.seq, h.total, h.part⟩

theorem IsFragment.piggyback {m : Message} {f : AircFrame} (h : m.IsFragment f) (seq : UInt16) :
    m.IsFragment (f.attachPiggyback seq) :=
  ⟨h.kind, h.seq, h.total, h.part⟩

/-- One part of the message, under its index. -/
theorem isFragment_part {m : Message} (hfew : m.parts.length ≤ 255) {i : ℕ} (hi : i < m.parts.length)
    (flags : UInt8) :
    m.IsFragment ⟨m.kind, flags, m.seq, .ofNat i, .ofNat m.parts.length, m.parts[i], none⟩ := by
  refine ⟨rfl, rfl, ?_, ?_⟩
  · change (UInt8.ofNat m.parts.length).toNat = m.parts.length
    rw [UInt8.toNat_ofNat']
    omega
  · change m.parts[(UInt8.ofNat i).toNat]? = some m.parts[i]
    rw [UInt8.toNat_ofNat', Nat.mod_eq_of_lt (by omega), List.getElem?_eq_getElem hi]

theorem isFragment_of_mem {m : Message} (hv : m.Valid) {f : AircFrame} (h : f ∈ m.frames) :
    m.IsFragment f := by
  obtain ⟨i, hi, rfl⟩ := List.mem_mapIdx.mp h
  exact isFragment_part hv.few hi _

theorem length_frames (m : Message) : m.frames.length = m.parts.length := List.length_mapIdx

theorem head_frames {m : Message} (hv : m.Valid) :
    m.frames.head?.map AircFrame.seq = some m.seq := by
  have hparts := hv.parts
  unfold frames fragments
  cases h : m.parts with
  | nil => exact absurd h hparts
  | cons part parts => simp [AircFrame.new]

theorem kind_of_mem {m : Message} (hv : m.Valid) {f : AircFrame} (h : f ∈ m.frames) :
    f.kind ≠ .ack := by
  rw [(isFragment_of_mem hv h).kind]
  exact hv.kind

theorem piggybackSeq_of_mem {m : Message} {f : AircFrame} (h : f ∈ m.frames) :
    f.piggybackSeq = none := by
  obtain ⟨i, hi, rfl⟩ := List.mem_mapIdx.mp h
  rfl

end Message

/-! ### Buffers -/

/-- A buffer with some of the parts of a message. -/
structure BufferOf (m : Message) (r : Reassembly) : Prop where
  kind : r.kind = m.kind
  length : r.parts.length = m.parts.length
  parts : ∀ (i : ℕ) (part : List UInt8), r.parts[i]? = some (some part) → m.parts[i]? = some part

def HasPart (r : Reassembly) (i : ℕ) : Prop := (r.parts[i]?).join.isSome

theorem bufferFor_of {m : Message} {reasm : Table UInt16 Reassembly} {f : AircFrame} {now : ℕ}
    {wantAck : Bool} (hf : m.IsFragment f) (h : ∀ r, reasm.get f.seq = some r → BufferOf m r) :
    BufferOf m (bufferFor reasm f now wantAck) ∧
    ∀ r, reasm.get f.seq = some r → bufferFor reasm f now wantAck = r := by
  have hfresh : BufferOf m
      ⟨f.kind, f.flags, List.replicate f.fragTotal.toNat none, now, wantAck⟩ := by
    refine ⟨hf.kind, ?_, ?_⟩
    · simp [hf.total]
    · intro i part hp
      simp [List.getElem?_replicate] at hp
  unfold bufferFor
  cases hr : reasm.get f.seq with
  | none => exact ⟨hfresh, by simp⟩
  | some r =>
    have hlen : r.parts.length = f.fragTotal.toNat := (h r hr).length.trans hf.total.symm
    simp only [hlen, ne_eq, not_true_eq_false, if_false]
    exact ⟨h r hr, fun r' hr' => Option.some.inj hr'⟩

theorem storePart_of {m : Message} {r : Reassembly} {f : AircFrame} {wantAck : Bool}
    (hf : m.IsFragment f) (h : BufferOf m r) : BufferOf m (storePart r f wantAck) := by
  refine ⟨h.kind, ?_, ?_⟩
  · simp [storePart, h.length]
  · intro i part hp
    simp only [storePart, List.getElem?_set] at hp
    split_ifs at hp with hi
    · simp only [Option.some.injEq] at hp
      rw [← hi, hf.part, hp]
    · exact h.parts i part hp

theorem storePart_has {r : Reassembly} {f : AircFrame} {wantAck : Bool} {i : ℕ} (h : HasPart r i) :
    HasPart (storePart r f wantAck) i := by
  unfold HasPart at h ⊢
  simp only [storePart, List.getElem?_set]
  split_ifs
  · rfl
  · simp_all
  · exact h

theorem storePart_hasPart {m : Message} {r : Reassembly} {f : AircFrame} {wantAck : Bool} (hf : m.IsFragment f)
    (hr : BufferOf m r) (i : ℕ) :
    HasPart (storePart r f wantAck) i ↔ HasPart r i ∨ i = f.fragIndex.toNat := by
  have hlt : f.fragIndex.toNat < r.parts.length := by
    rw [hr.length]
    exact (List.getElem?_eq_some_iff.mp hf.part).1
  unfold HasPart storePart
  by_cases hi : i = f.fragIndex.toNat
  · subst hi
    simp [hlt]
  · simp [hi, Ne.symm hi]

/-- The buffer of a fragment belongs to the message of the fragment. -/
theorem stored_of {m : Message} {cfg : SessionConfig} {p : Peer} {f : AircFrame} {now : ℕ}
    {addressedToUs : Bool} (hf : m.IsFragment f)
    (h : ∀ r, p.reasm.get f.seq = some r → BufferOf m r) :
    BufferOf m (stored cfg p f now addressedToUs) ∧
    ∀ r, p.reasm.get f.seq = some r → ∀ i, HasPart r i →
      HasPart (stored cfg p f now addressedToUs) i := by
  have hself := get_evictReasm_self p f.seq cfg.maxReasm
  have hbuffer : ∀ r, (evictReasm p f.seq cfg.maxReasm).get f.seq = some r → BufferOf m r :=
    fun r hr => h r (hself ▸ hr)
  obtain ⟨hof, hold⟩ := @bufferFor_of m _ f now (addressedToUs && f.wantsAck) hf hbuffer
  refine ⟨storePart_of hf hof, ?_⟩
  intro r hr i hi
  apply storePart_has
  rw [hold r (hself.trans hr)]
  exact hi

/-- The parts in the buffer of a fragment: those of before, and its own. -/
theorem stored_hasPart {m : Message} {cfg : SessionConfig} {p : Peer} {f : AircFrame} {now : ℕ}
    {addressedToUs : Bool} (hf : m.IsFragment f)
    (h : ∀ r, p.reasm.get f.seq = some r → BufferOf m r) (i : ℕ) :
    HasPart (stored cfg p f now addressedToUs) i ↔
      (∃ r, p.reasm.get f.seq = some r ∧ HasPart r i) ∨ i = f.fragIndex.toNat := by
  have hself := get_evictReasm_self p f.seq cfg.maxReasm
  obtain ⟨hof, hold⟩ := @bufferFor_of m (evictReasm p f.seq cfg.maxReasm) f now
    (addressedToUs && f.wantsAck) hf fun r hr => h r (hself ▸ hr)
  rw [stored, storePart_hasPart hf hof]
  refine or_congr_left ?_
  cases hr : p.reasm.get f.seq with
  | none =>
    have hnew : (evictReasm p f.seq cfg.maxReasm).get f.seq = none := hself.trans hr
    have hopen : ¬ HasPart (bufferFor (evictReasm p f.seq cfg.maxReasm) f now
        (addressedToUs && f.wantsAck)) i := by
      simp only [bufferFor, hnew, HasPart, List.getElem?_replicate]
      split_ifs <;> exact Bool.false_ne_true
    simp [hopen]
  | some r =>
    rw [hold r (hself.trans hr)]
    simp

theorem parts_of_complete {m : Message} {r : Reassembly} (h : BufferOf m r)
    (hc : r.complete = true) : r.parts = m.parts.map some := by
  apply List.ext_getElem?
  intro i
  rw [List.getElem?_map]
  cases hr : r.parts[i]? with
  | none =>
    have : m.parts.length ≤ i := h.length ▸ List.getElem?_eq_none_iff.mp hr
    rw [List.getElem?_eq_none this]
    rfl
  | some part =>
    have hsome : part.isSome = true := List.all_eq_true.mp hc part (List.mem_of_getElem? hr)
    obtain ⟨part, rfl⟩ := Option.isSome_iff_exists.mp hsome
    rw [h.parts i part hr]
    rfl

/-- A buffer with every part is the message. -/
theorem message_of_complete {m : Message} {r : Reassembly} (hv : m.Valid) (h : BufferOf m r)
    (hc : r.complete = true) (seq : UInt16) :
    (r.message seq).kind = m.kind ∧ (r.message seq).seq = seq ∧
    (r.message seq).payload = m.payload := by
  refine ⟨h.kind, rfl, ?_⟩
  change (r.parts.filterMap fun part => part).flatten = m.payload
  rw [parts_of_complete h hc, List.filterMap_map, ← hv.whole]
  congr 1
  exact List.filterMap_some

/-- A buffer with a part for every index is complete. -/
theorem complete_of_has {m : Message} {r : Reassembly} (h : BufferOf m r)
    (hall : ∀ i < m.parts.length, HasPart r i) : r.complete = true := by
  apply List.all_eq_true.mpr
  intro part hp
  obtain ⟨i, hi, rfl⟩ := List.mem_iff_getElem.mp hp
  have hhas := hall i (h.length ▸ hi)
  rw [HasPart, List.getElem?_eq_getElem hi] at hhas
  exact hhas

/-! ### What the receiver knows -/

def Delivered (delivered : List AircFrame) (m : Message) : Prop :=
  ∃ d ∈ delivered, d.kind = m.kind ∧ d.seq = m.seq ∧ d.payload = m.payload

/-- A part that arrived: it is in the buffer, or the message was delivered. -/
def Arrived (q : Peer) (delivered : List AircFrame) (m : Message) (i : ℕ) : Prop :=
  Delivered delivered m ∨ ∃ r, q.reasm.get m.seq = some r ∧ HasPart r i

section

variable (messages : List Message) (wanted : UInt16 → Prop)

/-- An acknowledgement that is true as long as the sender has use for it. -/
def Backed (q : Peer) (delivered : List AircFrame) (seq : UInt16) :
    Option (List UInt8) → Prop
  | none => ∃ m ∈ messages, m.seq = seq ∧ Delivered delivered m
  | some bits => ∃ m ∈ messages, m.seq = seq ∧
      (wanted seq → ∀ i, bitSet bits i = true → Arrived q delivered m i)

structure Inbox (q : Peer) (delivered : List AircFrame) : Prop where
  buffers : ∀ seq r, q.reasm.get seq = some r →
    ∃ m ∈ messages, m.seq = seq ∧ BufferOf m r ∧ r.complete = false
  seen : ∀ seq ∈ q.seen, ∃ m ∈ messages, m.seq = seq ∧ Delivered delivered m
  owed : ∀ o, q.owedAck = some o →
    o.bitmap ≠ some [] ∧ Backed messages wanted q delivered o.seq o.bitmap

/-- A step that forgets no part of a message that is `kept`. -/
structure Carries (kept : UInt16 → Prop) (p : Peer) (d : List AircFrame) (q : Peer)
    (d' : List AircFrame) : Prop where
  delivered : ∀ m, Delivered d m → Delivered d' m
  arrived : ∀ m ∈ messages, kept m.seq → ∀ i, Arrived p d m i → Arrived q d' m i

end

variable {messages : List Message} {wanted kept : UInt16 → Prop}
variable {p q r : Peer} {d d' d'' : List AircFrame}

theorem Delivered.append {m : Message} (h : Delivered d m) (l : List AircFrame) :
    Delivered (d ++ l) m := by
  obtain ⟨f, hf, hm⟩ := h
  exact ⟨f, List.mem_append_left _ hf, hm⟩

theorem Carries.trans (h : Carries messages kept p d q d') (h' : Carries messages kept q d' r d'') :
    Carries messages kept p d r d'' where
  delivered m hm := h'.delivered m (h.delivered m hm)
  arrived m hm hk i hi := h'.arrived m hm hk i (h.arrived m hm hk i hi)

theorem carries_of_reasm (h : q.reasm = p.reasm) (l : List AircFrame) :
    Carries messages kept p d q (d ++ l) where
  delivered _ hm := hm.append l
  arrived m _ _ i hi := by
    rcases hi with hi | ⟨r, hr, hi⟩
    · exact .inl (hi.append l)
    · exact .inr ⟨r, by rw [h, hr], hi⟩

theorem Backed.carry {seq : UInt16} {bitmap : Option (List UInt8)}
    (h : Backed messages wanted p d seq bitmap) (hc : Carries messages kept p d q d')
    (hk : bitmap.isSome → wanted seq → kept seq) : Backed messages wanted q d' seq bitmap := by
  cases bitmap with
  | none =>
    obtain ⟨m, hm, hs, hd⟩ := h
    exact ⟨m, hm, hs, hc.delivered m hd⟩
  | some bits =>
    obtain ⟨m, hm, hs, ha⟩ := h
    refine ⟨m, hm, hs, fun hw i hi => hc.arrived m hm ?_ i (ha hw i hi)⟩
    rw [hs]
    exact hk rfl hw

theorem Inbox.congr (h : Inbox messages wanted p d) (hs : SameInbox p q) :
    Inbox messages wanted q d ∧ Carries messages kept p d q d := by
  have hc : ∀ kept, Carries messages kept p d q d := by
    intro kept
    have := @carries_of_reasm messages kept p q d hs.reasm []
    rwa [List.append_nil] at this
  refine ⟨⟨?_, ?_, ?_⟩, hc kept⟩
  · rw [hs.reasm]
    exact h.buffers
  · rw [hs.seen]
    exact h.seen
  · intro o ho
    rw [hs.owedAck] at ho
    exact ⟨(h.owed o ho).1, (h.owed o ho).2.carry (hc wanted) fun _ hw => hw⟩

theorem Backed.mono {messages' : List Message} {wanted' : UInt16 → Prop} {seq : UInt16}
    {bitmap : Option (List UInt8)} (h : Backed messages wanted p d seq bitmap)
    (hm : ∀ m ∈ messages, m ∈ messages') (hw : ∀ m ∈ messages, wanted' m.seq → wanted m.seq) :
    Backed messages' wanted' p d seq bitmap := by
  cases bitmap with
  | none =>
    obtain ⟨m, hmem, hs, hd⟩ := h
    exact ⟨m, hm m hmem, hs, hd⟩
  | some bits =>
    obtain ⟨m, hmem, hs, ha⟩ := h
    refine ⟨m, hm m hmem, hs, fun hw' => ha ?_⟩
    rw [← hs] at hw' ⊢
    exact hw m hmem hw'

theorem Inbox.mono {messages' : List Message} {wanted' : UInt16 → Prop}
    (h : Inbox messages wanted p d) (hm : ∀ m ∈ messages, m ∈ messages')
    (hw : ∀ m ∈ messages, wanted' m.seq → wanted m.seq) : Inbox messages' wanted' p d where
  buffers seq r hr := by
    obtain ⟨m, hmem, hs, hof⟩ := h.buffers seq r hr
    exact ⟨m, hm m hmem, hs, hof⟩
  seen seq hs := by
    obtain ⟨m, hmem, hs, hd⟩ := h.seen seq hs
    exact ⟨m, hm m hmem, hs, hd⟩
  owed o ho := ⟨(h.owed o ho).1, (h.owed o ho).2.mono hm hw⟩

theorem inbox_blank (now : ℕ) : Inbox messages wanted (Peer.new now) d where
  buffers seq r hr := by simp [Peer.new] at hr
  seen seq hs := by simp [Peer.new] at hs
  owed o ho := by simp [Peer.new] at ho

/-- A restart of the station clears its record. -/
theorem helloReset_inbox {f : AircFrame} (h : Inbox messages wanted p d)
    (hkeep : f.kind = .hello → helloEpoch f ≠ p.epoch → ∀ seq ∈ p.reasm.keys, ¬ kept seq) :
    Inbox messages wanted (helloReset p.noteAirc f) d ∧
    Carries messages kept p d (helloReset p.noteAirc f) d := by
  unfold helloReset
  split_ifs with hr
  · refine ⟨⟨?_, ?_, ?_⟩, ⟨fun _ hm => hm, ?_⟩⟩
    · intro seq r hr
      simp at hr
    · intro seq hs
      simp at hs
    · intro o ho
      simp at ho
    · intro m hm hk i hi
      rcases hi with hi | ⟨r, hget, -⟩
      · exact .inl hi
      · exact absurd hk (hkeep hr.1 hr.2 _ (Table.mem_keys_iff.mpr (by simp [hget])))
  · exact h.congr ⟨rfl, rfl, rfl⟩

/-- No buffer that is kept makes way for the fragment. -/
def NoneEvicted (cfg : SessionConfig) (kept : UInt16 → Prop) (p : Peer) (f : AircFrame) : Prop :=
  f.kind ≠ .ack → f.seq ∉ p.seen → f.fragTotal ≠ 1 → f.payload.length ≤ cfg.maxPayload →
    ∀ seq ∈ p.reasm.keys, seq ∉ (evictReasm p f.seq cfg.maxReasm).keys → ¬ kept seq

theorem arrived_after_evict {cfg : SessionConfig} {f : AircFrame} {m : Message} {i : ℕ}
    (hroom : ∀ seq ∈ p.reasm.keys, seq ∉ (evictReasm p f.seq cfg.maxReasm).keys → ¬ kept seq)
    (hk : kept m.seq) (h : Arrived p d m i) :
    Delivered d m ∨
      ∃ r, (evictReasm p f.seq cfg.maxReasm).get m.seq = some r ∧
        p.reasm.get m.seq = some r ∧ HasPart r i := by
  rcases h with hd | ⟨r, hr, hi⟩
  · exact .inl hd
  · have hkey : m.seq ∈ p.reasm.keys := Table.mem_keys_iff.mpr (by simp [hr])
    have hstays : m.seq ∈ (evictReasm p f.seq cfg.maxReasm).keys := by
      by_contra hgone
      exact hroom m.seq hkey hgone hk
    obtain ⟨r', hr'⟩ := Option.isSome_iff_exists.mp (Table.mem_keys_iff.mp hstays)
    have heq : r' = r := Option.some.inj ((get_evictReasm hr').symm.trans hr)
    exact .inr ⟨r, heq ▸ hr', hr, hi⟩

section

variable {cfg : SessionConfig} {f : AircFrame} {m : Message} {now : ℕ} {addressedToUs : Bool}

theorem buffer_of_fragment (h : Inbox messages wanted p d) (hm : m ∈ messages)
    (hunique : ∀ m ∈ messages, ∀ m' ∈ messages, m.seq = m'.seq → m = m') (hf : m.IsFragment f) :
    ∀ r, p.reasm.get f.seq = some r → BufferOf m r := by
  intro r hr
  obtain ⟨m', hm', hs, hof, -⟩ := h.buffers f.seq r hr
  rw [hunique m hm m' hm' (by rw [hs, hf.seq])]
  exact hof

/-- Owing what was owed, or a complete acknowledgement of what was delivered. -/
theorem owed_of_delivered {seq : UInt16} (h : Inbox messages wanted p d)
    (hcarry : Carries messages kept p d q d')
    (howed : ∀ o, p.owedAck = some o → o.bitmap.isSome → wanted o.seq → kept o.seq)
    (hq : q.owedAck = p.owedAck ∨ q.owedAck = some ⟨seq, none⟩)
    (hdone : ∃ m ∈ messages, m.seq = seq ∧ Delivered d' m) :
    ∀ o, q.owedAck = some o → o.bitmap ≠ some [] ∧ Backed messages wanted q d' o.seq o.bitmap := by
  intro o ho
  rcases hq with hq | hq
  · rw [hq] at ho
    exact ⟨(h.owed o ho).1, (h.owed o ho).2.carry hcarry (howed o ho)⟩
  · rw [hq] at ho
    obtain rfl := Option.some.inj ho
    exact ⟨by simp, hdone⟩

/-- A fragment that leaves its message incomplete. -/
theorem keepParts_inbox (h : Inbox messages wanted p d) (hm : m ∈ messages)
    (hunique : ∀ m ∈ messages, ∀ m' ∈ messages, m.seq = m'.seq → m = m') (hf : m.IsFragment f)
    (howed : ∀ o, p.owedAck = some o → o.bitmap.isSome → wanted o.seq → kept o.seq)
    (hroom : ∀ seq ∈ p.reasm.keys, seq ∉ (evictReasm p f.seq cfg.maxReasm).keys → ¬ kept seq)
    (hc : (stored cfg p f now addressedToUs).complete = false) :
    Inbox messages wanted (keepParts cfg p f addressedToUs (stored cfg p f now addressedToUs)) d ∧
    Carries messages kept p d
      (keepParts cfg p f addressedToUs (stored cfg p f now addressedToUs)) d := by
  obtain ⟨hof, hkeeps⟩ := @stored_of m cfg p f now addressedToUs hf
    (buffer_of_fragment h hm hunique hf)
  have hreasm := keepParts_reasm cfg p f addressedToUs (stored cfg p f now addressedToUs)
  have hcarry : Carries messages kept p d
      (keepParts cfg p f addressedToUs (stored cfg p f now addressedToUs)) d := by
    refine ⟨fun _ hd => hd, ?_⟩
    intro m' hm' hk i hi
    rcases arrived_after_evict hroom hk hi with hd | ⟨r, hev, hr, hi⟩
    · exact .inl hd
    · refine .inr ?_
      rw [hreasm]
      by_cases hs : m'.seq = f.seq
      · rw [hs] at hr ⊢
        exact ⟨_, Table.get_set_self _ _ _, hkeeps r hr i hi⟩
      · rw [Table.get_set_ne _ hs]
        exact ⟨r, hev, hi⟩
  refine ⟨⟨?_, ?_, ?_⟩, hcarry⟩
  · intro seq r hr
    rw [hreasm, Table.get_set] at hr
    split_ifs at hr with hs
    · obtain rfl := Option.some.inj hr
      exact ⟨m, hm, by rw [hs, hf.seq], hof, hc⟩
    · exact h.buffers seq r (get_evictReasm hr)
  · rw [keepParts_seen]
    exact h.seen
  · intro o ho
    rcases keepParts_owedAck cfg p f addressedToUs (stored cfg p f now addressedToUs) with hs | hs
    · rw [hs] at ho
      exact ⟨(h.owed o ho).1, (h.owed o ho).2.carry hcarry (howed o ho)⟩
    · rw [hs] at ho
      obtain rfl := Option.some.inj ho
      refine ⟨by simpa using bitmapFromParts_ne_nil _, m, hm, hf.seq.symm, ?_⟩
      intro _ i hi
      refine .inr ⟨stored cfg p f now addressedToUs, ?_, ?_⟩
      · rw [hreasm, ← hf.seq]
        exact Table.get_set_self _ _ _
      · rw [bitSet_bitmapFromParts] at hi
        exact hi

/-- The last fragment of a message. -/
theorem finishParts_inbox (h : Inbox messages wanted p d) (hm : m ∈ messages) (hv : m.Valid)
    (hunique : ∀ m ∈ messages, ∀ m' ∈ messages, m.seq = m'.seq → m = m') (hf : m.IsFragment f)
    (howed : ∀ o, p.owedAck = some o → o.bitmap.isSome → wanted o.seq → kept o.seq)
    (hroom : ∀ seq ∈ p.reasm.keys, seq ∉ (evictReasm p f.seq cfg.maxReasm).keys → ¬ kept seq)
    (hc : (stored cfg p f now addressedToUs).complete = true) :
    Inbox messages wanted (finishParts cfg p f addressedToUs (stored cfg p f now addressedToUs))
      (d ++ [(stored cfg p f now addressedToUs).message f.seq]) ∧
    Carries messages kept p d
      (finishParts cfg p f addressedToUs (stored cfg p f now addressedToUs))
      (d ++ [(stored cfg p f now addressedToUs).message f.seq]) := by
  obtain ⟨hof, -⟩ := @stored_of m cfg p f now addressedToUs hf (buffer_of_fragment h hm hunique hf)
  have hdone : Delivered (d ++ [(stored cfg p f now addressedToUs).message f.seq]) m := by
    obtain ⟨hkind, hseq, hpayload⟩ := message_of_complete hv hof hc f.seq
    exact ⟨_, List.mem_append_right _ (List.mem_singleton.mpr rfl), hkind, hseq.trans hf.seq,
      hpayload⟩
  have hreasm := finishParts_reasm cfg p f addressedToUs (stored cfg p f now addressedToUs)
  have hcarry : Carries messages kept p d
      (finishParts cfg p f addressedToUs (stored cfg p f now addressedToUs))
      (d ++ [(stored cfg p f now addressedToUs).message f.seq]) := by
    refine ⟨fun _ hd => hd.append _, ?_⟩
    intro m' hm' hk i hi
    rcases arrived_after_evict hroom hk hi with hd | ⟨r, hev, -, hi⟩
    · exact .inl (hd.append _)
    · by_cases hs : m'.seq = f.seq
      · rw [hunique m' hm' m hm (by rw [hs, hf.seq])]
        exact .inl hdone
      · refine .inr ⟨r, ?_, hi⟩
        rw [hreasm, Table.get_erase, if_neg hs]
        exact hev
  refine ⟨⟨?_, ?_, ?_⟩, hcarry⟩
  · intro seq r hr
    rw [hreasm, Table.get_erase] at hr
    split_ifs at hr
    exact h.buffers seq r (get_evictReasm hr)
  · intro seq hs
    rcases finishParts_seen cfg p f addressedToUs (stored cfg p f now addressedToUs) hs with hs | hs
    · obtain ⟨m', hm', hseq, hd⟩ := h.seen seq hs
      exact ⟨m', hm', hseq, hd.append _⟩
    · exact ⟨m, hm, by rw [hs, hf.seq], hdone⟩
  · exact owed_of_delivered h hcarry howed (finishParts_owedAck cfg p f addressedToUs _)
      ⟨m, hm, hf.seq.symm, hdone⟩

theorem delivered_single (hv : m.Valid) (hf : m.IsFragment f) (ht : f.fragTotal = 1) :
    Delivered (d ++ [f]) m := by
  have hone : m.parts.length = 1 := by rw [← hf.total, ht]; rfl
  obtain ⟨part, hparts⟩ := List.length_eq_one_iff.mp hone
  have hpart := hf.part
  have hwhole := hv.whole
  rw [hparts, List.getElem?_singleton] at hpart
  rw [hparts, List.flatten_singleton] at hwhole
  split_ifs at hpart
  refine ⟨f, List.mem_append_right _ (List.mem_singleton.mpr rfl), hf.kind, hf.seq, ?_⟩
  rw [← hwhole, Option.some.inj hpart]

/-- A frame of a message is received: what the record says of the messages stays true. -/
theorem receiveMessage_inbox (h : Inbox messages wanted p d) (hm : m ∈ messages) (hv : m.Valid)
    (hunique : ∀ m ∈ messages, ∀ m' ∈ messages, m.seq = m'.seq → m = m') (hf : m.IsFragment f)
    (howed : ∀ o, p.owedAck = some o → o.bitmap.isSome → wanted o.seq → kept o.seq)
    (hroom : NoneEvicted cfg kept p f) :
    Inbox messages wanted (receiveMessage cfg p f now addressedToUs).1
      (d ++ (receiveMessage cfg p f now addressedToUs).2.1.toList) ∧
    Carries messages kept p d (receiveMessage cfg p f now addressedToUs).1
      (d ++ (receiveMessage cfg p f now addressedToUs).2.1.toList) := by
  have hack : f.kind ≠ .ack := hf.kind ▸ hv.kind
  obtain ⟨q, deliver, duplicate, hr, hseen, hqseen, hreasm, hq⟩ | ⟨q, hr, ht, hqseen, hreasm, hq⟩ |
    ⟨hseen, ht, hr⟩ := receiveMessage_cases cfg p f now addressedToUs
  · -- delivered before
    rw [hr]
    obtain ⟨m', hm', hs, hd⟩ := h.seen f.seq hseen
    have hcarry := @carries_of_reasm messages kept p q d hreasm deliver.toList
    refine ⟨⟨?_, ?_, ?_⟩, hcarry⟩
    · rw [hreasm]
      exact h.buffers
    · intro seq hs
      rw [hqseen] at hs
      obtain ⟨m'', hm'', hseq, hd⟩ := h.seen seq hs
      exact ⟨m'', hm'', hseq, hd.append _⟩
    · exact owed_of_delivered h hcarry howed hq ⟨m', hm', hs, hd.append _⟩
  · -- a message of one frame
    rw [hr]
    have hdone : Delivered (d ++ [f]) m := delivered_single hv hf ht
    have hcarry := @carries_of_reasm messages kept p q d hreasm [f]
    refine ⟨⟨?_, ?_, ?_⟩, hcarry⟩
    · rw [hreasm]
      exact h.buffers
    · intro seq hs
      rcases hqseen seq hs with hs | hs
      · obtain ⟨m', hm', hseq, hd⟩ := h.seen seq hs
        exact ⟨m', hm', hseq, hd.append _⟩
      · exact ⟨m, hm, by rw [hs, hf.seq], hdone⟩
    · exact owed_of_delivered h hcarry howed hq ⟨m, hm, hf.seq.symm, hdone⟩
  · rw [hr]
    by_cases hlong : cfg.maxPayload < f.payload.length
    · simp only [receiveFragment, if_pos hlong, Option.toList_none, List.append_nil]
      exact h.congr ⟨rfl, rfl, rfl⟩
    · have hroom := hroom hack hseen ht (Nat.le_of_not_lt hlong)
      obtain hr | ⟨hc, hr⟩ | ⟨hc, hr⟩ := receiveFragment_cases cfg p f now addressedToUs
      · rw [hr]
        simp only [Option.toList_none, List.append_nil]
        exact h.congr ⟨rfl, rfl, rfl⟩
      · rw [hr]
        simp only [Option.toList_none, List.append_nil]
        exact keepParts_inbox h hm hunique hf howed hroom hc
      · rw [hr]
        exact finishParts_inbox h hm hv hunique hf howed hroom hc

theorem piggybacked_same (h : ¬ (f.kind = .hello ∧ helloEpoch f ≠ p.epoch)) :
    SameInbox p (p.piggybacked f) := by
  have hpiggy := applyPiggyback_inbox (helloReset p.noteAirc f) f
  have hbase : helloReset p.noteAirc f = p.noteAirc := if_neg h
  rw [hbase] at hpiggy
  rw [Peer.piggybacked, hbase]
  exact ⟨hpiggy.seen, hpiggy.reasm, hpiggy.owedAck⟩

theorem piggybacked_reset (h : f.kind = .hello ∧ helloEpoch f ≠ p.epoch) :
    (p.piggybacked f).seen = [] ∧ (p.piggybacked f).reasm = .empty ∧
      (p.piggybacked f).owedAck = none := by
  have hpiggy := applyPiggyback_inbox (helloReset p.noteAirc f) f
  rw [Peer.piggybacked]
  generalize (applyPiggyback (helloReset p.noteAirc f) f).1 = q at hpiggy
  rw [helloReset, if_pos (show f.kind = .hello ∧ helloEpoch f ≠ p.noteAirc.epoch from h)] at hpiggy
  exact ⟨hpiggy.seen, hpiggy.reasm, hpiggy.owedAck⟩

/-- The record before the frame itself is looked at: as it was, or cleared by a restart. -/
theorem piggybacked_cases (p : Peer) (f : AircFrame) :
    SameInbox p (p.piggybacked f) ∨
    (p.piggybacked f).seen = [] ∧ (p.piggybacked f).reasm = .empty ∧
      (p.piggybacked f).owedAck = none := by
  by_cases h : f.kind = .hello ∧ helloEpoch f ≠ p.epoch
  · exact .inr (piggybacked_reset h)
  · exact .inl (piggybacked_same h)

theorem NoneEvicted.piggybacked (h : NoneEvicted cfg kept p f) :
    NoneEvicted cfg kept (p.piggybacked f) f := by
  rcases piggybacked_cases p f with hs | ⟨-, hs, -⟩
  · unfold NoneEvicted evictReasm
    rw [hs.seen, hs.reasm]
    exact h
  · intro _ _ _ _ seq hk
    rw [hs] at hk
    exact absurd hk List.not_mem_nil

/-- A frame is received: what the record says of the messages stays true. -/
theorem receive_inbox (h : Inbox messages wanted p d) (hv : ∀ m ∈ messages, m.Valid)
    (hunique : ∀ m ∈ messages, ∀ m' ∈ messages, m.seq = m'.seq → m = m')
    (hf : f.kind ≠ .ack → ∃ m ∈ messages, m.IsFragment f)
    (howed : ∀ o, p.owedAck = some o → o.bitmap.isSome → wanted o.seq → kept o.seq)
    (hkeep : f.kind = .hello → helloEpoch f ≠ p.epoch → ∀ seq ∈ p.reasm.keys, ¬ kept seq)
    (hroom : NoneEvicted cfg kept p f) :
    Inbox messages wanted (p.receive cfg f now addressedToUs).1
      (d ++ (p.receive cfg f now addressedToUs).2.deliver.toList) ∧
    Carries messages kept p d (p.receive cfg f now addressedToUs).1
      (d ++ (p.receive cfg f now addressedToUs).2.deliver.toList) := by
  obtain ⟨hreset, hcarry⟩ := helloReset_inbox h hkeep
  obtain ⟨hpiggy, hcarry'⟩ := hreset.congr (applyPiggyback_inbox (helloReset p.noteAirc f) f)
  have hcarry := hcarry.trans hcarry'
  change Inbox messages wanted (p.piggybacked f) d at hpiggy
  change Carries messages kept p d (p.piggybacked f) d at hcarry
  by_cases hk : f.kind = .ack
  · rw [receive_of_ack hk]
    cases parseAckPayload f.payload with
    | none =>
      simp only [Option.toList_none, List.append_nil]
      exact ⟨hpiggy, hcarry⟩
    | some parsed =>
      simp only [Option.toList_none, List.append_nil]
      obtain ⟨hin, hc⟩ := hpiggy.congr (applyAck_inbox (p.piggybacked f) parsed.1 parsed.2)
      exact ⟨hin, hcarry.trans hc⟩
  · rw [receive_of_message hk]
    obtain ⟨m, hm, hfrag⟩ := hf hk
    have howed' : ∀ o, (p.piggybacked f).owedAck = some o → o.bitmap.isSome → wanted o.seq →
        kept o.seq := by
      intro o ho
      rcases piggybacked_cases p f with hs | ⟨-, -, hs⟩
      · exact howed o (hs.owedAck ▸ ho)
      · rw [hs] at ho
        simp at ho
    obtain ⟨hin, hc⟩ := receiveMessage_inbox hpiggy hm (hv m hm) hunique hfrag howed'
      hroom.piggybacked
    exact ⟨hin, hcarry.trans hc⟩

end

/-- Nothing of a message is missing only when it was delivered. -/
theorem delivered_of_arrived {m : Message} (h : Inbox messages wanted q d) (hm : m ∈ messages)
    (hv : m.Valid) (hunique : ∀ m ∈ messages, ∀ m' ∈ messages, m.seq = m'.seq → m = m')
    (hall : ∀ i < m.parts.length, Arrived q d m i) : Delivered d m := by
  rcases hall 0 (List.length_pos_of_ne_nil hv.parts) with hd | ⟨r, hr, -⟩
  · exact hd
  · by_contra hnot
    obtain ⟨m', hm', hs, hof, hopen⟩ := h.buffers m.seq r hr
    obtain rfl := hunique m' hm' m hm hs
    have hcomplete : r.complete = true := by
      apply complete_of_has hof
      intro i hi
      rcases hall i hi with hd | ⟨r', hr', hpart⟩
      · exact absurd hd hnot
      · obtain rfl := Option.some.inj (hr.symm.trans hr')
        exact hpart
    rw [hopen] at hcomplete
    exact Bool.false_ne_true hcomplete

end FragmentBuffers
