import Rfircd.AircSession

/-! What one step of a session does to the record of a station. -/
namespace AircSession

open Basics Airc KeyedTable

/-! ### What acknowledgements say -/

theorem octet_testBit : ∀ b : Fin 8 → Bool, ∀ k : Fin 8,
    (((List.finRange 8).map fun j => if b j then 2 ^ j.val else 0).sum).testBit k = b k := by
  decide +kernel

theorem bitmapOctet_testBit (parts : List (Option (List UInt8))) (base : ℕ) {k : ℕ} (hk : k < 8) :
    (bitmapOctet parts base).toNat.testBit k = (parts[base + k]?).join.isSome := by
  have h := octet_testBit (fun j => (parts[base + j]?).join.isSome) ⟨k, hk⟩
  have hsum : ((List.finRange 8).map fun j : Fin 8 =>
      if (parts[base + j.val]?).join.isSome then 2 ^ j.val else 0) =
      (List.range 8).map fun j => if (parts[base + j]?).join.isSome then 2 ^ j else 0 := by
    rfl
  rw [hsum] at h
  rw [bitmapOctet, UInt8.toNat_ofNat', Nat.testBit_mod_two_pow, h]
  simp [hk]

/-- The bit of an index says whether the part is in hand. -/
theorem bitSet_bitmapFromParts (parts : List (Option (List UInt8))) (i : ℕ) :
    bitSet (bitmapFromParts parts) i = (parts[i]?).join.isSome := by
  have hi : 8 * (i / 8) + i % 8 = i := Nat.div_add_mod i 8
  rw [bitSet, bitmapFromParts, List.getElem?_map]
  by_cases h : i / 8 < max ((parts.length + 7) / 8) 1
  · rw [List.getElem?_range h, Option.map_some, Option.any_some,
      bitmapOctet_testBit parts _ (Nat.mod_lt i (by decide)), hi]
  · have hlen : parts.length ≤ i := by omega
    rw [List.getElem?_eq_none (by rw [List.length_range]; omega), List.getElem?_eq_none hlen]
    rfl

theorem bitmapFromParts_ne_nil (parts : List (Option (List UInt8))) :
    bitmapFromParts parts ≠ [] := by
  intro h
  have := congrArg List.length h
  simp only [bitmapFromParts, List.length_map, List.length_range, List.length_nil] at this
  omega

theorem parseAckPayload_ackWithBitmap (seq : UInt16) {bits : List UInt8} (h : bits ≠ []) :
    parseAckPayload (ackWithBitmap seq bits).payload = some (seq, some bits) := by
  cases bits with
  | nil => exact absurd rfl h
  | cons b bits =>
    simp [ackWithBitmap, AircFrame.new, toBeBytes, parseAckPayload, fromBeBytes_toBeBytes]

theorem parseAckPayload_toFrame {o : OwedAck} (h : o.bitmap ≠ some []) :
    parseAckPayload o.toFrame.payload = some (o.seq, o.bitmap) := by
  rcases o with ⟨seq, - | bits⟩
  · simp [OwedAck.toFrame, ackFor, AircFrame.new, toBeBytes, parseAckPayload,
      fromBeBytes_toBeBytes]
  · exact parseAckPayload_ackWithBitmap seq (by simpa using h)

/-! ### What waits to be acknowledged -/

/-- The messages in flight or queued, as their fragments. -/
def Peer.outbox (p : Peer) : List (List AircFrame) :=
  (p.pending.map Pending.frames).toList ++ p.queue

/-- A frame of the outbox, as it was or as a retry. -/
def FromOutbox (box : List (List AircFrame)) (f : AircFrame) : Prop :=
  ∃ frames ∈ box, ∃ g ∈ frames, f = g ∨ f = retryFrame g

theorem FromOutbox.mono {box box' : List (List AircFrame)} {f : AircFrame}
    (h : FromOutbox box f) (hb : ∀ frames ∈ box, frames ∈ box') : FromOutbox box' f := by
  obtain ⟨frames, hm, g, hg, hf⟩ := h
  exact ⟨frames, hb frames hm, g, hg, hf⟩

theorem Pending.missing_from {p : Pending} {f : AircFrame} (h : f ∈ p.missing) :
    ∃ g ∈ p.frames, f = retryFrame g := by
  obtain ⟨⟨g, i⟩, he, rfl⟩ := List.mem_map.mp h
  exact ⟨g, List.fst_mem_of_mem_zipIdx (List.mem_filter.mp he).1, rfl⟩

theorem releasePending_outbox (p : Peer) :
    (releasePending p).1.outbox = p.queue ∧
    (∀ f ∈ (releasePending p).2, FromOutbox p.queue f) := by
  unfold releasePending startPending
  cases hq : p.queue with
  | nil => simp [Peer.outbox]
  | cons next queue =>
    refine ⟨rfl, fun f hf => ⟨next, List.mem_cons_self, f, hf, .inl rfl⟩⟩

/-- An acknowledgement does nothing, reports some fragments, or completes the message. -/
theorem applyAck_cases (p : Peer) (seq : UInt16) (bitmap : Option (List UInt8)) :
    (applyAck p seq bitmap = (p, []) ∧
      ∀ pd ∈ p.pending, pd.seq? = some seq → pd.completedBy bitmap = false) ∨
    (∃ pd bits, p.pending = some pd ∧ pd.seq? = some seq ∧ bitmap = some bits ∧
      pd.completedBy bitmap = false ∧ (pd.mark bits).acked ≠ pd.acked ∧
      applyAck p seq bitmap =
        ({ p with pending := some { pd.mark bits with attempts := 0, nextRetry := none } },
          (pd.mark bits).missing)) ∨
    ∃ pd, p.pending = some pd ∧ pd.seq? = some seq ∧ pd.completedBy bitmap = true ∧
      applyAck p seq bitmap = releasePending p := by
  unfold applyAck
  cases hp : p.pending with
  | none => simp
  | some pd =>
    by_cases hs : pd.seq? = some seq
    · by_cases hc : pd.completedBy bitmap = true
      · exact .inr (.inr ⟨pd, rfl, hs, hc, by simp [hs, hc]⟩)
      · obtain ⟨bits, rfl⟩ : ∃ bits, bitmap = some bits := by
          cases bitmap with
          | none => exact absurd rfl hc
          | some bits => exact ⟨bits, rfl⟩
        by_cases hm : (pd.mark bits).acked = pd.acked
        · exact .inl (by simp [hs, hc, hm])
        · exact .inr (.inl ⟨pd, bits, rfl, hs, rfl, by simpa using hc, hm, by simp [hs, hc, hm]; rfl⟩)
    · exact .inl (by simp [hs])

/-- The half of a record that belongs to what the station sends us. -/
structure SameInbox (p q : Peer) : Prop where
  seen : q.seen = p.seen
  reasm : q.reasm = p.reasm
  owedAck : q.owedAck = p.owedAck

theorem releasePending_inbox (p : Peer) : SameInbox p (releasePending p).1 := by
  unfold releasePending startPending
  cases p.queue <;> exact ⟨rfl, rfl, rfl⟩

theorem applyAck_inbox (p : Peer) (seq : UInt16) (bitmap : Option (List UInt8)) :
    SameInbox p (applyAck p seq bitmap).1 := by
  obtain ⟨h, -⟩ | ⟨pd, bits, -, -, -, -, -, h⟩ | ⟨pd, -, -, -, h⟩ := applyAck_cases p seq bitmap
  · rw [h]
    exact ⟨rfl, rfl, rfl⟩
  · rw [h]
    exact ⟨rfl, rfl, rfl⟩
  · rw [h]
    exact releasePending_inbox p

theorem applyAck_outbox (p : Peer) (seq : UInt16) (bitmap : Option (List UInt8)) :
    (∀ frames ∈ (applyAck p seq bitmap).1.outbox, frames ∈ p.outbox) ∧
    ∀ f ∈ (applyAck p seq bitmap).2, FromOutbox p.outbox f := by
  obtain ⟨h, -⟩ | ⟨pd, bits, hp, -, -, -, -, h⟩ | ⟨pd, -, -, -, h⟩ := applyAck_cases p seq bitmap
  · rw [h]
    exact ⟨fun _ hf => hf, fun _ hf => absurd hf List.not_mem_nil⟩
  · rw [h]
    constructor
    · intro frames hf
      simpa [Peer.outbox, hp, Pending.mark] using hf
    · intro f hf
      obtain ⟨g, hg, rfl⟩ := Pending.missing_from hf
      exact ⟨pd.frames, by simp [Peer.outbox, hp], g, hg, .inr rfl⟩
  · have hq : ∀ frames ∈ p.queue, frames ∈ p.outbox :=
      fun frames hf => List.mem_append_right _ hf
    rw [h]
    constructor
    · intro frames hf
      rw [(releasePending_outbox p).1] at hf
      exact hq frames hf
    · exact fun f hf => ((releasePending_outbox p).2 f hf).mono hq

/-- The half of a record that belongs to what we send the station. -/
structure SameOutbox (p q : Peer) : Prop where
  pending : q.pending = p.pending
  queue : q.queue = p.queue

theorem SameOutbox.outbox {p q : Peer} (h : SameOutbox p q) : q.outbox = p.outbox := by
  rw [Peer.outbox, h.pending, h.queue, Peer.outbox]

theorem receiveFragment_outbox (cfg : SessionConfig) (p : Peer) (f : AircFrame) (now : ℕ)
    (addressedToUs : Bool) : SameOutbox p (receiveFragment cfg p f now addressedToUs).1 := by
  simp only [receiveFragment, keepParts, finishParts]
  split_ifs <;> exact ⟨rfl, rfl⟩

theorem receiveMessage_outbox (cfg : SessionConfig) (p : Peer) (f : AircFrame) (now : ℕ)
    (addressedToUs : Bool) : SameOutbox p (receiveMessage cfg p f now addressedToUs).1 := by
  have hacked : SameOutbox p (if addressedToUs && f.wantsAck then oweAck p f.seq none else p) := by
    split_ifs <;> exact ⟨rfl, rfl⟩
  unfold receiveMessage
  simp only
  split_ifs
  · exact ⟨rfl, rfl⟩
  · exact ⟨rfl, rfl⟩
  · exact ⟨rfl, rfl⟩
  all_goals first | exact hacked | exact receiveFragment_outbox cfg p f now addressedToUs | skip
  all_goals exact ⟨rfl, rfl⟩

theorem helloReset_outbox (p : Peer) (f : AircFrame) :
    ∀ frames ∈ (helloReset p.noteAirc f).outbox, frames ∈ p.outbox := by
  intro frames hf
  unfold helloReset at hf
  split_ifs at hf
  · exact absurd hf List.not_mem_nil
  · exact hf

theorem applyPiggyback_outbox (p : Peer) (f : AircFrame) :
    (∀ frames ∈ (applyPiggyback p f).1.outbox, frames ∈ p.outbox) ∧
    ∀ g ∈ (applyPiggyback p f).2, FromOutbox p.outbox g := by
  unfold applyPiggyback
  cases f.piggybackSeq with
  | none => exact ⟨fun _ hf => hf, fun _ hg => absurd hg List.not_mem_nil⟩
  | some seq => exact applyAck_outbox p seq none

theorem applyPiggyback_inbox (p : Peer) (f : AircFrame) : SameInbox p (applyPiggyback p f).1 := by
  unfold applyPiggyback
  cases f.piggybackSeq with
  | none => exact ⟨rfl, rfl, rfl⟩
  | some seq => exact applyAck_inbox p seq none

/-- The record once the acknowledgement a frame carries has been applied. -/
def Peer.piggybacked (p : Peer) (f : AircFrame) : Peer :=
  (applyPiggyback (helloReset p.noteAirc f) f).1

theorem receive_of_message {cfg : SessionConfig} {p : Peer} {f : AircFrame} {now : ℕ}
    {addressedToUs : Bool} (hk : f.kind ≠ .ack) :
    p.receive cfg f now addressedToUs =
      ((receiveMessage cfg (p.piggybacked f) f now addressedToUs).1,
        ⟨(receiveMessage cfg (p.piggybacked f) f now addressedToUs).2.1,
          (applyPiggyback (helloReset p.noteAirc f) f).2,
          (receiveMessage cfg (p.piggybacked f) f now addressedToUs).2.2⟩) := by
  rw [Peer.receive, Peer.piggybacked]
  simp only [if_neg hk]

theorem receive_of_ack {cfg : SessionConfig} {p : Peer} {f : AircFrame} {now : ℕ}
    {addressedToUs : Bool} (hk : f.kind = .ack) :
    p.receive cfg f now addressedToUs =
      match parseAckPayload f.payload with
      | none => (p.piggybacked f,
          ⟨none, (applyPiggyback (helloReset p.noteAirc f) f).2, false⟩)
      | some (seq, bitmap) => ((applyAck (p.piggybacked f) seq bitmap).1,
          ⟨none, (applyPiggyback (helloReset p.noteAirc f) f).2 ++
            (applyAck (p.piggybacked f) seq bitmap).2, false⟩) := by
  rw [Peer.receive, Peer.piggybacked]
  cases parseAckPayload f.payload with
  | none => simp only [if_pos hk]
  | some ack => simp only [if_pos hk]

/-- Receiving puts nothing into the outbox, and sends only what was in it. -/
theorem receive_outbox (cfg : SessionConfig) (p : Peer) (f : AircFrame) (now : ℕ)
    (addressedToUs : Bool) :
    (∀ frames ∈ (p.receive cfg f now addressedToUs).1.outbox, frames ∈ p.outbox) ∧
    ∀ g ∈ (p.receive cfg f now addressedToUs).2.transmit, FromOutbox p.outbox g := by
  have hreset := helloReset_outbox p f
  obtain ⟨hpiggy, hsent⟩ := applyPiggyback_outbox (helloReset p.noteAirc f) f
  have hbox : ∀ frames ∈ (p.piggybacked f).outbox, frames ∈ p.outbox :=
    fun frames hf => hreset frames (hpiggy frames hf)
  have hreleased : ∀ g ∈ (applyPiggyback (helloReset p.noteAirc f) f).2, FromOutbox p.outbox g :=
    fun g hg => (hsent g hg).mono hreset
  by_cases hk : f.kind = .ack
  · rw [receive_of_ack hk]
    cases parseAckPayload f.payload with
    | none => exact ⟨hbox, hreleased⟩
    | some parsed =>
      obtain ⟨seq, bitmap⟩ := parsed
      obtain ⟨hack, hnext⟩ := applyAck_outbox (p.piggybacked f) seq bitmap
      refine ⟨fun frames hf => hbox frames (hack frames hf), ?_⟩
      intro g hg
      rcases List.mem_append.mp hg with hg | hg
      · exact hreleased g hg
      · exact (hnext g hg).mono hbox
  · rw [receive_of_message hk]
    refine ⟨?_, hreleased⟩
    intro frames hf
    rw [(receiveMessage_outbox cfg (p.piggybacked f) f now addressedToUs).outbox] at hf
    exact hbox frames hf

/-! ### What a frame does to the inbox -/

theorem mem_rememberSeq {p : Peer} {seq s : UInt16} {window : ℕ}
    (h : s ∈ (rememberSeq p seq window).seen) : s ∈ p.seen ∨ s = seq := by
  have h := List.mem_of_mem_drop h
  simpa using h

theorem mem_rememberSeq_self (p : Peer) (seq : UInt16) {window : ℕ} (hw : 1 ≤ window) :
    seq ∈ (rememberSeq p seq window).seen := by
  change seq ∈ (p.seen ++ [seq]).drop (p.seen.length + 1 - window)
  rw [List.drop_append_of_le_length (by omega)]
  exact List.mem_append_right _ (List.mem_singleton.mpr rfl)

/-- A fragment is refused, is kept until the others come, or completes its message. -/
theorem receiveFragment_cases (cfg : SessionConfig) (p : Peer) (f : AircFrame) (now : ℕ)
    (addressedToUs : Bool) :
    receiveFragment cfg p f now addressedToUs = (p, none) ∨
    (stored cfg p f now addressedToUs).complete = false ∧
      receiveFragment cfg p f now addressedToUs =
        (keepParts cfg p f addressedToUs (stored cfg p f now addressedToUs), none) ∨
    (stored cfg p f now addressedToUs).complete = true ∧
      receiveFragment cfg p f now addressedToUs =
        (finishParts cfg p f addressedToUs (stored cfg p f now addressedToUs),
          some ((stored cfg p f now addressedToUs).message f.seq)) := by
  unfold receiveFragment
  split_ifs with hlong
  · exact .inl rfl
  · by_cases hc : (stored cfg p f now addressedToUs).complete = true
    · exact .inr (.inr ⟨hc, by simp [hc]⟩)
    · rw [Bool.not_eq_true] at hc
      exact .inr (.inl ⟨hc, by simp [hc]⟩)

theorem get_evictReasm {p : Peer} {seq s : UInt16} {maxReasm : ℕ} {r : Reassembly}
    (h : (evictReasm p seq maxReasm).get s = some r) : p.reasm.get s = some r := by
  unfold evictReasm at h
  split_ifs at h
  · cases hk : p.reasm.leastKey Reassembly.started with
    | none => simpa [hk] using h
    | some oldest =>
      simp only [hk, Table.get_erase] at h
      split_ifs at h
      exact h
  · exact h

/-- A message that has a buffer keeps it. -/
theorem get_evictReasm_self (p : Peer) (seq : UInt16) (maxReasm : ℕ) :
    (evictReasm p seq maxReasm).get seq = p.reasm.get seq := by
  cases h : p.reasm.get seq with
  | none =>
    refine Option.eq_none_iff_forall_ne_some.mpr fun r hr => ?_
    rw [get_evictReasm hr] at h
    simp at h
  | some r =>
    have hk : seq ∈ p.reasm.keys := Table.mem_keys_iff.mpr (by simp [h])
    rw [evictReasm, if_neg (fun hc => hc.1 hk), h]

section

variable (cfg : SessionConfig) (p : Peer) (f : AircFrame) (addressedToUs : Bool) (r : Reassembly)

theorem keepParts_seen : (keepParts cfg p f addressedToUs r).seen = p.seen := by
  simp only [keepParts]
  split_ifs <;> rfl

theorem keepParts_reasm : (keepParts cfg p f addressedToUs r).reasm =
    (evictReasm p f.seq cfg.maxReasm).set f.seq r := by
  simp only [keepParts]
  split_ifs <;> rfl

theorem keepParts_owedAck : (keepParts cfg p f addressedToUs r).owedAck = p.owedAck ∨
    (keepParts cfg p f addressedToUs r).owedAck = some ⟨f.seq, some (bitmapFromParts r.parts)⟩ := by
  simp only [keepParts]
  split_ifs
  · exact .inr rfl
  · exact .inl rfl

theorem finishParts_seen {s : UInt16} (h : s ∈ (finishParts cfg p f addressedToUs r).seen) :
    s ∈ p.seen ∨ s = f.seq := by
  simp only [finishParts] at h
  split_ifs at h <;> exact mem_rememberSeq h

theorem finishParts_reasm : (finishParts cfg p f addressedToUs r).reasm =
    (evictReasm p f.seq cfg.maxReasm).erase f.seq := by
  simp only [finishParts]
  split_ifs <;> rfl

theorem finishParts_owedAck : (finishParts cfg p f addressedToUs r).owedAck = p.owedAck ∨
    (finishParts cfg p f addressedToUs r).owedAck = some ⟨f.seq, none⟩ := by
  simp only [finishParts]
  split_ifs
  · exact .inr rfl
  · exact .inl rfl

end

/-- A message was delivered before, is whole, or is a fragment. -/
theorem receiveMessage_cases (cfg : SessionConfig) (p : Peer) (f : AircFrame) (now : ℕ)
    (addressedToUs : Bool) :
    (∃ q deliver duplicate,
      receiveMessage cfg p f now addressedToUs = (q, deliver, duplicate) ∧ f.seq ∈ p.seen ∧
      q.seen = p.seen ∧ q.reasm = p.reasm ∧
      (q.owedAck = p.owedAck ∨ q.owedAck = some ⟨f.seq, none⟩)) ∨
    (∃ q, receiveMessage cfg p f now addressedToUs = (q, some f, false) ∧ f.fragTotal = 1 ∧
      (∀ s ∈ q.seen, s ∈ p.seen ∨ s = f.seq) ∧ q.reasm = p.reasm ∧
      (q.owedAck = p.owedAck ∨ q.owedAck = some ⟨f.seq, none⟩)) ∨
    f.seq ∉ p.seen ∧ f.fragTotal ≠ 1 ∧
      receiveMessage cfg p f now addressedToUs =
        ((receiveFragment cfg p f now addressedToUs).1,
          (receiveFragment cfg p f now addressedToUs).2, false) := by
  simp only [receiveMessage]
  by_cases hseen : f.seq ∈ p.seen
  · refine .inl ?_
    simp only [if_pos hseen]
    split_ifs
    · exact ⟨_, _, _, rfl, hseen, rfl, rfl, .inr rfl⟩
    · exact ⟨_, _, _, rfl, hseen, rfl, rfl, .inl rfl⟩
    · exact ⟨_, _, _, rfl, hseen, rfl, rfl, .inr rfl⟩
    · exact ⟨_, _, _, rfl, hseen, rfl, rfl, .inl rfl⟩
  · simp only [if_neg hseen]
    by_cases htotal : f.fragTotal = 1
    · refine .inr (.inl ?_)
      simp only [if_pos htotal]
      split_ifs
      · exact ⟨_, rfl, htotal, fun _ hs => mem_rememberSeq hs, rfl, .inr rfl⟩
      · exact ⟨_, rfl, htotal, fun _ hs => mem_rememberSeq hs, rfl, .inl rfl⟩
    · exact .inr (.inr ⟨hseen, htotal, by simp only [if_neg htotal]⟩)

/-- What becomes of a frame that is no acknowledgement: the number was seen before, or the frame
is a message, too long, one part of several, or the last missing part. -/
inductive Taken (cfg : SessionConfig) (p : Peer) (f : AircFrame) (now : ℕ) (addressedToUs : Bool) :
    Peer → Option AircFrame → Prop where
  | again (q deliver) (hseen : f.seq ∈ p.seen) (hsame : q.seen = p.seen)
      (hreasm : q.reasm = p.reasm) (hdeliver : deliver = if f.kind = .hello then some f else none) :
      Taken cfg p f now addressedToUs q deliver
  | single (q) (hnew : f.seq ∉ p.seen) (htotal : f.fragTotal = 1)
      (hseen : q.seen = (rememberSeq p f.seq cfg.dedupWindow).seen) (hreasm : q.reasm = p.reasm) :
      Taken cfg p f now addressedToUs q (some f)
  | refused (hnew : f.seq ∉ p.seen) (htotal : f.fragTotal ≠ 1)
      (hlong : cfg.maxPayload < f.payload.length) : Taken cfg p f now addressedToUs p none
  | kept (q) (hnew : f.seq ∉ p.seen) (htotal : f.fragTotal ≠ 1)
      (hlen : f.payload.length ≤ cfg.maxPayload)
      (hopen : (stored cfg p f now addressedToUs).complete = false) (hseen : q.seen = p.seen)
      (hreasm : q.reasm =
        (evictReasm p f.seq cfg.maxReasm).set f.seq (stored cfg p f now addressedToUs)) :
      Taken cfg p f now addressedToUs q none
  | finished (q) (hnew : f.seq ∉ p.seen) (htotal : f.fragTotal ≠ 1)
      (hlen : f.payload.length ≤ cfg.maxPayload)
      (hdone : (stored cfg p f now addressedToUs).complete = true)
      (hseen : q.seen = (rememberSeq p f.seq cfg.dedupWindow).seen)
      (hreasm : q.reasm = (evictReasm p f.seq cfg.maxReasm).erase f.seq) :
      Taken cfg p f now addressedToUs q (some ((stored cfg p f now addressedToUs).message f.seq))

theorem receiveFragment_taken {cfg : SessionConfig} {p : Peer} {f : AircFrame} {now : ℕ}
    {addressedToUs : Bool} (hnew : f.seq ∉ p.seen) (htotal : f.fragTotal ≠ 1) :
    Taken cfg p f now addressedToUs (receiveFragment cfg p f now addressedToUs).1
      (receiveFragment cfg p f now addressedToUs).2 := by
  by_cases hlong : cfg.maxPayload < f.payload.length
  · simp only [receiveFragment, if_pos hlong]
    exact .refused hnew htotal hlong
  · have hlen := Nat.le_of_not_lt hlong
    cases hc : (stored cfg p f now addressedToUs).complete with
    | false =>
      simp only [receiveFragment, if_neg hlong, hc, Bool.not_false, if_true]
      exact .kept _ hnew htotal hlen hc (keepParts_seen ..) (keepParts_reasm ..)
    | true =>
      simp only [receiveFragment, if_neg hlong, hc, Bool.not_true, Bool.false_eq_true, if_false]
      refine .finished _ hnew htotal hlen hc ?_ (finishParts_reasm ..)
      simp only [finishParts]
      split_ifs <;> rfl

theorem receiveMessage_taken (cfg : SessionConfig) (p : Peer) (f : AircFrame) (now : ℕ)
    (addressedToUs : Bool) :
    Taken cfg p f now addressedToUs (receiveMessage cfg p f now addressedToUs).1
      (receiveMessage cfg p f now addressedToUs).2.1 := by
  by_cases hseen : f.seq ∈ p.seen
  · apply Taken.again _ _ hseen
    all_goals
      simp only [receiveMessage, if_pos hseen]
      split_ifs <;> rfl
  · by_cases htotal : f.fragTotal = 1
    · simp only [receiveMessage, if_neg hseen, if_pos htotal]
      apply Taken.single _ hseen htotal
      all_goals split_ifs <;> rfl
    · simp only [receiveMessage, if_neg hseen, if_neg htotal]
      exact receiveFragment_taken hseen htotal

/-! ### New messages -/

theorem chunksWith_flatten {max : ℕ} (hm : 0 < max) {fuel : ℕ} {l : List UInt8}
    (h : l.length ≤ fuel) : (chunksWith max fuel l).flatten = l := by
  induction fuel generalizing l with
  | zero =>
    rw [List.eq_nil_of_length_eq_zero (Nat.le_zero.mp h)]
    rfl
  | succ fuel ih =>
    rw [chunksWith]
    split_ifs with hl
    · simp [hl]
    · have hpos := List.length_pos_of_ne_nil hl
      rw [List.flatten_cons, ih (by rw [List.length_drop]; omega), List.take_append_drop]

theorem maxPayload_pos (cfg : SessionConfig) : 0 < cfg.maxPayload :=
  Nat.lt_of_lt_of_le Nat.zero_lt_one (Nat.le_max_right _ _)

/-- The parts of a message are the message. -/
theorem chunkPayload_flatten {max : ℕ} (hm : 0 < max) (payload : List UInt8) (piggy : Bool) :
    (chunkPayload payload max piggy).flatten = payload := by
  simp only [chunkPayload]
  generalize (if piggy = true then Nat.max (max - 2) 1 else max) = firstMax
  split_ifs
  · simp
  · rw [List.flatten_cons, chunks, chunksWith_flatten hm le_rfl, List.take_append_drop]

theorem chunkPayload_ne_nil (payload : List UInt8) (max : ℕ) (piggy : Bool) :
    chunkPayload payload max piggy ≠ [] := by
  simp only [chunkPayload]
  split_ifs <;> exact List.cons_ne_nil _ _

/-- The parts a new message is cut into. -/
def Peer.parts (cfg : SessionConfig) (p : Peer) (payload : List UInt8) (reliable : Bool) :
    List (List UInt8) :=
  chunkPayload payload cfg.maxPayload (takePiggyback cfg p reliable).1.isSome

theorem takePiggyback_cases (cfg : SessionConfig) (p : Peer) (reliable : Bool) :
    takePiggyback cfg p reliable = (none, p) ∨
    ∃ seq, p.owedAck = some ⟨seq, none⟩ ∧ reliable = true ∧ p.pending = none ∧
      takePiggyback cfg p reliable = (some seq, { p with owedAck := none }) := by
  unfold takePiggyback
  split_ifs with h
  · rw [Bool.and_eq_true, Bool.and_eq_true] at h
    have hr : reliable = true := h.1.2
    have hp : p.pending = none := by simpa [hr] using h.1.1
    rcases ho : p.owedAck with - | ⟨seq, - | bits⟩
    · exact .inl rfl
    · exact .inr ⟨seq, rfl, hr, hp, rfl⟩
    · exact .inl rfl
  · exact .inl rfl

/-- A message is refused, goes out unreliably, waits behind another, or is the one in flight. -/
theorem enqueue_cases (cfg : SessionConfig) (p : Peer) (seq : UInt16) (kind : Kind)
    (payload : List UInt8) (reliable : Bool) :
    (∃ q, p.enqueue cfg seq kind payload reliable = (q, .dropped) ∧
      SameInbox p q ∧ SameOutbox p q) ∨
    (p.parts cfg payload reliable).length ≤ 255 ∧
    ((reliable = false ∧ p.enqueue cfg seq kind payload reliable =
        (p, ⟨fragments kind seq reliable (p.parts cfg payload reliable), true⟩)) ∨
    (reliable = true ∧ p.pending.isSome ∧ p.queue.length < cfg.maxQueue ∧
      p.enqueue cfg seq kind payload reliable =
        ({ p with queue := p.queue ++ [fragments kind seq reliable (p.parts cfg payload reliable)] },
          ⟨[], true⟩)) ∨
    (reliable = true ∧ p.pending = none ∧ p.enqueue cfg seq kind payload reliable =
        ((startPending p (fragments kind seq reliable (p.parts cfg payload reliable))).1,
          ⟨fragments kind seq reliable (p.parts cfg payload reliable), true⟩)) ∨
    ∃ acked, reliable = true ∧ p.pending = none ∧ p.owedAck = some ⟨acked, none⟩ ∧
      p.enqueue cfg seq kind payload reliable =
        ((startPending { p with owedAck := none }
            (fragments kind seq reliable (p.parts cfg payload reliable))).1,
          ⟨(fragments kind seq reliable (p.parts cfg payload reliable)).modifyHead
            (·.attachPiggyback acked), true⟩)) := by
  unfold Peer.enqueue Peer.parts
  obtain h | ⟨acked, ho, hr, hp, h⟩ := takePiggyback_cases cfg p reliable
  · simp only [h, restorePiggyback]
    split_ifs with hlong hrel hpend hfull
    · exact .inl ⟨_, rfl, ⟨rfl, rfl, rfl⟩, ⟨rfl, rfl⟩⟩
    · exact .inr ⟨by omega, .inl ⟨by simpa using hrel, rfl⟩⟩
    · exact .inl ⟨_, rfl, ⟨rfl, rfl, rfl⟩, ⟨rfl, rfl⟩⟩
    · exact .inr ⟨by omega, .inr (.inl ⟨by simpa using hrel, hpend, by omega, rfl⟩)⟩
    · exact .inr ⟨by omega, .inr (.inr (.inl ⟨by simpa using hrel, by simpa using hpend, rfl⟩))⟩
  · subst hr
    simp only [h, restorePiggyback]
    split_ifs with hlong hrel hpend
    · exact .inl ⟨_, rfl, ⟨rfl, rfl, by simp [oweAck, ho]⟩, ⟨rfl, rfl⟩⟩
    · exact absurd hrel (by decide)
    · simp [hp] at hpend
    · simp [hp] at hpend
    · exact .inr ⟨by omega, .inr (.inr (.inr ⟨acked, trivial, hp, ho, rfl⟩))⟩

/-! ### The message in flight -/

/-- No message is taken in: the one in flight keeps its marks or makes way for one that waited. -/
structure Advances (p q : Peer) : Prop where
  outbox : ∀ frames ∈ q.outbox, frames ∈ p.outbox
  marks : ∀ pd, q.pending = some pd →
    (∃ old, p.pending = some old ∧ pd.frames = old.frames ∧ pd.acked = old.acked) ∨
    pd.acked = pd.frames.map fun _ => false

theorem SameOutbox.advances {p q : Peer} (h : SameOutbox p q) : Advances p q where
  outbox _ hf := h.outbox ▸ hf
  marks pd hp := .inl ⟨pd, h.pending ▸ hp, rfl, rfl⟩

theorem Advances.trans {p q r : Peer} (h : Advances p q) (h' : Advances q r) : Advances p r where
  outbox frames hf := h.outbox frames (h'.outbox frames hf)
  marks pd hp := by
    rcases h'.marks pd hp with ⟨old, hold, hframes, hacked⟩ | hfresh
    · rcases h.marks old hold with ⟨older, hp, hframes', hacked'⟩ | hfresh
      · exact .inl ⟨older, hp, hframes.trans hframes', hacked.trans hacked'⟩
      · exact .inr (by rw [hacked, hfresh, hframes])
    · exact .inr hfresh

theorem advances_blank (p : Peer) (now : ℕ) : Advances p (Peer.new now) where
  outbox frames hf := absurd hf List.not_mem_nil
  marks pd hp := by simp [Peer.new] at hp

theorem releasePending_advances (p : Peer) : Advances p (releasePending p).1 where
  outbox frames hf := by
    rw [(releasePending_outbox p).1] at hf
    exact List.mem_append_right _ hf
  marks pd hp := by
    refine .inr ?_
    unfold releasePending startPending at hp
    cases hq : p.queue with
    | nil => simp [hq] at hp
    | cons next queue =>
      simp only [hq, Option.some.injEq] at hp
      rw [← hp]

theorem helloReset_advances (p : Peer) (f : AircFrame) : Advances p (helloReset p.noteAirc f) where
  outbox := helloReset_outbox p f
  marks pd hp := by
    unfold helloReset at hp
    split_ifs at hp
    exact .inl ⟨pd, hp, rfl, rfl⟩

theorem onKeyed_advances (cfg : SessionConfig) (p : Peer) (seq : UInt16) (now : ℕ) :
    Advances p (p.onKeyed cfg seq now) := by
  unfold Peer.onKeyed
  cases hp : p.pending with
  | none => exact SameOutbox.advances ⟨rfl, rfl⟩
  | some pd =>
    simp only
    split_ifs
    · exact SameOutbox.advances ⟨rfl, rfl⟩
    · constructor
      · intro frames hf
        simpa [Peer.outbox, hp] using hf
      · intro pd' hpd
        obtain rfl := Option.some.inj hpd
        exact .inl ⟨pd, hp, rfl, rfl⟩

theorem onKeyed_inbox (cfg : SessionConfig) (p : Peer) (seq : UInt16) (now : ℕ) :
    SameInbox p (p.onKeyed cfg seq now) := by
  unfold Peer.onKeyed
  cases p.pending with
  | none => exact ⟨rfl, rfl, rfl⟩
  | some pd =>
    simp only
    split_ifs <;> exact ⟨rfl, rfl, rfl⟩

/-! ### Timers -/

/-- A tick reports and drops what is overdue; what is to be sent goes on. -/
structure AfterTick (cfg : SessionConfig) (now : ℕ) (p q : Peer) : Prop where
  seen : q.seen = p.seen
  owedAck : q.owedAck = p.owedAck
  reasm : q.reasm = (expireReasm cfg p now).1.reasm
  advances : Advances p q

theorem expireReasm_after (cfg : SessionConfig) (p : Peer) (now : ℕ) :
    AfterTick cfg now p (expireReasm cfg p now).1 :=
  ⟨rfl, rfl, rfl, SameOutbox.advances ⟨rfl, rfl⟩⟩

theorem tick_after (cfg : SessionConfig) (p : Peer) (now : ℕ) (retry : Bool) :
    AfterTick cfg now p (p.tick cfg now retry).1 ∧
    ∀ f ∈ (p.tick cfg now retry).2.1, FromOutbox p.outbox f ∨ f ∈ (expireReasm cfg p now).2 := by
  have hexpire := expireReasm_after cfg p now
  have hpending : (expireReasm cfg p now).1.pending = p.pending := rfl
  simp only [Peer.tick, hpending]
  cases hp : p.pending with
  | none => split_ifs <;> exact ⟨hexpire, fun f hf => .inr hf⟩
  | some pd =>
    simp only
    split_ifs
    · exact ⟨hexpire, fun f hf => .inr hf⟩
    · exact ⟨hexpire, fun f hf => .inr hf⟩
    · exact ⟨hexpire, fun f hf => .inr hf⟩
    · exact ⟨hexpire, fun f hf => .inr hf⟩
    · refine ⟨⟨rfl, rfl, rfl, ⟨?_, ?_⟩⟩, ?_⟩
      · intro frames hf
        simpa [Peer.outbox, hp, retryPending, expireReasm] using hf
      · intro pd' hpd
        obtain rfl := Option.some.inj hpd
        exact .inl ⟨pd, hp, rfl, rfl⟩
      · intro f hf
        rcases List.mem_append.mp hf with hf | hf
        · exact .inr hf
        · obtain ⟨g, hg, rfl⟩ := Pending.missing_from hf
          exact .inl ⟨pd.frames, by simp [Peer.outbox, hp], g, hg, .inr rfl⟩

theorem abandon_some {p q : Peer} {next : List AircFrame} (h : p.abandon = some (q, next)) :
    SameInbox p q ∧ Advances p q ∧ ∀ f ∈ next, FromOutbox p.outbox f := by
  unfold Peer.abandon at h
  split at h
  · simp at h
  · have h := Option.some.inj h
    have hin := releasePending_inbox { p with dropped := p.dropped + 1 }
    have hadv := releasePending_advances { p with dropped := p.dropped + 1 }
    have hout := (releasePending_outbox { p with dropped := p.dropped + 1 }).2
    rw [h] at hin hadv hout
    refine ⟨⟨hin.seen, hin.reasm, hin.owedAck⟩, ⟨hadv.outbox, hadv.marks⟩, ?_⟩
    intro f hf
    exact (hout f hf).mono fun frames hm => List.mem_append_right _ hm

theorem ticked_after {s : Sessions} {now : ℕ} {retry : Bool} {p q : Peer}
    (h : (s.ticked now retry p).1 = some q) : AfterTick s.config now p q := by
  have ht := (tick_after s.config p now retry).1
  unfold Sessions.ticked at h
  rcases hk : p.tick s.config now retry with ⟨r, frames, - | - | -⟩
  · rw [hk] at h ht
    obtain rfl := Option.some.inj h
    exact ht
  · simp [hk] at h
  · rw [hk] at h ht
    rcases ha : r.abandon with - | ⟨r', next⟩
    · simp [ha] at h
    · simp only [ha, Option.some.injEq] at h
      subst h
      obtain ⟨hin, hadv, -⟩ := abandon_some ha
      exact ⟨hin.seen.trans ht.seen, hin.owedAck.trans ht.owedAck, hin.reasm.trans ht.reasm,
        ht.advances.trans hadv⟩

theorem ticked_frames {s : Sessions} {now : ℕ} {retry : Bool} {p : Peer} {f : AircFrame}
    (h : f ∈ (s.ticked now retry p).2.1 ++ (s.ticked now retry p).2.2) :
    FromOutbox p.outbox f ∨ f ∈ (expireReasm s.config p now).2 := by
  obtain ⟨ht, hframes⟩ := tick_after s.config p now retry
  unfold Sessions.ticked at h
  rcases hk : p.tick s.config now retry with ⟨r, frames, - | - | -⟩
  · exact hframes f (by simpa [hk] using h)
  · exact hframes f (by simpa [hk] using h)
  · rw [hk] at ht hframes
    rcases ha : r.abandon with - | ⟨r', next⟩
    · exact hframes f (by simpa [hk, ha] using h)
    · simp only [hk, ha, List.mem_append] at h
      rcases h with h | h
      · exact hframes f h
      · exact .inl (((abandon_some ha).2.2 f h).mono ht.advances.outbox)

/-! ### All stations -/

/-- Those of the frames that are for one station. -/
def framesTo (call : Callsign) (frames : List (Callsign × AircFrame)) : List AircFrame :=
  frames.filterMap fun e => if e.1 = call then some e.2 else none

theorem mem_framesTo {call : Callsign} {frames : List (Callsign × AircFrame)} {f : AircFrame} :
    f ∈ framesTo call frames ↔ (call, f) ∈ frames := by
  rw [framesTo, List.mem_filterMap]
  constructor
  · rintro ⟨⟨c, g⟩, he, h⟩
    split_ifs at h with hc
    obtain rfl := Option.some.inj h
    subst hc
    exact he
  · intro h
    exact ⟨_, h, if_pos rfl⟩

/-! ### What is accepted -/

/-- The message fits in frames, and does not wait behind too many others. -/
def Peer.accepts (cfg : SessionConfig) (p : Peer) (payload : List UInt8) (reliable : Bool) : Bool :=
  decide ((p.parts cfg payload reliable).length ≤ 255) &&
    (!reliable || p.pending.isNone || decide (p.queue.length < cfg.maxQueue))

theorem Peer.enqueue_accepted (cfg : SessionConfig) (p : Peer) (seq : UInt16) (kind : Kind)
    (payload : List UInt8) (reliable : Bool) :
    (p.enqueue cfg seq kind payload reliable).2.accepted = p.accepts cfg payload reliable := by
  unfold Peer.enqueue Peer.accepts Peer.parts
  obtain h | ⟨acked, ho, hr, hp, h⟩ := takePiggyback_cases cfg p reliable
  · simp only [h, restorePiggyback, Option.isSome_none]
    generalize chunkPayload payload cfg.maxPayload false = parts
    split_ifs with hlong hrel hpend hfull
    · simp [SendOutcome.dropped, Nat.not_le.mpr hlong]
    · simp at hrel
      simp [hrel, Nat.not_lt.mp hlong]
    · simp at hrel
      simp [SendOutcome.dropped, hrel, hpend, hfull]
    · simp [Nat.not_lt.mp hlong, Nat.not_le.mp hfull]
    · simp [Nat.not_lt.mp hlong, Option.not_isSome_iff_eq_none.mp hpend]
  · subst hr
    simp only [h, restorePiggyback, Option.isSome_some]
    generalize chunkPayload payload cfg.maxPayload true = parts
    split_ifs with hlong hrel hpend
    · simp [SendOutcome.dropped, Nat.not_le.mpr hlong]
    · exact absurd hrel (by decide)
    · simp [hp] at hpend
    · simp [hp] at hpend
    · simp [Nat.not_lt.mp hlong, hp]

theorem Peer.accepts_same {p q : Peer} (hinbox : SameInbox p q) (houtbox : SameOutbox p q)
    (cfg : SessionConfig) (payload : List UInt8) (reliable : Bool) :
    q.accepts cfg payload reliable = p.accepts cfg payload reliable := by
  have htake : (takePiggyback cfg q reliable).1.isSome = (takePiggyback cfg p reliable).1.isSome := by
    unfold takePiggyback
    rw [houtbox.pending, hinbox.owedAck]
    split_ifs
    · split <;> rfl
    · rfl
  unfold Peer.accepts Peer.parts
  rw [htake, houtbox.pending, houtbox.queue]

namespace Sessions

/-- What is known of a station; a blank record when it is not in the table. -/
def record (s : Sessions) (call : Callsign) : Peer := (s.peer call).getD (Peer.new 0)

theorem record_of_peer {s t : Sessions} {call : Callsign} (h : t.peer call = s.peer call) :
    t.record call = s.record call := by
  rw [record, h, record]

theorem peer_store (s : Sessions) (call : Callsign) (p : Peer) (j : Callsign) :
    (s.store call p).peer j = if j = call then some p else s.peer j :=
  Table.get_set s.peers call p j

@[simp] theorem record_store_self (s : Sessions) (call : Callsign) (p : Peer) :
    (s.store call p).record call = p := by
  simp [record, peer_store]

theorem record_store_ne (s : Sessions) {call j : Callsign} (h : j ≠ call) (p : Peer) :
    (s.store call p).record j = s.record j := by
  simp [record, peer_store, h]

/-- A record keeps both halves when the station is heard or written to. -/
theorem touched_same {s : Sessions} {call : Callsign} {now : ℕ} {p : Peer}
    (h : s.touched call now = some p) :
    SameInbox (s.record call) p ∧ SameOutbox (s.record call) p ∧
      p.epoch = (s.record call).epoch := by
  rw [touched] at h
  rw [record, peer]
  cases hp : s.peers.get call with
  | some old =>
    simp only [hp, Option.some.injEq] at h
    subst h
    exact ⟨⟨rfl, rfl, rfl⟩, ⟨rfl, rfl⟩, rfl⟩
  | none =>
    simp only [hp] at h
    split_ifs at h
    obtain rfl := Option.some.inj h
    exact ⟨⟨rfl, rfl, rfl⟩, ⟨rfl, rfl⟩, rfl⟩

theorem onReceive_cases (s : Sessions) (src : Callsign) (f : AircFrame) (now : ℕ)
    (addressedToUs : Bool) :
    s.touched src now = none ∧ s.onReceive src f now addressedToUs = (s, .default) ∨
    ∃ p, s.touched src now = some p ∧
      s.onReceive src f now addressedToUs =
        (s.store src (p.receive s.config f now addressedToUs).1,
          (p.receive s.config f now addressedToUs).2) := by
  unfold onReceive
  cases ht : s.touched src now with
  | none => exact .inl ⟨rfl, rfl⟩
  | some p => exact .inr ⟨p, rfl, rfl⟩

theorem onReceive_peer (s : Sessions) {src j : Callsign} (h : j ≠ src) (f : AircFrame) (now : ℕ)
    (addressedToUs : Bool) : (s.onReceive src f now addressedToUs).1.peer j = s.peer j := by
  obtain ⟨-, hr⟩ | ⟨p, -, hr⟩ := onReceive_cases s src f now addressedToUs
  · rw [hr]
  · rw [hr, peer_store, if_neg h]

theorem evictPeer_peer (s : Sessions) (call j : Callsign) :
    (s.evictPeer call).peer j = s.peer j ∨ j ≠ call ∧ (s.evictPeer call).peer j = none := by
  unfold evictPeer
  split_ifs with h
  · rw [Table.mem_keys_iff, Option.not_isSome_iff_eq_none] at h
    cases s.peers.leastKey Peer.lastHeard with
    | none => exact .inl rfl
    | some oldest =>
      simp only [peer, Table.get_erase]
      split_ifs with hj
      · by_cases hc : j = call
        · exact .inl (by rw [hc, h.1])
        · exact .inr ⟨hc, rfl⟩
      · exact .inl rfl
  · exact .inl rfl

theorem evictPeer_config (s : Sessions) (call : Callsign) :
    (s.evictPeer call).config = s.config := by
  unfold evictPeer
  split_ifs
  · cases s.peers.leastKey Peer.lastHeard <;> rfl
  · rfl

theorem enqueue_cases (s : Sessions) (dst : Callsign) (kind : Kind) (payload : List UInt8)
    (reliable : Bool) (now : ℕ) :
    ∃ t : Sessions, t.config = s.config ∧
      (∀ j, t.peer j = s.peer j ∨ j ≠ dst ∧ t.peer j = none) ∧
      (s.enqueue dst kind payload reliable now = (t, .dropped) ∨
      ∃ p, SameInbox (s.record dst) p ∧ SameOutbox (s.record dst) p ∧
        s.enqueue dst kind payload reliable now =
          (t.store dst (p.enqueue s.config s.nextSeq kind payload reliable).1,
            (p.enqueue s.config s.nextSeq kind payload reliable).2)) := by
  have hevict := evictPeer_peer s.drawSeq.2 dst
  have hconfig : (s.drawSeq.2.evictPeer dst).config = s.config := evictPeer_config s.drawSeq.2 dst
  by_cases h0 : s.drawSeq.2.config.maxPeers = 0
  · exact ⟨s.drawSeq.2, rfl, fun j => .inl rfl, .inl (by simp only [enqueue, if_pos h0])⟩
  · refine ⟨s.drawSeq.2.evictPeer dst, hconfig, hevict, ?_⟩
    cases ht : (s.drawSeq.2.evictPeer dst).touched dst now with
    | none =>
      refine .inl ?_
      simp only [enqueue, if_neg h0, ht]
    | some p =>
      have hrec : (s.drawSeq.2.evictPeer dst).record dst = s.record dst := by
        apply record_of_peer
        rcases hevict dst with h | ⟨h, -⟩
        · exact h
        · exact absurd rfl h
      have hsame := touched_same ht
      rw [hrec] at hsame
      refine .inr ⟨p, hsame.1, hsame.2.1, ?_⟩
      simp only [enqueue, if_neg h0, ht, hconfig]
      rfl

theorem tickRetries_peer (s : Sessions) (now : ℕ) (retry : Bool) (j : Callsign) :
    (s.tickRetries now retry).1.peer j = (s.peer j).bind fun p => (s.ticked now retry p).1 :=
  Table.get_filterMap s.peers (fun _ p => (s.ticked now retry p).1) j

theorem mem_tickRetries {s : Sessions} {now : ℕ} {retry : Bool} {call : Callsign} {f : AircFrame}
    (h : (call, f) ∈ (s.tickRetries now retry).2.transmit) :
    ∃ p, s.peer call = some p ∧
      (FromOutbox p.outbox f ∨ f ∈ (expireReasm s.config p now).2) := by
  have hsome : ∃ p, s.peer call = some p ∧
      f ∈ (s.ticked now retry p).2.1 ++ (s.ticked now retry p).2.2 := by
    rcases List.mem_append.mp h with h | h
    all_goals
      obtain ⟨⟨c, p⟩, he, hf⟩ := List.mem_flatMap.mp h
      obtain ⟨g, hg, heq⟩ := List.mem_map.mp hf
      obtain ⟨rfl, rfl⟩ := Prod.mk.inj heq
      refine ⟨p, Table.mem_entries_iff.mp he, ?_⟩
    · exact List.mem_append_left _ hg
    · exact List.mem_append_right _ hg
  obtain ⟨p, hp, hf⟩ := hsome
  exact ⟨p, hp, ticked_frames hf⟩

theorem drainAcks_peer (s : Sessions) (j : Callsign) :
    s.drainAcks.1.peer j = (s.peer j).map fun p => { p with owedAck := none } := by
  rw [drainAcks, peer, Table.get_filterMap, peer]
  cases s.peers.get j <;> rfl

theorem mem_drainAcks {s : Sessions} {call : Callsign} {f : AircFrame}
    (h : (call, f) ∈ s.drainAcks.2) :
    ∃ p o, s.peer call = some p ∧ p.owedAck = some o ∧ f = o.toFrame := by
  obtain ⟨⟨c, p⟩, he, hf⟩ := List.mem_filterMap.mp h
  obtain ⟨o, ho, heq⟩ := Option.map_eq_some_iff.mp hf
  obtain ⟨rfl, rfl⟩ := Prod.mk.inj heq
  exact ⟨p, o, Table.mem_entries_iff.mp he, ho, rfl⟩

theorem onKeyed_peer (s : Sessions) (dest : Callsign) (seq : UInt16) (now : ℕ) (j : Callsign) :
    (s.onKeyed dest seq now).peer j =
      if j = dest then (s.peer j).map fun p => p.onKeyed s.config seq now else s.peer j := by
  unfold onKeyed
  by_cases hj : j = dest
  · subst hj
    cases hp : s.peers.get j with
    | none => simp [peer, hp]
    | some p => simp [peer, hp, store]
  · cases s.peers.get dest with
    | none => simp [hj]
    | some p => simp [peer_store, hj]

/-- There is a record for the station, or room for one once the quietest station is gone. -/
def hasRecordFor (s : Sessions) (call : Callsign) : Bool :=
  decide (0 < s.config.maxPeers) &&
    ((s.peer call).isSome || decide (s.peers.size ≤ s.config.maxPeers))

def accepts (s : Sessions) (dst : Callsign) (payload : List UInt8) (reliable : Bool) : Bool :=
  s.hasRecordFor dst && (s.record dst).accepts s.config payload reliable

theorem touched_evictPeer {s : Sessions} {call : Callsign} (h0 : 0 < s.config.maxPeers) (now : ℕ) :
    ((s.evictPeer call).touched call now).isSome =
      ((s.peer call).isSome || decide (s.peers.size ≤ s.config.maxPeers)) := by
  unfold evictPeer touched peer
  cases hp : s.peers.get call with
  | some p =>
    have hknown : call ∈ s.peers.keys := Table.mem_keys_iff.mpr (by rw [hp]; rfl)
    simp [hknown, hp]
  | none =>
    have hnew : call ∉ s.peers.keys := fun h => by simpa [hp] using Table.mem_keys_iff.mp h
    by_cases hfull : s.config.maxPeers ≤ s.peers.size
    · have hne : s.peers.entries ≠ [] := by
        intro h
        have : s.peers.size = 0 := by rw [Table.size, h, List.length_nil]
        omega
      obtain ⟨oldest, hmem, hleast⟩ := Table.leastKey_mem Peer.lastHeard hne
      have hsize := Table.size_erase hmem
      have hgone : (s.peers.erase oldest).get call = none := by
        rw [Table.get_erase, hp, ite_self]
      simp only [hnew, hfull, not_false_eq_true, and_self, if_true, hleast, hgone]
      by_cases hless : s.peers.size ≤ s.config.maxPeers
      · have hroom : ¬ s.config.maxPeers ≤ (s.peers.erase oldest).size := by omega
        simp [hroom, hless]
      · have hroom : s.config.maxPeers ≤ (s.peers.erase oldest).size := by omega
        simp [hroom, hless]
    · have hroom : s.peers.size ≤ s.config.maxPeers := by omega
      simp [hfull, hp, hroom]

theorem enqueue_accepted (s : Sessions) (dst : Callsign) (kind : Kind) (payload : List UInt8)
    (reliable : Bool) (now : ℕ) :
    (s.enqueue dst kind payload reliable now).2.accepted = s.accepts dst payload reliable := by
  by_cases h0 : s.config.maxPeers = 0
  · have hdrop : s.drawSeq.2.config.maxPeers = 0 := h0
    simp [enqueue, hdrop, SendOutcome.dropped, accepts, hasRecordFor, h0]
  · have hsome := @touched_evictPeer s.drawSeq.2 dst (Nat.pos_of_ne_zero h0) now
    have hkeep : s.drawSeq.2.config.maxPeers ≠ 0 := h0
    have hrec : (s.drawSeq.2.evictPeer dst).record dst = s.record dst := by
      apply record_of_peer
      rcases evictPeer_peer s.drawSeq.2 dst dst with h | ⟨h, -⟩
      · exact h
      · exact absurd rfl h
    have hroom : s.hasRecordFor dst =
        ((s.drawSeq.2.evictPeer dst).touched dst now).isSome := by
      rw [hsome, hasRecordFor, decide_eq_true (Nat.pos_of_ne_zero h0), Bool.true_and]
      rfl
    simp only [enqueue, hkeep, if_false, accepts, hroom]
    cases ht : (s.drawSeq.2.evictPeer dst).touched dst now with
    | none => simp [SendOutcome.dropped]
    | some p =>
      obtain ⟨hinbox, houtbox, -⟩ := touched_same ht
      rw [hrec] at hinbox houtbox
      simp only [Option.isSome_some, Bool.true_and]
      rw [Peer.enqueue_accepted, evictPeer_config]
      exact Peer.accepts_same hinbox houtbox _ _ _

end Sessions

end AircSession
