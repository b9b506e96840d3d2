import Rfircd.SessionSteps

/-! What the bitmap of a selective acknowledgement says to the side that reads it. -/
namespace AckBitmaps

open Airc AircSession

/-! ### Bits by masks -/

/-- `bit_set`, with its mask. -/
def maskSet (bits : List UInt8) (i : ℕ) : Bool :=
  (bits[i / 8]?).any fun b => b &&& 1 <<< UInt8.ofNat (i % 8) != 0

/-- One turn of the loop of `bitmap_from_parts`. -/
def setBit (bits : List UInt8) (i : ℕ) : List UInt8 :=
  bits.modify (i / 8) fun b => b ||| 1 <<< UInt8.ofNat (i % 8)

def setPart (bits : List UInt8) (e : Option (List UInt8) × ℕ) : List UInt8 :=
  if e.1.isSome then setBit bits e.2 else bits

/-- The loop of `bitmap_from_parts`. -/
def bitmapLoop (parts : List (Option (List UInt8))) : List UInt8 :=
  parts.zipIdx.foldl setPart (List.replicate (max ((parts.length + 7) / 8) 1) 0)

theorem mask_testBit : ∀ k j : Fin 8,
    (1 <<< UInt8.ofNat k.val : UInt8).toNat.testBit j.val = decide (k = j) := by
  decide +kernel

theorem and_mask : ∀ b : BitVec 8, ∀ k : Fin 8,
    (UInt8.ofBitVec b &&& 1 <<< UInt8.ofNat k.val != 0) = b.toNat.testBit k.val := by
  decide +kernel

theorem maskSet_eq (bits : List UInt8) (i : ℕ) : maskSet bits i = bitSet bits i := by
  rw [maskSet, bitSet]
  cases bits[i / 8]? with
  | none => rfl
  | some b => exact and_mask b.toBitVec ⟨i % 8, Nat.mod_lt i (by decide)⟩

/-- A turn of the loop sets the bit of its part, and no other. -/
theorem bitSet_setBit {bits : List UInt8} {j : ℕ} (hj : j / 8 < bits.length) (i : ℕ) :
    bitSet (setBit bits j) i = (bitSet bits i || decide (i = j)) := by
  rw [bitSet, bitSet, setBit, List.getElem?_modify]
  by_cases hoctet : j / 8 = i / 8
  · simp only [if_pos hoctet]
    rw [← hoctet, List.getElem?_eq_getElem hj]
    have hmask := mask_testBit ⟨j % 8, Nat.mod_lt j (by decide)⟩ ⟨i % 8, Nat.mod_lt i (by decide)⟩
    have hsame : j % 8 = i % 8 ↔ i = j := by omega
    simp only [Fin.mk.injEq, hsame] at hmask
    simp only [Option.map_eq_map, Option.map_some, Option.any_some, UInt8.toNat_or,
      Nat.testBit_or, hmask]
  · have hne : i ≠ j := fun h => hoctet (by rw [h])
    simp [hoctet, hne]

theorem length_setPart (bits : List UInt8) (e : Option (List UInt8) × ℕ) :
    (setPart bits e).length = bits.length := by
  rw [setPart, setBit]
  split_ifs
  · exact List.length_modify ..
  · rfl

/-- The turns of the loop add up. -/
theorem bitSet_foldl {l : List (Option (List UInt8) × ℕ)} {bits : List UInt8}
    (h : ∀ e ∈ l, e.2 / 8 < bits.length) (i : ℕ) :
    bitSet (l.foldl setPart bits) i =
      (bitSet bits i || l.any fun e => e.1.isSome && decide (i = e.2)) := by
  induction l generalizing bits with
  | nil => simp
  | cons e l ih =>
    obtain ⟨he, hl⟩ := List.forall_mem_cons.mp h
    have hrest : ∀ e' ∈ l, e'.2 / 8 < (setPart bits e).length := by
      rw [length_setPart]
      exact hl
    rw [List.foldl_cons, ih hrest, setPart, List.any_cons]
    cases hsome : e.1.isSome with
    | true => simp [bitSet_setBit he, Bool.or_assoc]
    | false => simp

theorem length_foldl (l : List (Option (List UInt8) × ℕ)) (bits : List UInt8) :
    (l.foldl setPart bits).length = bits.length := by
  induction l generalizing bits with
  | nil => rfl
  | cons e l ih => rw [List.foldl_cons, ih, length_setPart]

/-- Octets are what their bits are. -/
theorem eq_of_bitSet {bits bits' : List UInt8} (hlen : bits.length = bits'.length)
    (h : ∀ i, bitSet bits i = bitSet bits' i) : bits = bits' := by
  refine List.ext_getElem hlen fun n hn hn' => UInt8.toNat_inj.mp (Nat.eq_of_testBit_eq fun k => ?_)
  by_cases hk : k < 8
  · have hbit := h (8 * n + k)
    have hdiv : (8 * n + k) / 8 = n := by omega
    have hmod : (8 * n + k) % 8 = k := by omega
    rw [bitSet, bitSet, hdiv, hmod, List.getElem?_eq_getElem hn, List.getElem?_eq_getElem hn'] at hbit
    exact hbit
  · have hhigh : ∀ b : UInt8, b.toNat.testBit k = false := fun b =>
      Nat.testBit_lt_two_pow (b.toNat_lt.trans_le (Nat.pow_le_pow_right (by decide) (by omega)))
    rw [hhigh, hhigh]

theorem any_zipIdx (parts : List (Option (List UInt8))) (i : ℕ) :
    (parts.zipIdx.any fun e => e.1.isSome && decide (i = e.2)) = (parts[i]?).join.isSome := by
  rw [Bool.eq_iff_iff, List.any_eq_true]
  constructor
  · rintro ⟨⟨part, j⟩, he, hpart⟩
    simp only [Bool.and_eq_true, decide_eq_true_eq] at hpart
    obtain ⟨hsome, rfl⟩ := hpart
    rw [List.mem_zipIdx_iff_getElem?.mp he]
    exact hsome
  · intro h
    cases hpart : parts[i]? with
    | none =>
      rw [hpart] at h
      exact absurd h Bool.false_ne_true
    | some part =>
      rw [hpart] at h
      exact ⟨(part, i), List.mem_zipIdx_iff_getElem?.mpr hpart, by simpa using h⟩

/-- The loop of the source builds the bitmap. -/
theorem bitmapLoop_eq (parts : List (Option (List UInt8))) :
    bitmapLoop parts = bitmapFromParts parts := by
  refine eq_of_bitSet ?_ fun i => ?_
  · rw [bitmapLoop, length_foldl, List.length_replicate, bitmapFromParts, List.length_map,
      List.length_range]
  · have hfits : ∀ e ∈ parts.zipIdx,
        e.2 / 8 < (List.replicate (max ((parts.length + 7) / 8) 1) (0 : UInt8)).length := by
      intro e he
      have := List.snd_lt_of_mem_zipIdx he
      rw [List.length_replicate]
      omega
    have hclear : bitSet (List.replicate (max ((parts.length + 7) / 8) 1) 0) i = false := by
      rw [bitSet, List.getElem?_replicate]
      split_ifs
      · exact Nat.zero_testBit _
      · rfl
    rw [bitmapLoop, bitSet_foldl hfits, hclear, bitSet_bitmapFromParts, Bool.false_or,
      any_zipIdx]

/-! ### On the air -/

theorem decode_ack (seq : UInt16) (payload : List UInt8) :
    AircFrame.decode (AircFrame.new .ack seq payload).encode = .ok (.new .ack seq payload) := by
  have hflags : (AircFrame.new .ack seq payload).wireFlags = 0 := by
    simp [AircFrame.wireFlags, AircFrame.new]
  have hindex : (AircFrame.new .ack seq payload).fragIndex < 1 := UInt8.zero_lt_one
  rw [decode_encode hindex, hflags]
  rfl

/-- The bitmap of a buffer, encoded and read by the other side, has the bit of an index if and only
if the part is in the buffer, and none behind the last part. A complete acknowledgement is read as
complete, a bitmap never is, and their octets differ. -/
theorem bitmap_says_what_is_held (parts : List (Option (List UInt8))) (seq : UInt16) :
    (∃ f bits, AircFrame.decode (ackWithBitmap seq (bitmapLoop parts)).encode = .ok f ∧
      f.kind = .ack ∧ parseAckPayload f.payload = some (seq, some bits) ∧
      (∀ i, maskSet bits i = true ↔ ∃ part, parts[i]? = some (some part)) ∧
      ∀ i, parts.length ≤ i → maskSet bits i = false) ∧
    (∃ f, AircFrame.decode (ackFor seq).encode = .ok f ∧ f.kind = .ack ∧
      parseAckPayload f.payload = some (seq, none)) ∧
    (ackWithBitmap seq (bitmapLoop parts)).encode ≠ (ackFor seq).encode := by
  have hbitmap := parseAckPayload_ackWithBitmap seq (bitmapFromParts_ne_nil parts)
  have hcomplete : parseAckPayload (ackFor seq).payload = some (seq, none) :=
    @parseAckPayload_toFrame ⟨seq, none⟩ (by simp)
  rw [bitmapLoop_eq]
  refine ⟨⟨_, bitmapFromParts parts, decode_ack seq _, rfl, hbitmap, ?_, ?_⟩,
    ⟨_, decode_ack seq _, rfl, hcomplete⟩, ?_⟩
  · intro i
    rw [maskSet_eq, bitSet_bitmapFromParts]
    cases hpart : parts[i]? with
    | none => simp
    | some part => cases part <;> simp
  · intro i hi
    rw [maskSet_eq, bitSet_bitmapFromParts, List.getElem?_eq_none hi]
    rfl
  · intro hsame
    have hread := congrArg AircFrame.decode hsame
    rw [ackWithBitmap, ackFor, decode_ack, decode_ack] at hread
    have hpayload := congrArg (parseAckPayload ∘ AircFrame.payload) (Except.ok.inj hread)
    change parseAckPayload (ackWithBitmap seq (bitmapFromParts parts)).payload =
      parseAckPayload (ackFor seq).payload at hpayload
    rw [hbitmap, hcomplete] at hpayload
    simp at hpayload

end AckBitmaps
