import Rfircd.CheckedCode
import Rfircd.LenientAddressees
import Rfircd.Utf8Text

/-! The decoder of APRS messages, access by access. It does not leave its octets, and does not cut through
a character. -/
namespace CheckedAprs

open Basics MessageText AprsCodec TextPieces Utf8Text CheckedCode
open LenientAddressees (legal)

variable {info rest : List UInt8} {body t : Text}

/-! ### Texts and octets -/

/-- `str::from_utf8`: nothing of the octets may be damaged. -/
def fromUtf8 (bs : List UInt8) : Option Text :=
  let t := fromUtf8Lossy bs
  if utf8 t = bs then some t else none

theorem fromUtf8_eq_some {bs : List UInt8} : fromUtf8 bs = some t ↔ utf8 t = bs := by
  unfold fromUtf8
  dsimp only
  constructor
  · intro h
    split_ifs at h with hvalid
    rw [← Option.some.inj h]
    exact hvalid
  · rintro rfl
    rw [fromUtf8Lossy_utf8, if_pos rfl]

/-- A character takes as many places of a `str` as it has octets. -/
def width (c : Char) : ℕ := octets [c]

theorem width_pos (c : Char) : 0 < width c := by
  rw [width, octets_single, String.length_utf8EncodeChar]
  exact c.utf8Size_pos

theorem sum_width (t : Text) : (t.map width).sum = octets t := by
  induction t with
  | nil => rfl
  | cons c t ih => rw [List.map_cons, List.sum_cons, ih, octets_cons, width]

def strFrom (t : Text) (start : ℕ) : Checked Text := textFrom width t start

def strTo (t : Text) (stop : ℕ) : Checked Text := textTo width t stop

theorem strFrom_append (front behind : Text) {n : ℕ} (h : n = octets front) :
    strFrom (front ++ behind) n = .ok behind :=
  textFrom_append (fun c _ => width_pos c) behind (h.trans (sum_width front).symm)

theorem strTo_append (front behind : Text) {n : ℕ} (h : n = octets front) :
    strTo (front ++ behind) n = .ok front :=
  textTo_append (fun c _ => width_pos c) behind (h.trans (sum_width front).symm)

/-! ### The end of the line -/

/-- How many octets are left when the last are taken off. -/
def trimEndFrom (info : List UInt8) : ℕ → Checked ℕ
  | 0 => return 0
  | stop + 1 => do
    let b ← index info stop
    if b = 13 ∨ b = 10 ∨ b = 0 then trimEndFrom info stop else return stop + 1

def trimTrailingCrlf (info : List UInt8) : Checked (List UInt8) := do
  let stop ← trimEndFrom info info.length
  sliceTo info stop

theorem trimEndFrom_returns (info : List UInt8) {n : ℕ} (h : n ≤ info.length) :
    Returns (trimEndFrom info n) fun stop => stop ≤ n ∧
      info.take stop = ((info.take n).reverse.dropWhile fun b => b = 13 || b = 10 || b = 0).reverse := by
  induction n with
  | zero => exact .pure ⟨le_rfl, rfl⟩
  | succ n ih =>
    have hget := List.getElem?_eq_getElem (Nat.lt_of_succ_le h)
    have htake : info.take (n + 1) = info.take n ++ [info[n]] :=
      (List.take_append_getElem (Nat.lt_of_succ_le h)).symm
    unfold trimEndFrom
    rw [bind_eq (index_eq hget), htake, List.reverse_append, List.reverse_singleton,
      List.singleton_append]
    by_cases hend : info[n] = 13 ∨ info[n] = 10 ∨ info[n] = 0
    · rw [if_pos hend, List.dropWhile_cons_of_pos (by simpa [or_assoc] using hend)]
      exact (ih (Nat.le_of_succ_le h)).mono fun stop hstop => ⟨Nat.le_succ_of_le hstop.1, hstop.2⟩
    · rw [if_neg hend, List.dropWhile_cons_of_neg (by simpa [or_assoc] using hend)]
      refine .pure ⟨le_rfl, ?_⟩
      rw [List.reverse_cons, List.reverse_reverse, htake]

theorem trimTrailingCrlf_eq (info : List UInt8) :
    trimTrailingCrlf info = .ok (AprsCodec.trimTrailingCrlf info) := by
  obtain ⟨stop, hstop, hle, htake⟩ := trimEndFrom_returns info le_rfl
  rw [List.take_length] at htake
  unfold trimTrailingCrlf
  rw [bind_eq hstop, sliceTo_eq hle, htake]
  rfl

/-! ### The parts of a message -/

/-- Is the addressee padded to nine characters? -/
def padded (rest : List UInt8) : Checked Bool :=
  if 10 ≤ rest.length then do return (← index rest 9) = 0x3A else return false

def splitAddressee (rest : List UInt8) : Checked (Option (List UInt8 × List UInt8)) := do
  if ← padded rest then return some (← sliceTo rest 9, ← sliceFrom rest 10)
  else
    match rest.findIdx? (· = 0x3A) with
    | none => return none
    | some colon =>
      if colon = 0 ∨ 9 < colon then return none
      else return some (← sliceTo rest colon, ← sliceFrom rest (← addUsize colon 1))

theorem padded_eq (rest : List UInt8) : padded rest = .ok (decide (rest[9]? = some 0x3A)) := by
  unfold padded
  by_cases hlong : 10 ≤ rest.length
  · have hget := List.getElem?_eq_getElem (show 9 < rest.length by omega)
    rw [if_pos hlong, bind_eq (index_eq hget), hget]
    simp only [Option.some.injEq]
    rfl
  · rw [if_neg hlong, List.getElem?_eq_none (by omega)]
    rfl

theorem splitAddressee_eq (rest : List UInt8) :
    splitAddressee rest = .ok (AprsCodec.splitAddressee rest) := by
  unfold splitAddressee AprsCodec.splitAddressee
  rw [bind_eq (padded_eq rest)]
  by_cases hpadded : rest[9]? = some 0x3A
  · have hlong : 9 < rest.length := (List.getElem?_eq_some_iff.mp hpadded).1
    rw [if_pos (decide_eq_true hpadded), if_pos hpadded, bind_eq (sliceTo_eq (by omega)),
      bind_eq (sliceFrom_eq (by omega))]
    rfl
  rw [if_neg (by simpa using hpadded), if_neg hpadded, List.findIdx?_eq_guard_findIdx_lt]
  dsimp only
  generalize rest.findIdx (fun b => decide (b = 0x3A)) = colon
  by_cases hcolon : colon < rest.length
  · rw [Option.guard, if_pos (decide_eq_true hcolon)]
    dsimp only
    by_cases hodd : colon = 0 ∨ 9 < colon
    · rw [if_pos hodd, if_pos (hodd.imp_right Or.inl)]
      rfl
    · have hsum : addUsize colon 1 = .ok (colon + 1) := addUsize_eq (by rw [usizeLimit]; omega)
      rw [if_neg hodd, if_neg (by omega), bind_eq (sliceTo_eq hcolon.le), bind_eq hsum,
        bind_eq (sliceFrom_eq hcolon)]
      rfl
  · rw [Option.guard, if_neg (by simpa using hcolon), if_pos (Or.inr (Or.inr (not_lt.mp hcolon)))]
    rfl

/-- Where a character stands last, in octets. -/
def rfind (c : Char) (t : Text) : Option ℕ := (splitOnce c t.reverse).map fun p => octets p.2.reverse

def splitMsgid (body : Text) : Checked (Text × Option Text) := do
  match rfind '\x7b' body with
  | none => return (body, none)
  | some i =>
    let rest ← strFrom body (← addUsize i 1)
    let rest := if rest.getLast? = some '\x7d' then rest.dropLast else rest
    if msgidOk rest then return (← strTo body i, some rest) else return (body, none)

theorem splitMsgid_eq (h : octets body < usizeLimit) :
    splitMsgid body = .ok (AprsCodec.splitMsgid body) := by
  unfold splitMsgid rfind AprsCodec.splitMsgid
  cases hsplit : splitOnce '\x7b' body.reverse with
  | none => rfl
  | some p =>
    obtain ⟨hbody, -⟩ := splitOnce_spec hsplit
    have hbody : body = p.2.reverse ++ '\x7b' :: p.1.reverse := by
      rw [← List.reverse_reverse body, hbody, List.reverse_append, List.reverse_cons, List.append_assoc]
      rfl
    have hbrace : octets ['\x7b'] = 1 := by decide
    have hfront : octets (p.2.reverse ++ ['\x7b']) = octets p.2.reverse + 1 := by
      rw [octets_append, hbrace]
    have hplace : octets p.2.reverse + 1 < usizeLimit := by
      refine lt_of_le_of_lt ?_ h
      rw [hbody, octets_append, octets_cons, hbrace]
      omega
    have hbehind : strFrom body (octets p.2.reverse + 1) = .ok p.1.reverse := by
      have := strFrom_append (p.2.reverse ++ ['\x7b']) p.1.reverse hfront.symm
      rwa [List.append_assoc, List.singleton_append, ← hbody] at this
    have hbefore : strTo body (octets p.2.reverse) = .ok p.2.reverse := by
      have := strTo_append p.2.reverse ('\x7b' :: p.1.reverse) rfl
      rwa [← hbody] at this
    dsimp only [Option.map_some]
    have hcut : ∀ id : Text,
        (if msgidOk id then do return (← strTo body (octets p.2.reverse), some id)
          else return (body, none) : Checked (Text × Option Text)) =
        .ok (if msgidOk id then (p.2.reverse, some id) else (body, none)) := by
      intro id
      by_cases hid : msgidOk id = true
      · rw [if_pos hid, if_pos hid, bind_eq hbefore]
        rfl
      · rw [if_neg hid, if_neg hid]
        rfl
    rw [bind_eq (addUsize_eq hplace), bind_eq hbehind]
    exact hcut _

/-! ### Messages -/

theorem utf8_asciiText {addr : List UInt8} (h : addr.all legal = true) : utf8 (asciiText addr) = addr := by
  have hocts : ∀ n : Fin 256, legal (UInt8.ofNat n) = true →
      String.utf8EncodeChar (Char.ofNat (UInt8.ofNat n).toNat) = [UInt8.ofNat n] := by
    decide +kernel
  induction addr with
  | nil => rfl
  | cons b addr ih =>
    rw [List.all_cons, Bool.and_eq_true] at h
    have hb := hocts ⟨b.toNat, b.toNat_lt⟩ (by rw [UInt8.ofNat_toNat]; exact h.1)
    rw [UInt8.ofNat_toNat] at hb
    change String.utf8EncodeChar (Char.ofNat b.toNat) ++ utf8 (asciiText addr) = b :: addr
    rw [hb, ih h.2]
    rfl

theorem octets_trimEnd (t : Text) : octets (trimEnd t) ≤ octets t := by
  have hsub : (trimEnd t).Sublist t := by
    have := (List.dropWhile_sublist (l := t.reverse) isWhitespace).reverse
    rwa [List.reverse_reverse] at this
  exact (hsub.flatMap _).length_le

theorem length_body {addr body : List UInt8} (h : AprsCodec.splitAddressee rest = some (addr, body)) :
    body.length ≤ rest.length := by
  unfold AprsCodec.splitAddressee at h
  dsimp only at h
  split_ifs at h
  all_goals
    obtain ⟨-, rfl⟩ := Prod.mk.inj (Option.some.inj h)
    exact (List.drop_sublist _ _).length_le

namespace AprsMessage

def decode (info : List UInt8) : Checked (Option AprsMessage) := do
  let info ← trimTrailingCrlf info
  if info.head? ≠ some 0x3A then return none
  let rest ← sliceFrom info 1
  match ← splitAddressee rest with
  | none => return none
  | some (addr, body) =>
    if !addr.all legal then return none
    match fromUtf8 addr with
    | none => return none
    | some s =>
      let addressee := (trim s).map toAsciiUpper
      if addressee = [] then return none
      let (text, msgid) ← splitMsgid (trimEnd (fromUtf8Lossy body))
      return some ⟨addressee, text, msgid, classify text⟩

theorem decode_eq (h : 3 * info.length < usizeLimit) :
    decode info = .ok (AprsCodec.AprsMessage.decode info) := by
  have htrim : (AprsCodec.trimTrailingCrlf info).length ≤ info.length := by
    rw [AprsCodec.trimTrailingCrlf, List.length_reverse]
    exact (List.dropWhile_sublist _).length_le.trans_eq List.length_reverse
  unfold decode AprsCodec.AprsMessage.decode
  rw [bind_eq (trimTrailingCrlf_eq info)]
  cases hinfo : AprsCodec.trimTrailingCrlf info with
  | nil => rfl
  | cons dtype rest =>
    rw [hinfo, List.length_cons] at htrim
    by_cases hcolon : dtype = 0x3A
    · subst hcolon
      rw [if_neg fun hother => hother rfl, bind_eq (sliceFrom_eq (Nat.le_add_left 1 _)), List.drop_one,
        List.tail_cons, bind_eq (splitAddressee_eq rest)]
      change _ = Except.ok (Option.bind (AprsCodec.splitAddressee rest) _)
      cases hsplit : AprsCodec.splitAddressee rest with
      | none => rfl
      | some p =>
        have hbody : octets (trimEnd (fromUtf8Lossy p.2)) < usizeLimit := by
          have hlength := length_body hsplit
          have hend := octets_trimEnd (fromUtf8Lossy p.2)
          have hlossy := octets_lossy p.2
          omega
        change (if (!p.1.all legal) = true then _ else _) =
          Except.ok (if (!p.1.all legal) = true then none else _)
        by_cases hlegal : p.1.all legal = true
        · rw [hlegal, Bool.not_true, if_neg Bool.false_ne_true, if_neg Bool.false_ne_true,
            fromUtf8_eq_some.mpr (utf8_asciiText hlegal)]
          dsimp only
          by_cases hblank : (trim (asciiText p.1)).map toAsciiUpper = []
          · rw [if_pos hblank, if_pos hblank]
            rfl
          · rw [if_neg hblank, if_neg hblank, bind_eq (splitMsgid_eq hbody)]
            rfl
        · rw [Bool.eq_false_iff.mpr hlegal, Bool.not_false, if_pos rfl, if_pos rfl]
          rfl
    · have hother : (dtype :: rest).head? ≠ some 0x3A := fun heq => hcolon (Option.some.inj heq)
      rw [if_pos hother]
      split
      · exact absurd (List.cons.inj ‹_›).1 hcolon
      · rfl

end AprsMessage

end CheckedAprs
