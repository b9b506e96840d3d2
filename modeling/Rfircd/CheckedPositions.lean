import Rfircd.CheckedAprs
import Rfircd.CheckedFrames

/-! The decoders of beacons, access by access: status, positions with and without compression, and Mic-E,
whose latitude is in the destination. None of them stops. -/
namespace CheckedPositions

open Basics MessageText AprsCodec Utf8Text CheckedCode
open CheckedAprs (fromUtf8 fromUtf8_eq_some strFrom strTo strFrom_append strTo_append)

variable {info rest : List UInt8}

/-- It ends, whatever it returns. -/
def Ends {α : Type} (c : Checked α) : Prop := Returns c fun _ => True

theorem ends_pure {α : Type} (x : α) : Ends (pure x : Checked α) := .pure trivial

/-! ### Status -/

/-- Does the status start with a time? -/
def timed (body : List UInt8) : Checked Bool :=
  if 8 ≤ body.length then do
    let mark ← index body 6
    return mark = 0x7A ∨ mark = 0x68 ∨ mark = 0x2F
  else return false

def statusText (body : List UInt8) : Checked Text := do
  if ← timed body then return printableComment (← sliceFrom body 7)
  else return printableComment body

theorem statusText_eq (body : List UInt8) : statusText body = .ok (AprsCodec.statusText body) := by
  unfold statusText timed AprsCodec.statusText
  by_cases hlong : 8 ≤ body.length
  · have hget := List.getElem?_eq_getElem (show 6 < body.length by omega)
    rw [if_pos hlong, bind_eq (index_eq hget), hget]
    by_cases hmark : body[6] = 0x7A ∨ body[6] = 0x68 ∨ body[6] = 0x2F
    · have hsome : 8 ≤ body.length ∧ (some body[6] = some 0x7A ∨ some body[6] = some 0x68 ∨
          some body[6] = some 0x2F) := ⟨hlong, by simpa only [Option.some.injEq] using hmark⟩
      rw [if_pos hsome, pure_bind, if_pos (decide_eq_true hmark), bind_eq (sliceFrom_eq (by omega))]
      rfl
    · have hnone : ¬ (8 ≤ body.length ∧ (some body[6] = some 0x7A ∨ some body[6] = some 0x68 ∨
          some body[6] = some 0x2F)) := fun h => hmark (by simpa only [Option.some.injEq] using h.2)
      rw [if_neg hnone, pure_bind, if_neg (by simpa using hmark)]
      rfl
  · rw [if_neg hlong, if_neg fun h => hlong h.1]
    rfl

/-! ### Positions in degrees and minutes -/

def isDigitOctet (b : UInt8) : Bool := 0x30 ≤ b && b ≤ 0x39

def uncompressedLat (rest : List UInt8) : Checked Bool := do
  if rest.length < 8 then return false
  if !(← slice rest 0 4).all isDigitOctet then return false
  if (← index rest 4) ≠ 0x2E then return false
  if !(← slice rest 5 7).all isDigitOctet then return false
  return (← index rest 7) ∈ [0x4E, 0x53, 0x6E, 0x73]

/-- The cuts are counted in octets: nothing outside of ASCII may come here. -/
def formatUncompCoord (raw : Text) (degLen : ℕ) : Checked (Option Text) := do
  if !raw.all fun c => c.toNat < 0x80 then return none
  match raw.getLast? with
  | none => return none
  | some hemi =>
    let body ← strTo raw (← subUsize (octets raw) 1)
    if octets body < (← addUsize degLen 3) then return none
    let deg ← strTo body degLen
    let min ← strFrom body degLen
    return some (deg ++ '°' :: min ++ [hemi])

def withComment (pos comment : Text) : Text :=
  if comment = [] then pos else pos ++ " - ".toList ++ comment

def decodeUncompressed (rest : List UInt8) : Checked (Option Text) := do
  if rest.length < 19 then return none
  match fromUtf8 (← slice rest 0 8) with
  | none => return none
  | some lat =>
    match fromUtf8 (← slice rest 9 18) with
    | none => return none
    | some lon =>
      if (← index rest 8) ∉ [0x2F, 0x5C] then return none
      if octets lon ≠ 9 then return none
      if (← index (utf8 lon) 8) ∉ [0x45, 0x57, 0x65, 0x77] then return none
      match ← formatUncompCoord lat 2 with
      | none => return none
      | some lat =>
        match ← formatUncompCoord lon 3 with
        | none => return none
        | some lon =>
          return some (withComment (lat ++ ' ' :: lon) (printableComment (← sliceFrom rest 19)))

theorem uncompressedLat_ends (rest : List UInt8) : Ends (uncompressedLat rest) := by
  unfold uncompressedLat
  refine .ite (fun _ => ends_pure _) fun hlong => ?_
  rw [bind_eq (slice_eq (by omega) (by omega))]
  refine .ite (fun _ => ends_pure _) fun _ => ?_
  refine (index_returns (by omega)).bind fun point _ => ?_
  refine .ite (fun _ => ends_pure _) fun _ => ?_
  rw [bind_eq (slice_eq (by omega) (by omega))]
  refine .ite (fun _ => ends_pure _) fun _ => ?_
  exact (index_returns (by omega)).bind fun side _ => ends_pure _

theorem formatUncompCoord_ends (raw : Text) {degLen : ℕ} (h : degLen + 3 < usizeLimit) :
    Ends (formatUncompCoord raw degLen) := by
  unfold formatUncompCoord
  refine .ite (fun _ => ends_pure _) fun hascii => ?_
  have hall : ∀ c ∈ raw, c.toNat < 0x80 := by simpa using hascii
  cases hlast : raw.getLast? with
  | none => exact ends_pure _
  | some hemi =>
    obtain ⟨body, rfl⟩ := List.getLast?_eq_some_iff.mp hlast
    have hbody : ∀ c ∈ body, c.toNat < 0x80 := fun c hc => hall c (List.mem_append_left _ hc)
    have hocts := octets_ascii hall
    rw [List.length_append, List.length_singleton] at hocts
    have hone : subUsize (octets (body ++ [hemi])) 1 = .ok (octets body) := by
      rw [subUsize_eq (by omega), hocts, octets_ascii hbody, Nat.add_sub_cancel]
    dsimp only
    rw [bind_eq hone, bind_eq (strTo_append body [hemi] rfl), bind_eq (addUsize_eq h)]
    refine .ite (fun _ => ends_pure _) fun hlong => ?_
    rw [octets_ascii hbody] at hlong
    have hdeg : degLen = octets (body.take degLen) := by
      rw [octets_ascii fun c hc => hbody c (List.mem_of_mem_take hc), List.length_take]
      omega
    have hto : strTo body degLen = .ok (body.take degLen) := by
      have := strTo_append (body.take degLen) (body.drop degLen) hdeg
      rwa [List.take_append_drop] at this
    have hback : strFrom body degLen = .ok (body.drop degLen) := by
      have := strFrom_append (body.take degLen) (body.drop degLen) hdeg
      rwa [List.take_append_drop] at this
    rw [bind_eq hto, bind_eq hback]
    exact ends_pure _

theorem decodeUncompressed_ends (rest : List UInt8) : Ends (decodeUncompressed rest) := by
  unfold decodeUncompressed
  refine .ite (fun _ => ends_pure _) fun hlong => ?_
  rw [bind_eq (slice_eq (Nat.zero_le 8) (by omega))]
  cases fromUtf8 ((rest.take 8).drop 0) with
  | none => exact ends_pure _
  | some lat =>
    dsimp only
    rw [bind_eq (slice_eq (by omega) (by omega))]
    cases hlon : fromUtf8 ((rest.take 18).drop 9) with
    | none => exact ends_pure _
    | some lon =>
      have hnine : (utf8 lon).length = 9 := by
        rw [fromUtf8_eq_some.mp hlon, List.length_drop, List.length_take]
        omega
      refine (index_returns (by omega)).bind fun table _ => ?_
      refine .ite (fun _ => ends_pure _) fun _ => ?_
      refine .ite (fun _ => ends_pure _) fun _ => ?_
      refine (index_returns (by omega)).bind fun side _ => ?_
      refine .ite (fun _ => ends_pure _) fun _ => ?_
      refine (formatUncompCoord_ends lat (by decide)).bind fun lat _ => ?_
      cases lat with
      | none => exact ends_pure _
      | some lat =>
        refine (formatUncompCoord_ends lon (by decide)).bind fun lon _ => ?_
        cases lon with
        | none => exact ends_pure _
        | some lon =>
          dsimp only
          rw [bind_eq (sliceFrom_eq (by omega))]
          exact ends_pure _

/-! ### Compressed positions -/

/-- One digit of a number to the base 91. -/
def base91Digit (n : ℕ) (c : UInt8) : Checked (Option ℕ) := do
  if ¬ (33 ≤ c ∧ c ≤ 124) then return none
  match checkedU32 (n * 91) with
  | none => return none
  | some n =>
    let digit ← subU8 c 33
    return checkedU32 (n + digit.toNat)

def base91From (n : ℕ) : List UInt8 → Checked (Option ℕ)
  | [] => return some n
  | c :: s => do
    match ← base91Digit n c with
    | none => return none
    | some n => base91From n s

def base91 (s : List UInt8) : Checked (Option ℕ) :=
  if s.length ≠ 4 then return none else base91From 0 s

theorem base91Digit_ends (n : ℕ) (c : UInt8) : Ends (base91Digit n c) := by
  unfold base91Digit
  refine .ite (fun _ => ends_pure _) fun hc => ?_
  cases checkedU32 (n * 91) with
  | none => exact ends_pure _
  | some n =>
    dsimp only
    rw [bind_eq (subU8_eq (not_not.mp hc).1)]
    exact ends_pure _

theorem base91From_ends (s : List UInt8) (n : ℕ) : Ends (base91From n s) := by
  induction s generalizing n with
  | nil => exact ends_pure _
  | cons c s ih =>
    refine (base91Digit_ends n c).bind fun sum _ => ?_
    cases sum with
    | none => exact ends_pure _
    | some sum => exact ih sum

theorem base91_ends (s : List UInt8) : Ends (base91 s) :=
  .ite (fun _ => ends_pure _) fun _ => base91From_ends s 0

section Positions

-- The coordinates of a compressed position are worked out in floating point.
variable (formatDecimal : ℕ → ℕ → Text)

def decodeCompressed (rest : List UInt8) : Checked (Option Text) := do
  if rest.length < 10 then return none
  if (← index rest 0) ∉ [0x2F, 0x5C] then return none
  match ← base91 (← slice rest 1 5) with
  | none => return none
  | some lat =>
    match ← base91 (← slice rest 5 9) with
    | none => return none
    | some lon =>
      return some (withComment (formatDecimal lat lon) (printableComment (← sliceFrom rest 10)))

def decodePosition (rest : List UInt8) : Checked (Option Text) := do
  if ← uncompressedLat rest then decodeUncompressed rest else decodeCompressed formatDecimal rest

theorem decodeCompressed_ends (rest : List UInt8) : Ends (decodeCompressed formatDecimal rest) := by
  unfold decodeCompressed
  refine .ite (fun _ => ends_pure _) fun hlong => ?_
  refine (index_returns (by omega)).bind fun table _ => ?_
  refine .ite (fun _ => ends_pure _) fun _ => ?_
  rw [bind_eq (slice_eq (by omega) (by omega))]
  refine (base91_ends _).bind fun lat _ => ?_
  cases lat with
  | none => exact ends_pure _
  | some lat =>
    dsimp only
    rw [bind_eq (slice_eq (by omega) (by omega))]
    refine (base91_ends _).bind fun lon _ => ?_
    cases lon with
    | none => exact ends_pure _
    | some lon =>
      dsimp only
      rw [bind_eq (sliceFrom_eq (by omega))]
      exact ends_pure _

theorem decodePosition_ends (rest : List UInt8) : Ends (decodePosition formatDecimal rest) :=
  (uncompressedLat_ends rest).bind fun _ _ =>
    .ite (fun _ => decodeUncompressed_ends rest) fun _ => decodeCompressed_ends formatDecimal rest

end Positions

/-! ### Mic-E -/

def miceDigit (c : UInt8) : Checked (Option (UInt8 × Bool)) := do
  if 0x30 ≤ c ∧ c ≤ 0x39 then return some (← subU8 c 0x30, false)
  else if 0x41 ≤ c ∧ c ≤ 0x4A then return some (← subU8 c 0x41, true)
  else if 0x50 ≤ c ∧ c ≤ 0x59 then return some (← subU8 c 0x50, true)
  else if c = 0x4B ∨ c = 0x5A then return some (0, true)
  else if c = 0x4C then return some (0, false)
  else return none

/-- The loop over the six octets of the destination, from one of them on. -/
def miceDigits (dest : List UInt8) : ℕ → ℕ → List UInt8 → List Bool →
    Checked (Option (List UInt8 × List Bool))
  | 0, _, latD, flags => return some (latD, flags)
  | left + 1, i, latD, flags => do
    match ← miceDigit (← index dest i) with
    | none => return none
    | some (d, f) => miceDigits dest left (i + 1) (← store latD i d) (← store flags i f)

def decimal (n : ℕ) : Text := Nat.toDigits 10 n

/-- With zeros in front. -/
def zeroPadded (width n : ℕ) : Text := (decimal n).leftpad width '0'

def latDigit (d : List UInt8) (i : ℕ) : Checked Text := do
  return decimal (← index d i).toNat

def miceLat (d : List UInt8) (north : Bool) : Checked Text := do
  let hemi := if north then 'N' else 'S'
  let deg := (← latDigit d 0) ++ (← latDigit d 1)
  let min := (← latDigit d 2) ++ (← latDigit d 3)
  let hund := (← latDigit d 4) ++ (← latDigit d 5)
  return deg ++ '°' :: min ++ '.' :: hund ++ [hemi]

/-- Degrees from 180 on are other degrees. -/
def miceDeg (octet : UInt8) (offset : Bool) : Checked ℤ := do
  let deg ← i16 (octet.toNat - 28)
  let deg ← (if offset then i16 (deg + 100) else pure deg)
  if 180 ≤ deg ∧ deg ≤ 189 then i16 (deg - 80)
  else if 190 ≤ deg ∧ deg ≤ 199 then i16 (deg - 190)
  else return deg

def miceMin (octet : UInt8) : Checked ℤ := do
  let min ← i16 (octet.toNat - 28)
  if 60 ≤ min then i16 (min - 60) else return min

def miceLon (info : List UInt8) (offset west : Bool) : Checked (Option Text) := do
  let deg ← miceDeg (← index info 1) offset
  let min ← miceMin (← index info 2)
  let hund ← i16 ((← index info 3).toNat - 28)
  if ¬ (0 ≤ deg ∧ deg ≤ 179) ∨ ¬ (0 ≤ min ∧ min ≤ 59) ∨ ¬ (0 ≤ hund ∧ hund ≤ 99) then return none
  let hemi := if west then 'W' else 'E'
  return some (zeroPadded 3 deg.toNat ++ '°' :: zeroPadded 2 min.toNat ++ '.' ::
    zeroPadded 2 hund.toNat ++ [hemi])

/-- The octets of the destination without blanks, filled up with blanks to six. -/
def miceDest (base : String) : List UInt8 :=
  let octets := (utf8 base.toList).filter (· ≠ 0x20)
  (octets ++ List.replicate 6 0x20).take 6

def decodeMiceFrame (base : String) (info : List UInt8) : Checked (Option Text) := do
  let info ← CheckedAprs.trimTrailingCrlf info
  if info.length < 8 then return none
  if (← index info 0) ∉ [0x60, 0x27] then return none
  let dest := miceDest base
  if dest.length < 6 then return none
  match ← miceDigits dest 6 0 (List.replicate 6 0) (List.replicate 6 false) with
  | none => return none
  | some (latD, flags) =>
    let lat ← miceLat latD (← index flags 3)
    match ← miceLon info (← index flags 4) (← index flags 5) with
    | none => return none
    | some lon => return some (withComment (lat ++ ' ' :: lon) (printableComment (info.drop 8)))

theorem miceDigit_ends (c : UInt8) : Ends (miceDigit c) := by
  unfold miceDigit
  refine .ite (fun h => ?_) fun _ => .ite (fun h => ?_) fun _ => .ite (fun h => ?_) fun _ =>
    .ite (fun _ => ends_pure _) fun _ => .ite (fun _ => ends_pure _) fun _ => ends_pure _
  all_goals
    rw [bind_eq (subU8_eq h.1)]
    exact ends_pure _

/-- The arrays keep their size, and the loop stays in them. -/
theorem miceDigits_returns {dest : List UInt8} {left i : ℕ} {latD : List UInt8} {flags : List Bool}
    (hdest : i + left ≤ dest.length) (hlat : latD.length = i + left) (hflags : flags.length = i + left) :
    Returns (miceDigits dest left i latD flags) fun r => ∀ p, r = some p →
      p.1.length = i + left ∧ p.2.length = i + left := by
  induction left generalizing i latD flags with
  | zero =>
    refine .pure fun p hp => ?_
    obtain rfl := Option.some.inj hp
    exact ⟨hlat, hflags⟩
  | succ left ih =>
    unfold miceDigits
    refine (index_returns (by omega)).bind fun octet _ => ?_
    refine (miceDigit_ends octet).bind fun digit _ => ?_
    cases digit with
    | none => exact .pure fun p hp => by cases hp
    | some digit =>
      obtain ⟨d, f⟩ := digit
      dsimp only
      rw [bind_eq (store_eq (by omega)), bind_eq (store_eq (by omega))]
      have hnext : i + (left + 1) = i + 1 + left := by omega
      rw [hnext] at hdest hlat hflags ⊢
      exact ih hdest (by rw [List.length_set, hlat]) (by rw [List.length_set, hflags])

theorem miceLat_ends {d : List UInt8} (h : d.length = 6) (north : Bool) : Ends (miceLat d north) := by
  have hdigit : ∀ i < 6, Ends (latDigit d i) := fun i hi =>
    (index_returns (by omega)).bind fun _ _ => ends_pure _
  unfold miceLat
  refine (hdigit 0 (by omega)).bind fun _ _ => (hdigit 1 (by omega)).bind fun _ _ => ?_
  refine (hdigit 2 (by omega)).bind fun _ _ => (hdigit 3 (by omega)).bind fun _ _ => ?_
  exact (hdigit 4 (by omega)).bind fun _ _ => (hdigit 5 (by omega)).bind fun _ _ => ends_pure _

/-- All of this is small. -/
theorem miceDeg_ends (octet : UInt8) (offset : Bool) : Ends (miceDeg octet offset) := by
  have hsize : (octet.toNat : ℤ) < 256 := by exact_mod_cast octet.toNat_lt
  unfold miceDeg
  rw [bind_eq (i16_eq (by omega) (by omega))]
  have hsum : Returns (if offset then i16 (octet.toNat - 28 + 100) else pure (octet.toNat - 28 : ℤ))
      fun deg : ℤ => -28 ≤ deg ∧ deg < 328 := by
    refine .ite (fun _ => .of_eq (i16_eq (by omega) (by omega)) (by omega)) fun _ => .pure (by omega)
  refine hsum.bind fun deg hdeg => ?_
  refine .ite (fun _ => .of_eq (i16_eq (by omega) (by omega)) trivial) fun _ => ?_
  exact .ite (fun _ => .of_eq (i16_eq (by omega) (by omega)) trivial) fun _ => ends_pure _

theorem miceMin_ends (octet : UInt8) : Ends (miceMin octet) := by
  have hsize : (octet.toNat : ℤ) < 256 := by exact_mod_cast octet.toNat_lt
  unfold miceMin
  rw [bind_eq (i16_eq (by omega) (by omega))]
  exact .ite (fun _ => .of_eq (i16_eq (by omega) (by omega)) trivial) fun _ => ends_pure _

theorem miceLon_ends (h : 8 ≤ info.length) (offset west : Bool) : Ends (miceLon info offset west) := by
  unfold miceLon
  refine (index_returns (by omega)).bind fun first _ => ?_
  refine (miceDeg_ends first offset).bind fun deg _ => ?_
  refine (index_returns (by omega)).bind fun second _ => ?_
  refine (miceMin_ends second).bind fun min _ => ?_
  refine (index_returns (by omega)).bind fun third _ => ?_
  have hsize : (third.toNat : ℤ) < 256 := by exact_mod_cast third.toNat_lt
  rw [bind_eq (i16_eq (by omega) (by omega))]
  exact .ite (fun _ => ends_pure _) fun _ => ends_pure _

theorem decodeMiceFrame_ends (base : String) (info : List UInt8) : Ends (decodeMiceFrame base info) := by
  have hdest : (miceDest base).length = 6 := by
    unfold miceDest
    dsimp only
    rw [List.length_take, List.length_append, List.length_replicate]
    omega
  unfold decodeMiceFrame
  rw [bind_eq (CheckedAprs.trimTrailingCrlf_eq info)]
  refine .ite (fun _ => ends_pure _) fun hlong => ?_
  refine (index_returns (by omega)).bind fun dtype _ => ?_
  refine .ite (fun _ => ends_pure _) fun _ => ?_
  refine .ite (fun _ => ends_pure _) fun _ => ?_
  refine (miceDigits_returns hdest.ge (List.length_replicate ..) (List.length_replicate ..)).bind
    fun digits hdigits => ?_
  cases digits with
  | none => exact ends_pure _
  | some p =>
    obtain ⟨hlat, hflags⟩ := hdigits p rfl
    refine (index_returns (by omega)).bind fun north _ => ?_
    refine (miceLat_ends hlat north).bind fun lat _ => ?_
    refine (index_returns (by omega)).bind fun offset _ => ?_
    refine (index_returns (by omega)).bind fun west _ => ?_
    refine (miceLon_ends (not_lt.mp hlong) offset west).bind fun lon _ => ?_
    cases lon <;> exact ends_pure _

/-! ### Beacons -/

section Beacons

variable (formatDecimal : ℕ → ℕ → Text)

namespace AprsBeacon

def decode (info : List UInt8) : Checked (Option Text) := do
  let info ← CheckedAprs.trimTrailingCrlf info
  if info = [] then return none
  let dtype ← index info 0
  if dtype ∈ [0x3A, 0x3B, 0x29, 0x7D, 0x54, 0x7B, 0x60, 0x27] then return none
  if dtype = 0x3E then return nonempty (← statusText (← sliceFrom info 1))
  if dtype ∉ [0x21, 0x3D, 0x2F, 0x40, 0x5F] then return none
  -- a position with a time has it in front
  let rest ← (if dtype ∈ [0x2F, 0x40] ∧ 8 < info.length then sliceFrom info 8 else sliceFrom info 1)
  match ← decodePosition formatDecimal rest with
  | some summary => return some summary
  | none => return nonempty (printableComment rest)

end AprsBeacon

def decodeBeacon (dest : Callsign) (info : List UInt8) : Checked (Option Text) := do
  let info ← CheckedAprs.trimTrailingCrlf info
  if info.head? = some 0x60 ∨ info.head? = some 0x27 then decodeMiceFrame dest.base info
  else AprsBeacon.decode formatDecimal info

/-- What is returned, if the code ends. -/
def value {α : Type} (c : Checked (Option α)) : Option α :=
  match c with
  | .ok x => x
  | .error _ => none

/-- The reader of positions whose answers are those of this code. -/
def reader : PositionReader where
  position rest := value (decodePosition formatDecimal rest)
  mice base info := value (decodeMiceFrame base info)

theorem ends_value {α : Type} {c : Checked (Option α)} (h : Ends c) : c = .ok (value c) := by
  obtain ⟨x, rfl, -⟩ := h
  rfl

theorem AprsBeacon.decode_eq (info : List UInt8) :
    AprsBeacon.decode formatDecimal info = .ok ((reader formatDecimal).decode info) := by
  unfold AprsBeacon.decode PositionReader.decode
  rw [bind_eq (CheckedAprs.trimTrailingCrlf_eq info)]
  cases AprsCodec.trimTrailingCrlf info with
  | nil => rfl
  | cons dtype body =>
    have hbody : sliceFrom (dtype :: body) 1 = .ok body := sliceFrom_eq (Nat.le_add_left 1 _)
    have hrest : (if dtype ∈ [0x2F, 0x40] ∧ 8 < (dtype :: body).length then sliceFrom (dtype :: body) 8
          else sliceFrom (dtype :: body) 1) =
        .ok (if dtype ∈ [0x2F, 0x40] ∧ 8 < body.length + 1 then body.drop 7 else body) := by
      rw [hbody, List.length_cons]
      by_cases htime : dtype ∈ [0x2F, 0x40] ∧ 8 < body.length + 1
      · rw [if_pos htime, if_pos htime, sliceFrom_eq htime.2.le]
        rfl
      · rw [if_neg htime, if_neg htime]
    rw [if_neg (List.cons_ne_nil _ _)]
    change (if dtype ∈ _ then _ else _) = _
    dsimp only
    by_cases hstatus : dtype = 0x3E
    · subst hstatus
      rw [if_neg (by decide), if_pos rfl, if_pos rfl, bind_eq hbody, bind_eq (statusText_eq body)]
      rfl
    by_cases hposition : dtype ∈ [0x21, 0x3D, 0x2F, 0x40, 0x5F]
    · have hother : ∀ d ∈ [0x21, 0x3D, 0x2F, 0x40, 0x5F],
          d ∉ [(0x3A : UInt8), 0x3B, 0x29, 0x7D, 0x54, 0x7B, 0x60, 0x27] := by decide
      rw [if_neg (hother dtype hposition), if_neg hstatus, if_neg hstatus, if_neg (not_not.mpr hposition),
        if_pos hposition, bind_eq hrest,
        bind_eq (ends_value (decodePosition_ends formatDecimal _))]
      change _ = Except.ok ((value (decodePosition formatDecimal _)).or _)
      cases value (decodePosition formatDecimal _) <;> rfl
    · rw [if_neg hstatus, if_neg hstatus, if_pos hposition, if_neg hposition]
      split_ifs <;> rfl

theorem decodeBeacon_eq (dest : Callsign) (info : List UInt8) :
    decodeBeacon formatDecimal dest info = .ok ((reader formatDecimal).decodeBeacon dest info) := by
  unfold decodeBeacon PositionReader.decodeBeacon
  rw [bind_eq (CheckedAprs.trimTrailingCrlf_eq info)]
  dsimp only
  split_ifs
  · exact ends_value (decodeMiceFrame_ends dest.base _)
  · exact AprsBeacon.decode_eq formatDecimal _

end Beacons

/-! ### All decoders -/

/-- Whatever the radio hears, each of the decoders ends with a value or a refusal, and does not leave
its octets on the way. A message becomes a text, whose octets have to be counted. -/
theorem decoders_end (formatDecimal : ℕ → ℕ → Text) :
    (∀ buf, CheckedFrames.Ax25Frame.decode buf = .ok (Ax25.Ax25Frame.decode buf)) ∧
    (∀ buf, CheckedFrames.AircFrame.decode buf = .ok (Airc.AircFrame.decode buf)) ∧
    (∀ dest info, decodeBeacon formatDecimal dest info =
      .ok ((reader formatDecimal).decodeBeacon dest info)) ∧
    ∀ info, 3 * info.length < usizeLimit →
      CheckedAprs.AprsMessage.decode info = .ok (AprsCodec.AprsMessage.decode info) :=
  ⟨CheckedFrames.Ax25Frame.decode_eq, CheckedFrames.AircFrame.decode_eq, decodeBeacon_eq formatDecimal,
    fun _ h => CheckedAprs.AprsMessage.decode_eq h⟩

/-- A brace behind a character of two octets, and an octet that is no character. -/
theorem decoders_end_brace :
    CheckedAprs.AprsMessage.decode (utf8 ":SK0MT-1  :blå\x7b07\x7d".toList ++ [0xFF]) =
      .ok (AprsCodec.AprsMessage.decode (utf8 ":SK0MT-1  :blå\x7b07\x7d".toList ++ [0xFF])) :=
  (decoders_end fun _ _ => []).2.2.2 _ (by decide +kernel)

example : value (decodeBeacon (fun _ _ => []) ⟨"S32U6T", 0⟩
      [0x60, 0x28, 0x5F, 0x66, 0x6E, 0x22, 0x4F, 0x6A, 0x2F, 0x21]) =
    some "33°25.64N 012°07.74W - /!".toList := by decide +kernel

end CheckedPositions
