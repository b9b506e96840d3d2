import Rfircd.Ax25
import Rfircd.Utf8Text
import Mathlib.Data.UInt

/-! AX.25 frames as octets.
An address is six shifted characters and an octet with the SSID and three flags; the last address of
the field says so. -/
namespace Ax25

open Basics MessageText

inductive Ax25Error where
  | truncated
  | badAddress
  | tooManyDigipeaters
  deriving DecidableEq, Repr

namespace Address

/-- The bits for the reserved field, the SSID, the C bit and the end of the address field. -/
def ssidOctet (ssid : UInt8) (cBit last : Bool) : UInt8 :=
  let octet := (0x60 : UInt8) ||| (ssid <<< 1)
  let octet := if cBit then octet ||| 0x80 else octet
  if last then octet ||| 0x01 else octet

/-- Six characters, padded with blanks and shifted left by one bit. -/
def baseOctets (base : List UInt8) : List UInt8 :=
  ((base ++ List.replicate 6 (0x20 : UInt8)).take 6).map fun b : UInt8 => b <<< 1

def encode (a : Address) : List UInt8 :=
  baseOctets (utf8 a.call.base.toList) ++ [ssidOctet (.ofNat a.call.ssid) a.cBit a.last]

/-- The characters of a callsign; blanks are skipped wherever they stand. -/
def decodeBase : List UInt8 → Except Ax25Error Text
  | [] => .ok []
  | b :: rest =>
    if b &&& 0x01 ≠ 0 then .error .badAddress
    else
      let ch := Char.ofNat (b >>> 1).toNat
      if ch = ' ' then decodeBase rest
      else if !isAsciiAlphanumeric ch then .error .badAddress
      else do return ch :: (← decodeBase rest)

def decode (buf : List UInt8) : Except Ax25Error Address :=
  if buf.length < addressLen then .error .truncated
  else do
    let base ← decodeBase (buf.take 6)
    let octet := buf.getD 6 0
    match Callsign.new base ((octet >>> 1) &&& 0x0F).toNat with
    | some call => return ⟨call, octet &&& 0x80 != 0, octet &&& 0x01 != 0⟩
    | none => .error .badAddress

/-- The extension bit is implied by the position; a decoded frame has it cleared. -/
def normal (a : Address) : Address := { a with last := false }

end Address

namespace Ax25Frame

/-- The digipeaters; the last one ends the address field. -/
def encodePath : List Address → List UInt8
  | [] => []
  | digi :: path => Address.encode { digi with last := path.isEmpty } ++ encodePath path

def encode (f : Ax25Frame) : List UInt8 :=
  Address.encode { f.destination with last := false } ++
    Address.encode { f.source with last := f.digipeaters.isEmpty } ++
    encodePath f.digipeaters ++ f.control :: f.pid.toList ++ f.info

/-- The loop over the digipeaters, with what comes after the address field. -/
def decodePath : ℕ → Bool → List UInt8 → Except Ax25Error (List Address × List UInt8)
  | _, true, buf => .ok ([], buf)
  | 0, false, _ => .error .tooManyDigipeaters
  | room + 1, false, buf => do
    let digi ← Address.decode buf
    let (path, rest) ← decodePath room digi.last (buf.drop addressLen)
    return (digi :: path, rest)

/-- Only I and UI frames carry a protocol octet. -/
def carriesPid (control : UInt8) : Bool := control &&& 0xEF == controlUi || control &&& 0x01 == 0

/-- What comes after the address field. -/
def decodeRest (buf : List UInt8) : Except Ax25Error (UInt8 × Option UInt8 × List UInt8) :=
  match buf with
  | [] => .error .truncated
  | control :: rest =>
    if carriesPid control then
      match rest with
      | [] => .error .truncated
      | pid :: info => .ok (control, some pid, info)
    else .ok (control, none, [])

def decode (buf : List UInt8) : Except Ax25Error Ax25Frame := do
  let destination ← Address.decode buf
  if destination.last then .error .badAddress
  else
    let source ← Address.decode (buf.drop addressLen)
    let (path, rest) ← decodePath maxDigipeaters source.last (buf.drop (2 * addressLen))
    let (control, pid, info) ← decodeRest rest
    return ⟨destination.normal, source.normal, path.map Address.normal, control, pid, info⟩

end Ax25Frame

end Ax25

namespace Ax25Codec

open Basics Ax25 MessageText

/-! ### Callsigns -/

def plain (c : Char) : Bool := isAsciiDigit c || isAsciiUpper c

/-- A callsign that can be built. -/
structure Valid (c : Callsign) : Prop where
  nonempty : c.base.toList ≠ []
  length : c.base.toList.length ≤ 6
  chars : ∀ ch ∈ c.base.toList, plain ch = true
  ssid : c.ssid ≤ 15

theorem forall_ascii {P : Char → Prop} (h : ∀ n : Fin 128, P (Char.ofNat n)) (c : Char)
    (hc : c.toNat < 128) : P c := by
  have hn := h ⟨c.toNat, hc⟩
  rwa [Char.ofNat_toNat] at hn

theorem alphanumeric_ascii {c : Char} (h : isAsciiAlphanumeric c = true) : c.toNat < 128 := by
  have hz : 'Z'.val.toNat = 90 := by decide
  have hlower : 'z'.val.toNat = 122 := by decide
  have hnine : '9'.val.toNat = 57 := by decide
  have hval : c.val.toNat = c.toNat := rfl
  simp only [isAsciiAlphanumeric, isAsciiDigit, isAsciiUpper, isAsciiLower, Bool.or_eq_true,
    Bool.and_eq_true, decide_eq_true_eq, Char.le_def, UInt32.le_iff_toNat_le] at h
  omega

/-- What a letter or a digit is as a capital. -/
theorem alphanumeric_spec {c : Char} (h : isAsciiAlphanumeric c = true) :
    isWhitespace c = false ∧ plain (toAsciiUpper c) = true := by
  refine forall_ascii (P := fun c => isAsciiAlphanumeric c = true →
    isWhitespace c = false ∧ plain (toAsciiUpper c) = true) ?_ c (alphanumeric_ascii h) h
  decide +kernel

/-- A capital letter or a digit is one octet, which is shifted and read back. -/
theorem plain_spec {c : Char} (h : plain c = true) : isAsciiAlphanumeric c = true ∧
    toAsciiUpper c = c ∧ c ≠ ' ' ∧ (UInt8.ofNat c.toNat <<< 1) &&& 0x01 = 0 ∧
    Char.ofNat ((UInt8.ofNat c.toNat <<< 1) >>> 1).toNat = c := by
  have halnum : isAsciiAlphanumeric c = true := by
    simp only [plain, isAsciiAlphanumeric, Bool.or_eq_true] at h ⊢
    exact .inl h
  refine ⟨halnum, ?_⟩
  refine forall_ascii (P := fun c => plain c = true → toAsciiUpper c = c ∧ c ≠ ' ' ∧
    (UInt8.ofNat c.toNat <<< 1) &&& 0x01 = 0 ∧
    Char.ofNat ((UInt8.ofNat c.toNat <<< 1) >>> 1).toNat = c) ?_ c (alphanumeric_ascii halnum) h
  decide +kernel

theorem plain_of_capital {c : Char} (h : isAsciiAlphanumeric (toAsciiUpper c) = true) :
    plain (toAsciiUpper c) = true := by
  have hagain := (alphanumeric_spec h).2
  by_cases hlower : isAsciiLower c = true
  · have hc : isAsciiAlphanumeric c = true := by simp [isAsciiAlphanumeric, hlower]
    exact (alphanumeric_spec hc).2
  · have hsame : toAsciiUpper c = c := by rw [toAsciiUpper, if_neg hlower]
    rw [hsame] at h ⊢
    simpa [isAsciiAlphanumeric, hlower, plain] using h

theorem utf8_plain {t : Text} (h : ∀ c ∈ t, plain c = true) :
    utf8 t = t.map fun c => UInt8.ofNat c.toNat :=
  Utf8Text.utf8_ascii fun c hc => alphanumeric_ascii (plain_spec (h c hc)).1

theorem octets_plain {t : Text} (h : ∀ c ∈ t, plain c = true) : octets t = t.length := by
  rw [octets, utf8_plain h, List.length_map]

theorem trim_of_visible {t : Text} (h : ∀ c ∈ t, isWhitespace c = false) : trim t = t := by
  have hleft : ∀ t : Text, (∀ c ∈ t, isWhitespace c = false) → t.dropWhile isWhitespace = t := by
    intro t ht
    cases t with
    | nil => rfl
    | cons c t => rw [List.dropWhile_cons_of_neg (by simp [ht c List.mem_cons_self])]
  have hreverse : ∀ c ∈ t.reverse, isWhitespace c = false := fun c hc => h c (List.mem_reverse.mp hc)
  rw [trim, hleft t h, hleft _ hreverse, List.reverse_reverse]

/-- What is built from letters and digits. -/
theorem new_of_alphanumeric {base : Text} {ssid : ℕ} (hne : base ≠ []) (hlength : base.length ≤ 6)
    (halnum : ∀ c ∈ base, isAsciiAlphanumeric c = true) (hssid : ssid ≤ 15) :
    Callsign.new base ssid = some ⟨String.ofList (base.map toAsciiUpper), ssid⟩ := by
  have htrim : trim base = base := trim_of_visible fun c hc => (alphanumeric_spec (halnum c hc)).1
  have hplain : ∀ c ∈ base.map toAsciiUpper, plain c = true := by
    intro c hc
    obtain ⟨d, hd, rfl⟩ := List.mem_map.mp hc
    exact (alphanumeric_spec (halnum d hd)).2
  have hoctets := octets_plain hplain
  have hall : (base.map toAsciiUpper).all isAsciiAlphanumeric = true :=
    List.all_eq_true.mpr fun c hc => (plain_spec (hplain c hc)).1
  rw [List.length_map] at hoctets
  unfold Callsign.new
  rw [htrim]
  dsimp only
  rw [if_neg]
  rw [hoctets, hall]
  simp only [List.map_eq_nil_iff, hne, not_true, false_or, not_or, Nat.not_lt]
  exact ⟨hlength, hssid⟩

theorem valid_of_new {base : Text} {ssid : ℕ} {c : Callsign} (h : Callsign.new base ssid = some c) :
    Valid c := by
  unfold Callsign.new at h
  dsimp only at h
  split_ifs at h with hbad
  obtain rfl := Option.some.inj h
  simp only [not_or, not_not, Nat.not_lt] at hbad
  obtain ⟨hne, hoctets, hall, hssid⟩ := hbad
  have hplain : ∀ c ∈ (trim base).map toAsciiUpper, plain c = true := by
    intro c hc
    obtain ⟨d, -, rfl⟩ := List.mem_map.mp hc
    exact plain_of_capital (List.all_eq_true.mp hall _ hc)
  rw [octets_plain hplain] at hoctets
  exact ⟨by rwa [String.toList_ofList], by rwa [String.toList_ofList],
    by rwa [String.toList_ofList], hssid⟩

theorem Valid.new {c : Callsign} (h : Valid c) : Callsign.new c.base.toList c.ssid = some c := by
  have hsame : c.base.toList.map toAsciiUpper = c.base.toList := by
    rw [List.map_congr_left (g := id) fun ch hch => (plain_spec (h.chars ch hch)).2.1, List.map_id]
  rw [new_of_alphanumeric h.nonempty h.length (fun ch hch => (plain_spec (h.chars ch hch)).1) h.ssid,
    hsame, String.ofList_toList]

/-- The fields say exactly what can be built. -/
theorem valid_iff {c : Callsign} : Valid c ↔ ∃ base ssid, Callsign.new base ssid = some c := by
  constructor
  · intro h
    exact ⟨_, _, h.new⟩
  · rintro ⟨base, ssid, h⟩
    exact valid_of_new h

instance (c : Callsign) : Decidable (Valid c) :=
  decidable_of_iff (Callsign.new c.base.toList c.ssid = some c) ⟨valid_of_new, Valid.new⟩

/-! ### One address -/

theorem baseOctets_of_length {base : List UInt8} (h : base.length ≤ 6) :
    Address.baseOctets base =
      (base.map fun b : UInt8 => b <<< 1) ++ List.replicate (6 - base.length) (0x40 : UInt8) := by
  have htake : (base ++ List.replicate 6 (0x20 : UInt8)).take 6 =
      base ++ List.replicate (6 - base.length) 0x20 := by
    rw [List.take_append, List.take_of_length_le h, List.take_replicate, min_eq_left (by omega)]
  rw [Address.baseOctets, htake, List.map_append, List.map_replicate]
  rfl

theorem length_baseOctets (base : List UInt8) : (Address.baseOctets base).length = 6 := by
  rw [Address.baseOctets, List.length_map, List.length_take, List.length_append,
    List.length_replicate]
  omega

theorem length_encodeAddress (a : Address) : a.encode.length = addressLen := by
  rw [Address.encode, List.length_append, length_baseOctets]
  rfl

theorem decodeBase_blanks (n : ℕ) :
    Address.decodeBase (List.replicate n (0x40 : UInt8)) = .ok [] := by
  induction n with
  | zero => rfl
  | succ n ih =>
    rw [List.replicate_succ, Address.decodeBase, if_neg (by decide)]
    exact ih

theorem decodeBase_plain {t : Text} (h : ∀ c ∈ t, plain c = true) (n : ℕ) :
    Address.decodeBase ((t.map fun c => UInt8.ofNat c.toNat <<< 1) ++
      List.replicate n (0x40 : UInt8)) = .ok t := by
  induction t with
  | nil => exact decodeBase_blanks n
  | cons c t ih =>
    obtain ⟨hc, ht⟩ := List.forall_mem_cons.mp h
    obtain ⟨halnum, -, hblank, hlow, hread⟩ := plain_spec hc
    rw [List.map_cons, List.cons_append, Address.decodeBase, if_neg (not_not.mpr hlow)]
    dsimp only
    rw [hread, if_neg hblank, if_neg (by rw [halnum]; decide), ih ht]
    rfl

theorem ssidOctet_spec : ∀ (n : Fin 16) (cBit last : Bool),
    ((Address.ssidOctet (.ofNat n) cBit last >>> 1) &&& 0x0F).toNat = n ∧
    (Address.ssidOctet (.ofNat n) cBit last &&& 0x80 != 0) = cBit ∧
    (Address.ssidOctet (.ofNat n) cBit last &&& 0x01 != 0) = last := by
  decide +kernel

/-- An address is read back, whatever follows it. -/
theorem decode_encodeAddress {a : Address} (h : Valid a.call) (rest : List UInt8) :
    Address.decode (a.encode ++ rest) = .ok a := by
  have hutf8 := utf8_plain h.chars
  have hlength : (utf8 a.call.base.toList).length ≤ 6 := by
    rw [hutf8, List.length_map]
    exact h.length
  have hbase : Address.decodeBase (Address.baseOctets (utf8 a.call.base.toList)) =
      .ok a.call.base.toList := by
    rw [baseOctets_of_length hlength, hutf8, List.map_map]
    exact decodeBase_plain h.chars _
  have hsix := length_baseOctets (utf8 a.call.base.toList)
  have htake : (a.encode ++ rest).take 6 = Address.baseOctets (utf8 a.call.base.toList) := by
    rw [Address.encode, List.append_assoc, List.take_left' hsix]
  have hoctet : (a.encode ++ rest).getD 6 0 =
      Address.ssidOctet (.ofNat a.call.ssid) a.cBit a.last := by
    rw [Address.encode, List.append_assoc, List.getD_eq_getElem?_getD,
      List.getElem?_append_right hsix.le, hsix]
    rfl
  obtain ⟨hssid, hcBit, hlast⟩ := ssidOctet_spec ⟨a.call.ssid, Nat.lt_succ_of_le h.ssid⟩ a.cBit a.last
  have hshort : ¬ (a.encode ++ rest).length < addressLen := by
    rw [List.length_append, length_encodeAddress]
    omega
  unfold Address.decode
  rw [if_neg hshort, htake, hbase, hoctet]
  dsimp only [bind, Except.bind]
  rw [hssid, hcBit, hlast, h.new]
  rfl

theorem valid_of_decode {buf : List UInt8} {a : Address} (h : Address.decode buf = .ok a) :
    Valid a.call := by
  unfold Address.decode at h
  split_ifs at h
  cases hbase : Address.decodeBase (buf.take 6) with
  | error e =>
    rw [hbase] at h
    cases h
  | ok base =>
    rw [hbase] at h
    dsimp only [bind, Except.bind] at h
    split at h
    · rename_i call hnew
      cases h
      exact valid_of_new hnew
    · cases h

/-! ### Frames -/

/-- A frame that can be told from its octets: callsigns that exist, a path that is not too long, and
no field that the control octet excludes. -/
structure WellFormed (f : Ax25Frame) : Prop where
  destination : Valid f.destination.call ∧ f.destination.last = false
  source : Valid f.source.call ∧ f.source.last = false
  path : ∀ digi ∈ f.digipeaters, Valid digi.call ∧ digi.last = false
  hops : f.digipeaters.length ≤ maxDigipeaters
  pid : f.pid.isSome = Ax25Frame.carriesPid f.control
  info : Ax25Frame.carriesPid f.control = false → f.info = []

instance (f : Ax25Frame) : Decidable (WellFormed f) :=
  decidable_of_iff ((Valid f.destination.call ∧ f.destination.last = false) ∧
      (Valid f.source.call ∧ f.source.last = false) ∧
      (∀ digi ∈ f.digipeaters, Valid digi.call ∧ digi.last = false) ∧
      f.digipeaters.length ≤ maxDigipeaters ∧ f.pid.isSome = Ax25Frame.carriesPid f.control ∧
      (Ax25Frame.carriesPid f.control = false → f.info = []))
    ⟨fun ⟨hto, hfrom, hpath, hhops, hpid, hinfo⟩ => ⟨hto, hfrom, hpath, hhops, hpid, hinfo⟩,
      fun h => ⟨h.destination, h.source, h.path, h.hops, h.pid, h.info⟩⟩

theorem decodePath_encodePath {path : List Address} {room : ℕ} (rest : List UInt8)
    (h : ∀ digi ∈ path, Valid digi.call ∧ digi.last = false) (hroom : path.length ≤ room) :
    ∃ marked, Ax25Frame.decodePath room path.isEmpty (Ax25Frame.encodePath path ++ rest) =
      .ok (marked, rest) ∧ marked.map Address.normal = path := by
  induction path generalizing room with
  | nil => exact ⟨[], by simp [Ax25Frame.decodePath, Ax25Frame.encodePath], rfl⟩
  | cons digi path ih =>
    obtain ⟨⟨hvalid, hlast⟩, hpath⟩ := List.forall_mem_cons.mp h
    obtain ⟨room, rfl⟩ : ∃ n, room = n + 1 := ⟨room - 1, by rw [List.length_cons] at hroom; omega⟩
    obtain ⟨marked, hmarked, hnormal⟩ := ih hpath (by simpa using hroom)
    have hfirst := decode_encodeAddress (a := { digi with last := path.isEmpty }) hvalid
      (Ax25Frame.encodePath path ++ rest)
    have hdrop : (Address.encode { digi with last := path.isEmpty } ++
        (Ax25Frame.encodePath path ++ rest)).drop addressLen = Ax25Frame.encodePath path ++ rest :=
      List.drop_left' (length_encodeAddress _)
    refine ⟨{ digi with last := path.isEmpty } :: marked, ?_, ?_⟩
    · rw [List.isEmpty_cons, Ax25Frame.encodePath, List.append_assoc, Ax25Frame.decodePath, hfirst]
      dsimp only [bind, Except.bind]
      rw [hdrop, hmarked]
      rfl
    · rw [List.map_cons, hnormal, Address.normal, ← hlast]

theorem decodeRest_of_wellFormed {f : Ax25Frame} (h : WellFormed f) :
    Ax25Frame.decodeRest (f.control :: f.pid.toList ++ f.info) = .ok (f.control, f.pid, f.info) := by
  have hpid := h.pid
  cases hcarries : Ax25Frame.carriesPid f.control with
  | true =>
    obtain ⟨pid, heq⟩ := Option.isSome_iff_exists.mp (hpid.trans hcarries)
    simp [Ax25Frame.decodeRest, hcarries, heq]
  | false =>
    have hnone : f.pid = none := Option.not_isSome_iff_eq_none.mp (by simp [hpid, hcarries])
    simp [Ax25Frame.decodeRest, hcarries, hnone, h.info hcarries]

theorem normal_of_cleared {a : Address} {last : Bool} (h : a.last = false) :
    Address.normal { a with last := last } = a := by
  rw [Address.normal, ← h]

theorem WellFormed.decode_encode {f : Ax25Frame} (h : WellFormed f) :
    Ax25Frame.decode f.encode = .ok f := by
  obtain ⟨path, hpath, hnormal⟩ :=
    decodePath_encodePath (f.control :: f.pid.toList ++ f.info) h.path h.hops
  have hrest := decodeRest_of_wellFormed h
  have hencode : f.encode = Address.encode { f.destination with last := false } ++
      (Address.encode { f.source with last := f.digipeaters.isEmpty } ++
        (Ax25Frame.encodePath f.digipeaters ++ (f.control :: f.pid.toList ++ f.info))) := by
    simp only [Ax25Frame.encode, List.append_assoc]
  have hdestination := decode_encodeAddress (a := { f.destination with last := false })
    h.destination.1 (Address.encode { f.source with last := f.digipeaters.isEmpty } ++
      (Ax25Frame.encodePath f.digipeaters ++ (f.control :: f.pid.toList ++ f.info)))
  have hsource := decode_encodeAddress (a := { f.source with last := f.digipeaters.isEmpty })
    h.source.1 (Ax25Frame.encodePath f.digipeaters ++ (f.control :: f.pid.toList ++ f.info))
  have hfirst : f.encode.drop addressLen =
      Address.encode { f.source with last := f.digipeaters.isEmpty } ++
        (Ax25Frame.encodePath f.digipeaters ++ (f.control :: f.pid.toList ++ f.info)) := by
    rw [hencode, List.drop_left' (length_encodeAddress _)]
  have hsecond : f.encode.drop (2 * addressLen) =
      Ax25Frame.encodePath f.digipeaters ++ (f.control :: f.pid.toList ++ f.info) := by
    rw [two_mul, ← List.drop_drop, hfirst, List.drop_left' (length_encodeAddress _)]
  unfold Ax25Frame.decode
  rw [hsecond, hfirst, hsource, hencode, hdestination]
  dsimp only [bind, Except.bind]
  rw [if_neg Bool.false_ne_true, hpath]
  dsimp only [Except.bind]
  rw [hrest, hnormal, normal_of_cleared h.destination.2, normal_of_cleared h.source.2]
  rfl

theorem wellFormed_of_decodePath {room : ℕ} {last : Bool} {buf rest : List UInt8} {path : List Address}
    (h : Ax25Frame.decodePath room last buf = .ok (path, rest)) :
    path.length ≤ room ∧ ∀ digi ∈ path, Valid digi.call := by
  induction room generalizing last buf path with
  | zero =>
    cases last with
    | true =>
      cases h
      exact ⟨le_rfl, by simp⟩
    | false => cases h
  | succ room ih =>
    cases last with
    | true =>
      cases h
      exact ⟨Nat.zero_le _, by simp⟩
    | false =>
      rw [Ax25Frame.decodePath] at h
      cases hdigi : Address.decode buf with
      | error e =>
        rw [hdigi] at h
        cases h
      | ok digi =>
        rw [hdigi] at h
        dsimp only [bind, Except.bind] at h
        cases hpath : Ax25Frame.decodePath room digi.last (buf.drop addressLen) with
        | error e =>
          rw [hpath] at h
          cases h
        | ok found =>
          obtain ⟨path, after⟩ := found
          rw [hpath] at h
          cases h
          obtain ⟨hlength, hvalid⟩ := ih hpath
          refine ⟨Nat.succ_le_succ hlength, fun a ha => ?_⟩
          rcases List.mem_cons.mp ha with rfl | ha
          · exact valid_of_decode hdigi
          · exact hvalid a ha

theorem wellFormed_of_decodeRest {buf info : List UInt8} {control : UInt8} {pid : Option UInt8}
    (h : Ax25Frame.decodeRest buf = .ok (control, pid, info)) :
    pid.isSome = Ax25Frame.carriesPid control ∧
      (Ax25Frame.carriesPid control = false → info = []) := by
  cases buf with
  | nil => cases h
  | cons first rest =>
    unfold Ax25Frame.decodeRest at h
    dsimp only at h
    split_ifs at h with hcarries
    · cases rest with
      | nil => cases h
      | cons second rest =>
        cases h
        exact ⟨hcarries.symm, fun hnot => absurd hnot (by rw [hcarries]; decide)⟩
    · cases h
      exact ⟨by simpa using hcarries, fun _ => rfl⟩

theorem wellFormed_of_decode {buf : List UInt8} {f : Ax25Frame} (h : Ax25Frame.decode buf = .ok f) :
    WellFormed f := by
  unfold Ax25Frame.decode at h
  cases hdestination : Address.decode buf with
  | error e =>
    rw [hdestination] at h
    cases h
  | ok destination =>
    rw [hdestination] at h
    dsimp only [bind, Except.bind] at h
    split_ifs at h
    cases hsource : Address.decode (buf.drop addressLen) with
    | error e =>
      rw [hsource] at h
      cases h
    | ok source =>
      rw [hsource] at h
      dsimp only at h
      cases hpath : Ax25Frame.decodePath maxDigipeaters source.last (buf.drop (2 * addressLen)) with
      | error e =>
        rw [hpath] at h
        cases h
      | ok found =>
        obtain ⟨path, after⟩ := found
        rw [hpath] at h
        dsimp only at h
        cases hrest : Ax25Frame.decodeRest after with
        | error e =>
          rw [hrest] at h
          cases h
        | ok found =>
          obtain ⟨control, pid, info⟩ := found
          rw [hrest] at h
          cases h
          obtain ⟨hlength, hvalid⟩ := wellFormed_of_decodePath hpath
          obtain ⟨hpid, hinfo⟩ := wellFormed_of_decodeRest hrest
          have hto : Valid destination.call := valid_of_decode hdestination
          have hfrom : Valid source.call := valid_of_decode hsource
          refine ⟨⟨hto, rfl⟩, ⟨hfrom, rfl⟩, ?_, ?_, hpid, hinfo⟩
          · intro digi hdigi
            obtain ⟨a, ha, rfl⟩ := List.mem_map.mp hdigi
            exact ⟨hvalid a ha, rfl⟩
          · rw [List.length_map]
            exact hlength

/-- Every well-formed frame is read back, and what is accepted is well formed; so whatever is accepted
is the same frame when it has been written and read again. -/
theorem codec_round_trips :
    (∀ f, WellFormed f → Ax25Frame.decode f.encode = .ok f) ∧
      ∀ buf f, Ax25Frame.decode buf = .ok f → WellFormed f ∧ Ax25Frame.decode f.encode = .ok f := by
  refine ⟨fun f h => h.decode_encode, fun buf f h => ?_⟩
  have hwell := wellFormed_of_decode h
  exact ⟨hwell, hwell.decode_encode⟩

/-- A frame that one of two digipeaters has repeated. -/
def repeated : Ax25Frame where
  destination := ⟨⟨"AIRC", 0⟩, true, false⟩
  source := ⟨⟨"SM0ABC", 7⟩, false, false⟩
  digipeaters := [⟨⟨"SK0MT", 1⟩, true, false⟩, ⟨⟨"SK1XX", 15⟩, false, false⟩]
  control := controlUi
  pid := some pidNoL3
  info := [0x68, 0x69]

theorem codec_round_trips_repeated : Ax25Frame.decode repeated.encode = .ok repeated :=
  codec_round_trips.1 repeated (by decide +kernel)

end Ax25Codec
