import Rfircd.Basics

/-! Texts of IRC messages and APRS messages, and the names in them. -/
namespace MessageText

open Basics

/-- The length of a text is counted in octets. -/
def octets (t : Text) : ℕ := (utf8 t).length

def splitOnce (c : Char) : Text → Option (Text × Text)
  | [] => none
  | d :: t => if d = c then some ([], t) else (splitOnce c t).map fun p => (d :: p.1, p.2)

/-- `char::is_whitespace`. -/
def isWhitespace (c : Char) : Bool :=
  let n := c.toNat
  (9 ≤ n && n ≤ 13) || n = 0x20 || n = 0x85 || n = 0xA0 || n = 0x1680 ||
    (0x2000 ≤ n && n ≤ 0x200A) || n = 0x2028 || n = 0x2029 || n = 0x202F || n = 0x205F || n = 0x3000

def trim (t : Text) : Text :=
  ((t.dropWhile isWhitespace).reverse.dropWhile isWhitespace).reverse

/-- `str::split_whitespace`. -/
def wordsFrom (token : Text) : Text → List Text
  | [] => if token = [] then [] else [token.reverse]
  | c :: rest =>
    if isWhitespace c then
      if token = [] then wordsFrom [] rest else token.reverse :: wordsFrom [] rest
    else wordsFrom (c :: token) rest

def words (t : Text) : List Text := wordsFrom [] t

/-- `char::is_control`, which has the C0 and C1 blocks and DEL. -/
def isControl (c : Char) : Bool := c.toNat < 0x20 || (0x7F ≤ c.toNat && c.toNat ≤ 0x9F)

def isAsciiDigit (c : Char) : Bool := '0' ≤ c && c ≤ '9'
def isAsciiUpper (c : Char) : Bool := 'A' ≤ c && c ≤ 'Z'
def isAsciiLower (c : Char) : Bool := 'a' ≤ c && c ≤ 'z'
def isAsciiAlphanumeric (c : Char) : Bool := isAsciiDigit c || isAsciiUpper c || isAsciiLower c

def toAsciiLower (c : Char) : Char :=
  if isAsciiUpper c then Char.ofNat (c.toNat + 32) else c

def toAsciiUpper (c : Char) : Char :=
  if isAsciiLower c then Char.ofNat (c.toNat - 32) else c

def eqIgnoreAsciiCase (s t : Text) : Bool := s.map toAsciiLower = t.map toAsciiLower

/-- RFC 1459 case folding. -/
def lower (t : Text) : Text :=
  t.map fun c => match c with
    | '[' => '\x7b'
    | ']' => '\x7d'
    | '\\' => '|'
    | '~' => '^'
    | c => toAsciiLower c

theorem lower_cons (c : Char) (t : Text) : lower (c :: t) = lower [c] ++ lower t := rfl

/-- Case folding changes letters and brackets only. -/
theorem lower_kept {c : Char} (h : 128 ≤ c.toNat) : lower [c] = [c] := by
  have hspecial : c ≠ '[' ∧ c ≠ ']' ∧ c ≠ '\\' ∧ c ≠ '~' := by
    refine ⟨?_, ?_, ?_, ?_⟩ <;> (rintro rfl; exact absurd h (by decide))
  have hupper : isAsciiUpper c = false := by
    refine Bool.eq_false_iff.mpr fun hu => ?_
    simp only [isAsciiUpper, Bool.and_eq_true, decide_eq_true_eq, Char.le_def,
      UInt32.le_iff_toNat_le] at hu
    have hz : 'Z'.val.toNat = 90 := by decide
    have hc : c.val.toNat = c.toNat := rfl
    omega
  simp [lower, hspecial, toAsciiLower, hupper]

/-- A CTCP body: its command and the rest. The closing mark may be missing. -/
def parseCtcp (text : Text) : Option (Text × Text) :=
  match text with
  | '\x01' :: inner =>
    let inner := if inner.getLast? = some '\x01' then inner.dropLast else inner
    if inner = [] then none else some ((splitOnce ' ' inner).getD (inner, []))
  | _ => none

def isChannelName (s : Text) : Bool :=
  (s.head? = some '#' || s.head? = some '&') && decide (2 ≤ octets s ∧ octets s ≤ 50) &&
    s.all fun c => c ≠ ' ' && c ≠ ',' && !isControl c

/-! ### Callsigns -/

/-- Decimal digits, as `u8::from_str` reads them; a sign may precede them. -/
def parseU8 (t : Text) : Option ℕ :=
  let digits := if t.head? = some '+' then t.tail else t
  if digits = [] ∨ ¬ digits.all isAsciiDigit then none
  else
    let n := digits.foldl (fun n c => n * 10 + (c.toNat - 48)) 0
    if n ≤ 255 then some n else none

def Callsign.new (base : Text) (ssid : ℕ) : Option Callsign :=
  let base := (trim base).map toAsciiUpper
  if base = [] ∨ 6 < octets base ∨ ¬ base.all isAsciiAlphanumeric ∨ 15 < ssid then none
  else some ⟨String.ofList base, ssid⟩

def Callsign.fromNick (nick : Text) : Option Callsign :=
  match splitOnce '|' nick with
  | some (b, s) => (parseU8 s).bind (Callsign.new b)
  | none => Callsign.new nick 0

def Callsign.fromStr (s : Text) : Option Callsign :=
  match splitOnce '-' s with
  | some (b, ssid) => (parseU8 ssid).bind (Callsign.new b)
  | none => Callsign.new s 0

def Callsign.toNick (c : Callsign) : Text :=
  if c.ssid = 0 then c.base.toList else c.base.toList ++ '|' :: (toString c.ssid).toList

def Callsign.sameStation (c d : Callsign) : Bool := c.base = d.base

/-- A real callsign has a digit and a letter; service addresses have none. -/
def Callsign.looksLikeAmateurCall (c : Callsign) : Bool :=
  let base := c.base.toList
  decide (3 ≤ octets base) && base.any isAsciiDigit &&
    base.any fun c => isAsciiUpper c || isAsciiLower c

/-! ### What a radio sends -/

/-- How many octets at the front belong to one character, or to one damaged piece of text. -/
def utf8Prefix : List UInt8 → ℕ × Bool
  | [] => (0, false)
  | b :: rest =>
    let second := fun lo hi : UInt8 => (rest.head?).any fun c => lo ≤ c && c ≤ hi
    let follows := fun i : ℕ => (rest[i]?).any fun c => 0x80 ≤ c && c ≤ 0xBF
    let lo2 : UInt8 := if b = 0xE0 then 0xA0 else if b = 0xF0 then 0x90 else 0x80
    let hi2 : UInt8 := if b = 0xED then 0x9F else if b = 0xF4 then 0x8F else 0xBF
    if b < 0x80 then (1, true)
    else if 0xC2 ≤ b ∧ b ≤ 0xDF then if second 0x80 0xBF then (2, true) else (1, false)
    else if 0xE0 ≤ b ∧ b ≤ 0xEF then
      if !second lo2 hi2 then (1, false) else if follows 1 then (3, true) else (2, false)
    else if 0xF0 ≤ b ∧ b ≤ 0xF4 then
      if !second lo2 hi2 then (1, false)
      else if !follows 1 then (2, false)
      else if follows 2 then (4, true) else (3, false)
    else (1, false)

/-- The character that a well-formed sequence of octets stands for. -/
def utf8Char (bs : List UInt8) : Char :=
  match bs with
  | [a] => Char.ofNat a.toNat
  | [a, b] => Char.ofNat ((a.toNat % 32) * 64 + b.toNat % 64)
  | [a, b, c] => Char.ofNat ((a.toNat % 16) * 4096 + (b.toNat % 64) * 64 + c.toNat % 64)
  | [a, b, c, d] =>
    Char.ofNat ((a.toNat % 8) * 262144 + (b.toNat % 64) * 4096 + (c.toNat % 64) * 64 + d.toNat % 64)
  | _ => '\uFFFD'

/-- `String::from_utf8_lossy`: every damaged piece becomes one replacement character. -/
def fromUtf8LossyWith : ℕ → List UInt8 → Text
  | 0, _ => []
  | fuel + 1, bs =>
    if bs = [] then []
    else
      let (n, valid) := utf8Prefix bs
      (if valid then utf8Char (bs.take n) else '\uFFFD') :: fromUtf8LossyWith fuel (bs.drop n)

def fromUtf8Lossy (bs : List UInt8) : Text := fromUtf8LossyWith bs.length bs

example : fromUtf8Lossy [0x73, 0xC3, 0xA5, 0xE2, 0x82, 0x73] = ['s', '\u00e5', '\uFFFD', 's'] := by
  decide +kernel

/-! ### APRS lines -/

/-- `#channel body`, or a body for the default channel. -/
def splitChannelLine (text defaultChannel : Text) : Option (Text × Text) :=
  let text := trim text
  let otherwise := if isChannelName defaultChannel then some (defaultChannel, text) else none
  if text = [] then none
  else match splitOnce ' ' text with
    | some (first, rest) =>
      if isChannelName first then
        if trim rest = [] then none else some (first, trim rest)
      else otherwise
    | none => if isChannelName text then none else otherwise

/-- The radio asks how to talk to the gateway. -/
def isHelp (text : Text) : Bool :=
  let t := trim text
  t = [] || t = ['?'] || eqIgnoreAsciiCase t ['h', 'e', 'l', 'p'] || eqIgnoreAsciiCase t ['h']

end MessageText
