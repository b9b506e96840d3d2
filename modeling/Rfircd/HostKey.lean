import Mathlib.Data.List.MinMax
import Rfircd.MessageText

/-! Hosts as they are banned and counted: the text form of an address is made unique. -/
namespace HostKey

open Basics MessageText

inductive IpAddr where
  | v4 (octets : List ℕ)
  | v6 (groups : List ℕ)
  deriving DecidableEq

def splitOn (c : Char) : Text → List Text
  | [] => [[]]
  | d :: t =>
    match splitOn c t with
    | [] => [[]]
    | part :: parts => if d = c then [] :: part :: parts else (d :: part) :: parts

def hexValue (c : Char) : Option ℕ :=
  if isAsciiDigit c then some (c.toNat - 48)
  else if 'a' ≤ c ∧ c ≤ 'f' then some (c.toNat - 87)
  else if 'A' ≤ c ∧ c ≤ 'F' then some (c.toNat - 55)
  else none

/-- At least one digit and at most `most` of them. -/
def digits (base most : ℕ) (t : Text) : Option ℕ :=
  if t = [] ∨ most < t.length then none
  else t.foldl (fun n c => n.bind fun n => (hexValue c).bind fun d =>
    if d < base then some (n * base + d) else none) (some 0)

/-- One number of a dotted address, which has no leading zero. -/
def octet (t : Text) : Option ℕ :=
  if 1 < t.length ∧ t.head? = some '0' then none
  else (digits 10 3 t).bind fun n => if n ≤ 255 then some n else none

def parseV4 (t : Text) : Option (List ℕ) :=
  let parts := splitOn '.' t
  if parts.length = 4 then parts.mapM octet else none

/-- Groups between colons. The last may be a dotted address, which stands for two. -/
def parseGroups (t : Text) : Option (List ℕ) :=
  if t = [] then some []
  else
    let parts := splitOn ':' t
    match parts.dropLast.mapM (digits 16 4), parts.getLast? with
    | some front, some last =>
      match digits 16 4 last, parseV4 last with
      | some g, _ => some (front ++ [g])
      | none, some [a, b, c, d] => some (front ++ [a * 256 + b, c * 256 + d])
      | none, _ => none
    | _, _ => none

/-- Where two colons stand for groups of zeros. -/
def splitGap : Text → Option (Text × Text)
  | ':' :: ':' :: t => some ([], t)
  | [] => none
  | c :: t => (splitGap t).map fun p => (c :: p.1, p.2)

def parseV6 (t : Text) : Option (List ℕ) :=
  match splitGap t with
  | none => (parseGroups t).bind fun g => if g.length = 8 then some g else none
  | some (front, rear) =>
    match parseGroups front, parseGroups rear with
    | some f, some r =>
      -- a dotted address stands only at the very end
      if f.length + r.length < 8 ∧ '.' ∉ front then
        some (f ++ List.replicate (8 - f.length - r.length) 0 ++ r)
      else none
    | _, _ => none

def parseIp (t : Text) : Option IpAddr :=
  match parseV4 t with
  | some o => some (.v4 o)
  | none => (parseV6 t).map .v6

def joinWith (sep : Text) : List Text → Text
  | [] => []
  | [t] => t
  | t :: ts => t ++ sep ++ joinWith sep ts

def natText (n : ℕ) : Text := (toString n).toList

def showV4 (octets : List ℕ) : Text := joinWith ['.'] (octets.map natText)

def showGroup (n : ℕ) : Text := Nat.toDigits 16 n

/-- How many zeros stand at the front. -/
def zerosAt (groups : List ℕ) : ℕ := (groups.takeWhile (· = 0)).length

/-- The first of the longest runs of zeros, when it has two or more. -/
def longestRun (groups : List ℕ) : Option (ℕ × ℕ) :=
  let runs := (List.range groups.length).map fun i => (i, zerosAt (groups.drop i))
  (runs.argmax Prod.snd).filter fun r => 2 ≤ r.2

def showV6 (groups : List ℕ) : Text :=
  let colons := fun gs : List ℕ => joinWith [':'] (gs.map showGroup)
  match longestRun groups with
  | none => colons groups
  | some (i, n) => colons (groups.take i) ++ [':', ':'] ++ colons (groups.drop (i + n))

/-- `Ipv6Addr::to_ipv4_mapped`. -/
def mappedV4 : List ℕ → Option (List ℕ)
  | [0, 0, 0, 0, 0, 0xFFFF, a, b] => some [a / 256, a % 256, b / 256, b % 256]
  | _ => none

def trimBrackets (t : Text) : Text :=
  let bracket := fun c => c = '[' || c = ']'
  ((t.dropWhile bracket).reverse.dropWhile bracket).reverse

/-- How a host is stored when it is banned: lower case, without brackets, and an IPv4 address
within IPv6 as the IPv4 address. -/
def hostBanKey (host : Text) : Text :=
  let lowered := lower (trimBrackets (trim host))
  match parseIp lowered with
  | some (.v4 o) => showV4 o
  | some (.v6 g) => match mappedV4 g with
    | some o => showV4 o
    | none => showV6 g
  | none => lowered

example : hostBanKey "[::ffff:10.0.0.1]".toList = "10.0.0.1".toList ∧
    hostBanKey "2001:DB8:0:0:1::".toList = "2001:db8:0:0:1::".toList := by decide +kernel

end HostKey
