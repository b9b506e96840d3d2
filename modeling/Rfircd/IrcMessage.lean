import Rfircd.HostKey

/-! IRC messages: reading a line, writing a line, and the rules for nicknames. -/
namespace IrcMessage

open Basics MessageText HostKey

/-- A literal text. -/
instance : Coe String Text := ⟨String.toList⟩

/-- The tags of a line are skipped: nothing reads them. -/
structure Message where
  origin : Option Text
  command : Text
  params : List Text
  deriving DecidableEq

namespace Message

def new (command : Text) (params : List Text) : Message := ⟨none, command.map toAsciiUpper, params⟩

def withPrefix (m : Message) (origin : Text) : Message := { m with origin := some origin }

def param (m : Message) (i : ℕ) : Option Text := m.params[i]?

def trimStart (t : Text) : Text := t.dropWhile isWhitespace

def trimSpaces (t : Text) : Text := t.dropWhile (· = ' ')

/-- Parameters are separated by spaces; a colon starts the last one. -/
def parseParams : ℕ → Text → List Text
  | 0, _ | _, [] => []
  | _, ':' :: trailing => [trailing]
  | fuel + 1, rest =>
    match splitOnce ' ' rest with
    | some (p, r) => (if p = [] then [] else [p]) ++ parseParams fuel (trimSpaces r)
    | none => [rest]

/-- Skips the tags, which must be followed by something. -/
def skipTags (rest : Text) : Option Text :=
  match rest with
  | '@' :: stripped => (splitOnce ' ' stripped).map fun p => trimStart p.2
  | _ => some rest

def takePrefix (rest : Text) : Option (Option Text × Text) :=
  match rest with
  | ':' :: stripped => (splitOnce ' ' stripped).map fun p => (some p.1, trimStart p.2)
  | _ => some (none, rest)

/-- `none` for an empty or malformed line, which is ignored. -/
def parse (line : Text) : Option Message :=
  let ended := (line.reverse.dropWhile fun c => c = '\r' || c = '\n').reverse
  (skipTags (trimStart ended)).bind fun rest =>
    (takePrefix rest).bind fun (origin, rest) =>
      let (command, rest) := (splitOnce ' ' rest).getD (rest, [])
      if command = [] then none
      else some ⟨origin, command.map toAsciiUpper, parseParams rest.length (trimSpaces rest)⟩

end Message

/-! ### Writing a line -/

def isBreak (c : Char) : Bool := c = '\r' || c = '\n' || c = '\x00'

/-- A middle parameter has neither line breaks nor spaces. -/
def scrubIrc (t : Text) : Text :=
  joinWith ['_'] (words (t.map fun c => if isBreak c then ' ' else c))

def middleParam (t : Text) : Text :=
  match scrubIrc t with
  | [] => ['*']
  | ':' :: rest => '_' :: ':' :: rest
  | cleaned => cleaned

def stripLineBreaks (t : Text) : Text := t.filter fun c => !isBreak c

def trailingParam (t : Text) : Text :=
  let p := stripLineBreaks t
  if p = [] ∨ p.head? = some ':' ∨ p.any isWhitespace then ':' :: p else p

def writeParams : List Text → Text
  | [] => []
  | [p] => ' ' :: trailingParam p
  | p :: ps => ' ' :: middleParam p ++ writeParams ps

def Message.toText (m : Message) : Text :=
  (match m.origin with
    | some origin => ':' :: scrubIrc origin ++ [' ']
    | none => []) ++ scrubIrc m.command ++ writeParams m.params

/-! ### Nicknames -/

def isSpecial (c : Char) : Bool := c ∈ ("[]\\`_^\x7b|\x7d" : Text)

def isAsciiAlphabetic (c : Char) : Bool := isAsciiUpper c || isAsciiLower c

def isValidNick (t : Text) (maxLen : ℕ) : Bool :=
  decide (t ≠ [] ∧ octets t ≤ maxLen) &&
    (t.head?.any fun c => isAsciiAlphabetic c || isSpecial c) &&
    t.all fun c => isAsciiAlphanumeric c || isSpecial c || c = '-'

/-- The station that a nick must be kept free for. -/
def reservedFromNick (nick : Text) : Option Callsign :=
  let mapped := lower nick
  ([Callsign.fromNick nick, Callsign.fromNick mapped, Callsign.fromStr nick,
    Callsign.fromStr mapped].filterMap id).find? Callsign.looksLikeAmateurCall

end IrcMessage
