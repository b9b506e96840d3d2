import Rfircd.IrcMessage
import Rfircd.RadioGateway

/-! APRS messages: `:ADDRESSEE:text`, with a message number that the sender wants acknowledged. -/
namespace AprsCodec

open Basics MessageText IrcMessage RadioGateway

inductive AprsKind where
  | message
  | ack
  | reject
  deriving DecidableEq

structure AprsMessage where
  addressee : Text
  text : Text
  msgid : Option Text
  kind : AprsKind
  deriving DecidableEq

def msgidOk (id : Text) : Bool :=
  decide (1 ≤ octets id ∧ octets id ≤ 5) && id.all isAsciiAlphanumeric

def stripPrefix (pre t : Text) : Option Text :=
  if pre.isPrefixOf t then some (t.drop pre.length) else none

def classify (text : Text) : AprsKind :=
  let t := trim text
  if (stripPrefix "ack" t).any msgidOk then .ack
  else if (stripPrefix "rej" t).any msgidOk then .reject
  else .message

/-- The message number stands behind the last brace. -/
def splitMsgid (body : Text) : Text × Option Text :=
  match splitOnce '\x7b' body.reverse with
  | none => (body, none)
  | some (id, rest) =>
    let id := id.reverse
    let id := if id.getLast? = some '\x7d' then id.dropLast else id
    if msgidOk id then (rest.reverse, some id) else (body, none)

def trimTrailingCrlf (info : List UInt8) : List UInt8 :=
  (info.reverse.dropWhile fun b => b = 13 || b = 10 || b = 0).reverse

def isAlphanumericOctet (b : UInt8) : Bool :=
  (0x30 ≤ b && b ≤ 0x39) || (0x41 ≤ b && b ≤ 0x5A) || (0x61 ≤ b && b ≤ 0x7A)

def asciiText (bs : List UInt8) : Text := bs.map fun b => Char.ofNat b.toNat

/-- The addressee, padded to nine characters or not. -/
def splitAddressee (rest : List UInt8) : Option (List UInt8 × List UInt8) :=
  if rest[9]? = some 0x3A then some (rest.take 9, rest.drop 10)
  else
    let colon := rest.findIdx (· = 0x3A)
    if colon = 0 ∨ 9 < colon ∨ rest.length ≤ colon then none
    else some (rest.take colon, rest.drop (colon + 1))

def trimEnd (t : Text) : Text := (t.reverse.dropWhile isWhitespace).reverse

namespace AprsMessage

/-- `none` when the information field is not an APRS message. -/
def decode (info : List UInt8) : Option AprsMessage :=
  match trimTrailingCrlf info with
  | 0x3A :: rest =>
    (splitAddressee rest).bind fun (addr, body) =>
      if !addr.all fun b => isAlphanumericOctet b || b = 0x2D || b = 0x20 then none
      else
        let addressee := (trim (asciiText addr)).map toAsciiUpper
        if addressee = [] then none
        else
          let (text, msgid) := splitMsgid (trimEnd (fromUtf8Lossy body))
          some ⟨addressee, text, msgid, classify text⟩
  | _ => none

/-- The same station without an SSID is meant as well. -/
def addressedTo (m : AprsMessage) (gateway : Callsign) : Bool :=
  (Callsign.fromStr m.addressee).any fun dest =>
    dest = gateway || (dest.ssid = 0 && Callsign.sameStation dest gateway)

def isAckOrRej (m : AprsMessage) : Bool := m.kind ≠ .message

/-- The number in an `ack` or `rej`. -/
def controlMsgid (m : AprsMessage) : Option Text :=
  match m.kind with
  | .ack => (stripPrefix "ack" (trim m.text)).filter fun id => msgidOk id
  | .reject => (stripPrefix "rej" (trim m.text)).filter fun id => msgidOk id
  | .message => none

end AprsMessage

def infoTo (dst : Callsign) (text : Text) : List UInt8 :=
  utf8 (':' :: addressee dst ++ ':' :: text)

def ackInfo (dst : Callsign) (msgid : Text) : List UInt8 := infoTo dst ("ack" ++ msgid)

def rejInfo (dst : Callsign) (msgid : Text) : List UInt8 := infoTo dst ("rej" ++ msgid)

/-- A reply has no number: it is not to be acknowledged. -/
def replyInfo (dst : Callsign) (text : Text) : List UInt8 := infoTo dst (text.take 67)

/-! ### Beacons -/

/-- Reads positions: the ones in the information field, and Mic-E, whose latitude is in the
destination. The coordinates are worked out in floating point. -/
structure PositionReader where
  position : List UInt8 → Option Text
  mice : String → List UInt8 → Option Text

def printableComment (raw : List UInt8) : Text :=
  trim (asciiText (raw.filter fun b => 0x20 ≤ b && b ≤ 0x7E))

/-- A status may start with the time. -/
def statusText (body : List UInt8) : Text :=
  if 8 ≤ body.length ∧ (body[6]? = some 0x7A ∨ body[6]? = some 0x68 ∨ body[6]? = some 0x2F) then
    printableComment (body.drop 7)
  else printableComment body

def nonempty (t : Text) : Option Text := if t = [] then none else some t

namespace PositionReader

/-- `none` is anything else: messages, objects, AIRC. -/
def decode (r : PositionReader) (info : List UInt8) : Option Text :=
  match trimTrailingCrlf info with
  | [] => none
  | dtype :: body =>
    if dtype = 0x3E then nonempty (statusText body)
    else if dtype ∈ [0x21, 0x3D, 0x2F, 0x40, 0x5F] then
      -- a position with a time has it in front
      let rest := if dtype ∈ [0x2F, 0x40] ∧ 8 < body.length + 1 then body.drop 7 else body
      (r.position rest).or (nonempty (printableComment rest))
    else none

def decodeBeacon (r : PositionReader) (dest : Callsign) (info : List UInt8) : Option Text :=
  let info := trimTrailingCrlf info
  if info.head? = some 0x60 ∨ info.head? = some 0x27 then r.mice dest.base info else r.decode info

/-- Neither message nor beacon starts like an AIRC frame. -/
theorem trimTrailingCrlf_airc (rest : List UInt8) :
    ∃ rest', trimTrailingCrlf (0x41 :: rest) = 0x41 :: rest' := by
  unfold trimTrailingCrlf
  rw [List.reverse_cons, List.dropWhile_append]
  split_ifs with h
  · exact ⟨[], by simp⟩
  · exact ⟨_, by rw [List.reverse_append]; rfl⟩

theorem decodeBeacon_airc (r : PositionReader) (dest : Callsign) (rest : List UInt8) :
    r.decodeBeacon dest (0x41 :: rest) = none := by
  obtain ⟨first, hfirst⟩ := trimTrailingCrlf_airc rest
  obtain ⟨second, hsecond⟩ := trimTrailingCrlf_airc first
  rw [decodeBeacon, hfirst, if_neg (by simp), decode, hsecond]
  simp

end PositionReader

theorem AprsMessage.decode_airc (rest : List UInt8) : AprsMessage.decode (0x41 :: rest) = none := by
  obtain ⟨rest', h⟩ := PositionReader.trimTrailingCrlf_airc rest
  rw [AprsMessage.decode, h]
  rfl

example : (AprsMessage.decode (utf8 ":SK0MT-1  :hello\x7b07")).map AprsMessage.msgid =
    some (some ['0', '7']) := by decide +kernel

end AprsCodec
