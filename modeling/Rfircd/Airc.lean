import Rfircd.Basics
import Mathlib.Data.List.Basic
import Mathlib.Data.UInt

/-! AIRC frames: the application protocol inside a UI frame.
Text fields are octets; a reader decodes them one by one afterwards. -/
namespace Airc

inductive AircError where
  | truncated
  | notAirc
  | badFragment
  | unknownKind (v : UInt8)
  deriving DecidableEq, Repr

def headerLen : ℕ := 8
/-- Separates the fields of a payload. -/
def fs : UInt8 := 0x1F

inductive Kind where
  | hello | welcome | join | part | msg | notice | names | namesReply
  | ping | pong | ack | error | id | quit | presence | stored
  deriving DecidableEq, Repr

namespace Kind

def code : Kind → UInt8
  | hello => 0x01
  | welcome => 0x02
  | join => 0x03
  | part => 0x04
  | msg => 0x05
  | notice => 0x06
  | names => 0x07
  | namesReply => 0x08
  | ping => 0x09
  | pong => 0x0A
  | ack => 0x0B
  | error => 0x0C
  | id => 0x0D
  | quit => 0x0E
  | presence => 0x0F
  | stored => 0x10

def all : List Kind :=
  [hello, welcome, join, part, msg, notice, names, namesReply, ping, pong, ack, error, id, quit,
    presence, stored]

def tryFrom (v : UInt8) : Except AircError Kind :=
  match all.find? (·.code = v) with
  | some kind => .ok kind
  | none => .error (.unknownKind v)

end Kind

namespace Flags

def ackReq : UInt8 := 0x01
def retry : UInt8 := 0x02
def truncated : UInt8 := 0x04
def piggyack : UInt8 := 0x08

end Flags

structure AircFrame where
  kind : Kind
  flags : UInt8
  seq : UInt16
  fragIndex : UInt8
  fragTotal : UInt8
  payload : List UInt8
  piggybackSeq : Option UInt16
  deriving DecidableEq, Repr

/-- `u16::to_be_bytes`. -/
def toBeBytes (s : UInt16) : List UInt8 := [.ofNat (s.toNat / 256), .ofNat (s.toNat % 256)]

/-- `u16::from_be_bytes`. -/
def fromBeBytes (hi lo : UInt8) : UInt16 := .ofNat (hi.toNat * 256 + lo.toNat)

theorem fromBeBytes_toBeBytes (s : UInt16) :
    fromBeBytes (.ofNat (s.toNat / 256)) (.ofNat (s.toNat % 256)) = s := by
  apply UInt16.toNat_inj.mp
  have := s.toNat_lt
  simp only [fromBeBytes, UInt8.toNat_ofNat', UInt16.toNat_ofNat']
  omega

namespace AircFrame

def new (kind : Kind) (seq : UInt16) (payload : List UInt8) : AircFrame :=
  ⟨kind, 0, seq, 0, 1, payload, none⟩

def withFlags (f : AircFrame) (flags : UInt8) : AircFrame := { f with flags := f.flags ||| flags }

def attachPiggyback (f : AircFrame) (seq : UInt16) : AircFrame :=
  { f with piggybackSeq := some seq, flags := f.flags ||| Flags.piggyack }

def has (f : AircFrame) (flag : UInt8) : Bool := f.flags &&& flag != 0

def wantsAck (f : AircFrame) : Bool := f.has Flags.ackReq

def encode (f : AircFrame) : List UInt8 :=
  let flags := f.flags &&& ~~~Flags.piggyack
  let flags := if f.piggybackSeq.isSome then flags ||| Flags.piggyack else flags
  [0x41, 0x31, f.kind.code, flags] ++ toBeBytes f.seq ++ [f.fragIndex, f.fragTotal] ++
    (f.piggybackSeq.map toBeBytes).getD [] ++ f.payload

/-- The checks come in the order of the source. -/
def decode (buf : List UInt8) : Except AircError AircFrame :=
  match buf with
  | a :: one :: kind :: flags :: hi :: lo :: index :: total :: payload =>
    if a ≠ 0x41 ∨ one ≠ 0x31 then .error .notAirc
    else if total = 0 ∨ total ≤ index then .error .badFragment
    else if flags &&& Flags.piggyack ≠ 0 then
      match payload with
      | phi :: plo :: rest => do
        let kind ← Kind.tryFrom kind
        return ⟨kind, flags, fromBeBytes hi lo, index, total, rest, some (fromBeBytes phi plo)⟩
      | _ => .error .truncated
    else do
      let kind ← Kind.tryFrom kind
      return ⟨kind, flags, fromBeBytes hi lo, index, total, payload, none⟩
  | _ => .error .truncated

def fields (f : AircFrame) : List (List UInt8) := f.payload.splitOn fs

def field (f : AircFrame) (i : ℕ) : Option (List UInt8) := f.fields[i]?

end AircFrame

/-- Characters a field cannot carry are left out. -/
def encodeFields (fields : List (List UInt8)) : List UInt8 :=
  [fs].intercalate (fields.map fun f => f.filter fun b => b ≠ fs ∧ b ≠ 13 ∧ b ≠ 10 ∧ b ≠ 0)

/-! ### Round trip -/

theorem Kind.tryFrom_code (k : Kind) : Kind.tryFrom k.code = .ok k := by
  cases k <;> rfl

theorem piggyack_set : ∀ b : BitVec 8, (b &&& ~~~8 ||| 8) &&& 8 ≠ 0 ∧ (b &&& ~~~8) &&& 8 = 0 := by
  decide +kernel

/-- The flags that go out say whether an acknowledgement is carried. -/
def AircFrame.wireFlags (f : AircFrame) : UInt8 :=
  if f.piggybackSeq.isSome then f.flags &&& ~~~Flags.piggyack ||| Flags.piggyack
  else f.flags &&& ~~~Flags.piggyack

theorem wireFlags_some {f : AircFrame} {seq : UInt16} (h : f.piggybackSeq = some seq) :
    f.wireFlags &&& Flags.piggyack ≠ 0 := by
  intro hz
  rw [AircFrame.wireFlags, h] at hz
  exact (piggyack_set f.flags.toBitVec).1 (congrArg UInt8.toBitVec hz)

theorem wireFlags_none {f : AircFrame} (h : f.piggybackSeq = none) :
    f.wireFlags &&& Flags.piggyack = 0 := by
  rw [AircFrame.wireFlags, h]
  exact UInt8.toBitVec_inj.mp (piggyack_set f.flags.toBitVec).2

/-- A frame with a valid index is read back as it was sent. -/
theorem decode_encode {f : AircFrame} (h : f.fragIndex < f.fragTotal) :
    AircFrame.decode f.encode = .ok { f with flags := f.wireFlags } := by
  have htotal : f.fragTotal ≠ 0 := by
    intro h0
    rw [h0] at h
    exact absurd h (by simp [UInt8.lt_iff_toNat_lt])
  have hindex : ¬ f.fragTotal ≤ f.fragIndex := UInt8.not_le.mpr h
  have hseq := fromBeBytes_toBeBytes f.seq
  rcases f with ⟨kind, flags, seq, index, total, payload, - | acked⟩
  · have hflags := @wireFlags_none ⟨kind, flags, seq, index, total, payload, none⟩ rfl
    simp only [AircFrame.wireFlags] at hflags
    simp only [AircFrame.encode, toBeBytes, AircFrame.decode]
    simp_all [AircFrame.wireFlags, Kind.tryFrom_code]
  · have hflags := @wireFlags_some ⟨kind, flags, seq, index, total, payload, some acked⟩ acked rfl
    have hacked := fromBeBytes_toBeBytes acked
    simp only [AircFrame.wireFlags] at hflags
    simp only [AircFrame.encode, toBeBytes, AircFrame.decode]
    simp_all [AircFrame.wireFlags, Kind.tryFrom_code, toBeBytes]

end Airc
