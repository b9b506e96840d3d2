import Mathlib.Data.Nat.Notation

/-! Time and addresses shared by every layer of the gateway.
`Instant` and `Duration` are natural numbers of nanoseconds, so a saturating difference is
`Nat` subtraction. -/
namespace Basics

def micros (n : ℕ) : ℕ := n * 1000
def millis (n : ℕ) : ℕ := n * 1000000
def secs (n : ℕ) : ℕ := n * 1000000000

/-- A text, as its characters. -/
abbrev Text := List Char

/-- One name for the proof that a test for membership carries. -/
instance : LawfulBEq Text := inferInstance

def utf8 (t : Text) : List UInt8 := t.flatMap String.utf8EncodeChar

/-- A callsign with an SSID, the identity used on the RF side. -/
structure Callsign where
  base : String
  ssid : ℕ
  deriving DecidableEq, Repr

/-- A bounded statement is decided along its list, also where the type of the elements is
finite. -/
instance (priority := high) decidableAlong {α : Type*} (p : α → Prop) [DecidablePred p]
    (l : List α) : Decidable (∀ x ∈ l, p x) := List.decidableBAll p l

end Basics
