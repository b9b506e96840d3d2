import Mathlib.Data.List.Basic

/-! Bit stuffing of HDLC: a zero after every five consecutive ones, so that a flag never stands
inside a frame. -/
namespace HdlcStuffing

/-- The bits on the wire, after a number of ones. -/
def stuffFrom : ℕ → List Bool → List Bool
  | _, [] => []
  | _, false :: bits => false :: stuffFrom 0 bits
  | ones, true :: bits =>
    if ones = 4 then true :: false :: stuffFrom 0 bits else true :: stuffFrom (ones + 1) bits

def stuff (bits : List Bool) : List Bool := stuffFrom 0 bits

/-- How many zeros are put in. -/
def insertedFrom : ℕ → List Bool → ℕ
  | _, [] => 0
  | _, false :: bits => insertedFrom 0 bits
  | ones, true :: bits =>
    if ones = 4 then insertedFrom 0 bits + 1 else insertedFrom (ones + 1) bits

def inserted (bits : List Bool) : ℕ := insertedFrom 0 bits

theorem length_stuffFrom (ones : ℕ) (bits : List Bool) :
    (stuffFrom ones bits).length = bits.length + insertedFrom ones bits := by
  induction bits generalizing ones with
  | nil => rfl
  | cons bit bits ih =>
    cases bit with
    | false =>
      simp only [stuffFrom, insertedFrom, List.length_cons, ih]
      omega
    | true =>
      by_cases hfour : ones = 4
      · simp only [stuffFrom, insertedFrom, if_pos hfour, List.length_cons, ih]
        omega
      · simp only [stuffFrom, insertedFrom, if_neg hfour, List.length_cons, ih]
        omega

theorem length_stuff (bits : List Bool) : (stuff bits).length = bits.length + inserted bits :=
  length_stuffFrom 0 bits

/-- Each zero that is put in takes five ones. -/
theorem insertedFrom_le {ones : ℕ} (h : ones ≤ 4) (bits : List Bool) :
    5 * insertedFrom ones bits ≤ bits.length + ones := by
  induction bits generalizing ones with
  | nil => exact Nat.zero_le _
  | cons bit bits ih =>
    cases bit with
    | false =>
      have hrest := ih (Nat.zero_le 4)
      simp only [insertedFrom, List.length_cons]
      omega
    | true =>
      by_cases hfour : ones = 4
      · have hrest := ih (Nat.zero_le 4)
        simp only [insertedFrom, if_pos hfour, List.length_cons]
        omega
      · have hrest := ih (by omega : ones + 1 ≤ 4)
        simp only [insertedFrom, if_neg hfour, List.length_cons]
        omega

theorem inserted_le (bits : List Bool) : 5 * inserted bits ≤ bits.length :=
  insertedFrom_le (Nat.zero_le 4) bits

end HdlcStuffing
