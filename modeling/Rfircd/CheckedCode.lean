import Mathlib.Data.UInt
import Mathlib.Order.Basic

/-! Code that may stop: an access outside of its data, a cut inside a character, a number that does not
fit. What it returns is stated as a postcondition, which holds only of code that does not stop. -/
namespace CheckedCode

inductive Panic where
  | index
  | slice
  | boundary
  | overflow
  deriving DecidableEq, Repr

abbrev Checked := Except Panic

variable {α β : Type} {c : Checked α} {x : α} {P Q : α → Prop} {R : β → Prop}

/-- The code ends, with a value of which this holds. -/
def Returns (c : Checked α) (P : α → Prop) : Prop := ∃ x, c = .ok x ∧ P x

theorem Returns.mono (h : Returns c P) (hle : ∀ x, P x → Q x) : Returns c Q := by
  obtain ⟨x, hx, hp⟩ := h
  exact ⟨x, hx, hle x hp⟩

theorem Returns.pure (h : P x) : Returns (Pure.pure x) P := ⟨x, rfl, h⟩

theorem Returns.bind {f : α → Checked β} (h : Returns c P) (hf : ∀ x, P x → Returns (f x) R) :
    Returns (c >>= f) R := by
  obtain ⟨x, rfl, hp⟩ := h
  exact hf x hp

theorem Returns.ite {d : Checked α} {p : Prop} [Decidable p] (hpos : p → Returns c P)
    (hneg : ¬ p → Returns d P) : Returns (if p then c else d) P := by
  split_ifs with hp
  · exact hpos hp
  · exact hneg hp

theorem Returns.of_eq (h : c = .ok x) (hp : P x) : Returns c P := ⟨x, h, hp⟩

/-- After what returns a known value the code goes on with it. -/
theorem bind_eq {f : α → Checked β} (h : c = .ok x) : (c >>= f) = f x := by
  rw [h]
  rfl

/-! ### Lists -/

section Lists

variable {γ : Type} {l : List γ} {i start stop : ℕ}

def index (l : List γ) (i : ℕ) : Checked γ :=
  match l[i]? with
  | some x => .ok x
  | none => .error .index

def slice (l : List γ) (start stop : ℕ) : Checked (List γ) :=
  if start ≤ stop ∧ stop ≤ l.length then .ok ((l.take stop).drop start) else .error .slice

def sliceFrom (l : List γ) (start : ℕ) : Checked (List γ) := slice l start l.length

def sliceTo (l : List γ) (stop : ℕ) : Checked (List γ) := slice l 0 stop

/-- An assignment to a place of an array. -/
def store (l : List γ) (i : ℕ) (x : γ) : Checked (List γ) :=
  if i < l.length then .ok (l.set i x) else .error .index

theorem index_eq {x : γ} (h : l[i]? = some x) : index l i = .ok x := by
  rw [index, h]

theorem index_returns (h : i < l.length) : Returns (index l i) fun x => l[i]? = some x := by
  have hget := List.getElem?_eq_getElem h
  exact ⟨_, index_eq hget, hget⟩

theorem slice_eq (h : start ≤ stop) (hstop : stop ≤ l.length) :
    slice l start stop = .ok ((l.take stop).drop start) := if_pos ⟨h, hstop⟩

theorem sliceFrom_eq (h : start ≤ l.length) : sliceFrom l start = .ok (l.drop start) := by
  rw [sliceFrom, slice_eq h le_rfl, List.take_length]

theorem sliceTo_eq (h : stop ≤ l.length) : sliceTo l stop = .ok (l.take stop) := by
  rw [sliceTo, slice_eq (Nat.zero_le stop) h, List.drop_zero]

theorem store_eq {x : γ} (h : i < l.length) : store l i x = .ok (l.set i x) := if_pos h

end Lists

/-! ### Texts, whose characters have sizes -/

section Texts

variable {γ : Type} {size : γ → ℕ} {s t : List γ} {n : ℕ}

/-- The parts before and behind a place, if no character lies across it. -/
def splitAtSize (size : γ → ℕ) : ℕ → List γ → Option (List γ × List γ)
  | 0, s => some ([], s)
  | _ + 1, [] => none
  | n + 1, x :: s =>
    if size x ≤ n + 1 then (splitAtSize size (n + 1 - size x) s).map fun p => (x :: p.1, p.2) else none

def textFrom (size : γ → ℕ) (s : List γ) (start : ℕ) : Checked (List γ) :=
  match splitAtSize size start s with
  | some (_, behind) => .ok behind
  | none => .error .boundary

def textTo (size : γ → ℕ) (s : List γ) (stop : ℕ) : Checked (List γ) :=
  match splitAtSize size stop s with
  | some (front, _) => .ok front
  | none => .error .boundary

theorem splitAtSize_append (hsize : ∀ x ∈ s, 0 < size x) (t : List γ) :
    splitAtSize size (s.map size).sum (s ++ t) = some (s, t) := by
  induction s with
  | nil => cases t <;> rfl
  | cons x s ih =>
    obtain ⟨hx, hrest⟩ := List.forall_mem_cons.mp hsize
    obtain ⟨n, hn⟩ : ∃ n, ((x :: s).map size).sum = n + 1 :=
      ⟨((x :: s).map size).sum - 1, by rw [List.map_cons, List.sum_cons]; omega⟩
    rw [List.map_cons, List.sum_cons] at hn
    have hrest' : n + 1 - size x = (s.map size).sum := by omega
    rw [List.map_cons, List.sum_cons, hn, List.cons_append, splitAtSize, if_pos (by omega), hrest', ih hrest]
    rfl

theorem textFrom_append (hsize : ∀ x ∈ s, 0 < size x) (t : List γ) (hn : n = (s.map size).sum) :
    textFrom size (s ++ t) n = .ok t := by
  rw [textFrom, hn, splitAtSize_append hsize]

theorem textTo_append (hsize : ∀ x ∈ s, 0 < size x) (t : List γ) (hn : n = (s.map size).sum) :
    textTo size (s ++ t) n = .ok s := by
  rw [textTo, hn, splitAtSize_append hsize]

end Texts

/-! ### Machine numbers -/

def usizeLimit : ℕ := 2 ^ 64

def addUsize (m n : ℕ) : Checked ℕ := if m + n < usizeLimit then .ok (m + n) else .error .overflow

def subUsize (m n : ℕ) : Checked ℕ := if n ≤ m then .ok (m - n) else .error .overflow

def subU8 (m n : UInt8) : Checked UInt8 := if n ≤ m then .ok (m - n) else .error .overflow

/-- A number that has to fit into sixteen bits with a sign. -/
def i16 (n : ℤ) : Checked ℤ := if -2 ^ 15 ≤ n ∧ n < 2 ^ 15 then .ok n else .error .overflow

/-- Arithmetic that gives nothing where it would overflow. -/
def checkedU32 (n : ℕ) : Option ℕ := if n < 2 ^ 32 then some n else none

theorem addUsize_eq {m n : ℕ} (h : m + n < usizeLimit) : addUsize m n = .ok (m + n) := if_pos h

theorem subUsize_eq {m n : ℕ} (h : n ≤ m) : subUsize m n = .ok (m - n) := if_pos h

theorem subU8_eq {m n : UInt8} (h : n ≤ m) : subU8 m n = .ok (m - n) := if_pos h

theorem i16_eq {n : ℤ} (h : -2 ^ 15 ≤ n) (h' : n < 2 ^ 15) : i16 n = .ok n := if_pos ⟨h, h'⟩

end CheckedCode
