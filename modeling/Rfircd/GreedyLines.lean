import Mathlib.Algebra.GroupWithZero.Nat
import Mathlib.Data.List.Basic
import Mathlib.Data.List.Chain
import Mathlib.Order.Basic

/-! Items are put into lines, each of which takes as many as fit. There is one way to do so. -/
namespace GreedyLines

variable {α : Type*} {size : α → ℕ} {budget : ℕ}

def load (size : α → ℕ) (line : List α) : ℕ := (line.map size).sum

/-- A line is over the budget only if its one item is, and ends where the next item does not fit. -/
structure Filled (size : α → ℕ) (budget : ℕ) (items : List α) (lines : List (List α)) : Prop where
  whole : lines.flatten = items
  nonempty : ∀ line ∈ lines, line ≠ []
  within : ∀ line ∈ lines, line.length ≤ 1 ∨ load size line ≤ budget
  full : lines.IsChain fun line next => ∀ x ∈ next.head?, budget < load size (line ++ [x])

variable {items line line' rest rest' : List α} {lines lines' : List (List α)}

theorem load_append (line line' : List α) :
    load size (line ++ line') = load size line + load size line' := by
  rw [load, List.map_append, List.sum_append, load, load]

theorem load_le_of_prefix (h : line <+: line') : load size line ≤ load size line' := by
  obtain ⟨rest, rfl⟩ := h
  rw [load_append]
  exact Nat.le_add_right _ _

theorem Filled.tail (h : Filled size budget items (line :: lines)) :
    Filled size budget lines.flatten lines where
  whole := rfl
  nonempty := fun l hl => h.nonempty l (List.mem_cons_of_mem line hl)
  within := fun l hl => h.within l (List.mem_cons_of_mem line hl)
  full := h.full.of_cons

/-- The item behind a line would have been too much for it. -/
theorem Filled.overflow (h : Filled size budget items (line :: lines)) {x : α}
    (hx : lines.flatten.head? = some x) : budget < load size (line ++ [x]) := by
  cases lines with
  | nil => cases hx
  | cons next lines =>
    have hnext := h.nonempty next (List.mem_cons_of_mem line List.mem_cons_self)
    obtain ⟨y, next, rfl⟩ := List.exists_cons_of_ne_nil hnext
    obtain rfl := Option.some.inj hx
    exact (List.isChain_cons_cons.mp h.full).1 y rfl

/-- A line that is longer than the filled one is over the budget. -/
theorem Filled.not_longer (h : Filled size budget items (line :: lines))
    (hwithin : line'.length ≤ 1 ∨ load size line' ≤ budget) (hsplit : line ++ lines.flatten = line' ++ rest) :
    line'.length ≤ line.length := by
  by_contra hlong
  rw [not_le] at hlong
  obtain ⟨more, rfl⟩ : line <+: line' :=
    List.prefix_of_prefix_length_le (List.prefix_append line _) (hsplit ▸ List.prefix_append line' rest)
      hlong.le
  rw [List.append_assoc, List.append_cancel_left_eq] at hsplit
  cases more with
  | nil =>
    rw [List.append_nil] at hlong
    exact lt_irrefl _ hlong
  | cons x more =>
    have hover := h.overflow (x := x) (by rw [hsplit]; rfl)
    have hfirst : (line ++ [x]) <+: line ++ x :: more := ⟨more, by simp⟩
    have hne := List.length_pos_iff.mpr (h.nonempty line List.mem_cons_self)
    have hfits : load size (line ++ x :: more) ≤ budget := by
      refine hwithin.resolve_left ?_
      rw [List.length_append, List.length_cons]
      omega
    have hload : load size (line ++ [x]) ≤ load size (line ++ x :: more) := load_le_of_prefix hfirst
    omega

theorem Filled.unique (h : Filled size budget items lines) (h' : Filled size budget items lines') :
    lines = lines' := by
  induction lines generalizing items lines' with
  | nil =>
    have hnil : lines'.flatten = [] := h'.whole.trans h.whole.symm
    cases lines' with
    | nil => rfl
    | cons line' lines' =>
      have hempty := List.flatten_eq_nil_iff.mp hnil line' List.mem_cons_self
      exact absurd hempty (h'.nonempty line' List.mem_cons_self)
  | cons line lines ih =>
    cases lines' with
    | nil =>
      have hnil : (line :: lines).flatten = [] := h.whole.trans h'.whole.symm
      have hempty := List.flatten_eq_nil_iff.mp hnil line List.mem_cons_self
      exact absurd hempty (h.nonempty line List.mem_cons_self)
    | cons line' lines' =>
      have hsplit : line ++ lines.flatten = line' ++ lines'.flatten := h.whole.trans h'.whole.symm
      have hle := h.not_longer (h'.within line' List.mem_cons_self) hsplit
      have hge := h'.not_longer (h.within line List.mem_cons_self) hsplit.symm
      obtain ⟨rfl, hrest⟩ := List.append_inj hsplit (le_antisymm hge hle)
      have htail := h'.tail
      rw [← hrest] at htail
      rw [ih h.tail htail]

end GreedyLines
