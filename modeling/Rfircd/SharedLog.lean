import Mathlib.Data.List.Basic
import Mathlib.Data.Nat.Basic
import Mathlib.Order.Basic

/-! A log that many write and each of them reads. A reader follows it over a span: from the entry
at which it joined to the one at which it left, and passes over its own entries. -/
namespace SharedLog

variable {ι μ : Type*}

/-- `left` is `none` for a reader that still follows. -/
structure Span where
  joined : ℕ
  left : Option ℕ
  deriving DecidableEq

namespace Span

/-- A reader that has not joined. -/
def never : Span := ⟨0, some 0⟩

def since (n : ℕ) : Span := ⟨n, none⟩

/-- Leaving for a second time changes nothing. -/
def close (w : Span) (n : ℕ) : Span := { w with left := some (w.left.getD n) }

/-- The span ends within a log of `n` entries. -/
def Within (w : Span) (n : ℕ) : Prop := w.joined ≤ n ∧ ∀ m ∈ w.left, m ≤ n

theorem within_never (n : ℕ) : never.Within n :=
  ⟨Nat.zero_le n, by simp [never]⟩

theorem within_since (n : ℕ) : (since n).Within n := ⟨le_rfl, by simp [since]⟩

theorem Within.mono {w : Span} {m n : ℕ} (h : w.Within m) (hmn : m ≤ n) : w.Within n :=
  ⟨h.1.trans hmn, fun k hk => (h.2 k hk).trans hmn⟩

theorem Within.close {w : Span} {n : ℕ} (h : w.Within n) : (w.close n).Within n := by
  refine ⟨h.1, fun m hm => ?_⟩
  obtain rfl : w.left.getD n = m := by simpa [Span.close] using hm
  cases hl : w.left with
  | none => exact le_rfl
  | some k => exact h.2 k (by rw [hl]; rfl)

end Span

/-- The entries of a span. -/
def window (w : Span) (log : List (ι × μ)) : List (ι × μ) :=
  (log.take (w.left.getD log.length)).drop w.joined

theorem window_never (log : List (ι × μ)) : window .never log = [] := rfl

theorem window_since (log : List (ι × μ)) : window (.since log.length) log = [] := by
  simp [window, Span.since]

/-- Who leaves now has followed all there is. -/
theorem window_close (w : Span) (log : List (ι × μ)) :
    window (w.close log.length) log = window w log := rfl

theorem window_follow {w : Span} {log : List (ι × μ)} (hw : w.Within log.length)
    (h : w.left = none) (e : ι × μ) : window w (log ++ [e]) = window w log ++ [e] := by
  simp only [window, h, Option.getD_none, List.take_length]
  exact List.drop_append_of_le_length hw.1

theorem window_left {w : Span} {log : List (ι × μ)} (hw : w.Within log.length)
    (h : w.left ≠ none) (e : ι × μ) : window w (log ++ [e]) = window w log := by
  obtain ⟨n, hn⟩ := Option.ne_none_iff_exists'.mp h
  have hle : n ≤ log.length := hw.2 n (by rw [hn]; rfl)
  simp only [window, hn, Option.getD_some]
  rw [List.take_append_of_le_length hle]

variable [DecidableEq ι]

/-- What one of them wrote. -/
def saidBy (who : ι) (log : List (ι × μ)) : List μ := (log.filter (·.1 = who)).map Prod.snd

/-- What one of them reads: the entries of its span that are not its own. -/
def heardBy (who : ι) (w : Span) (log : List (ι × μ)) : List μ :=
  ((window w log).filter (·.1 ≠ who)).map Prod.snd

theorem saidBy_self (who : ι) (log : List (ι × μ)) (m : μ) :
    saidBy who (log ++ [(who, m)]) = saidBy who log ++ [m] := by
  simp [saidBy]

theorem saidBy_other {who other : ι} (h : other ≠ who) (log : List (ι × μ)) (m : μ) :
    saidBy who (log ++ [(other, m)]) = saidBy who log := by
  simp [saidBy, h]

theorem heardBy_follow {who other : ι} {w : Span} {log : List (ι × μ)} (hw : w.Within log.length)
    (hl : w.left = none) (h : other ≠ who) (m : μ) :
    heardBy who w (log ++ [(other, m)]) = heardBy who w log ++ [m] := by
  simp [heardBy, window_follow hw hl, h]

theorem heardBy_self (who : ι) {w : Span} {log : List (ι × μ)} (hw : w.Within log.length)
    (m : μ) : heardBy who w (log ++ [(who, m)]) = heardBy who w log := by
  by_cases hl : w.left = none
  · simp [heardBy, window_follow hw hl]
  · rw [heardBy, window_left hw hl, heardBy]

theorem heardBy_left (who : ι) {w : Span} {log : List (ι × μ)} (hw : w.Within log.length)
    (hl : w.left ≠ none) (e : ι × μ) : heardBy who w (log ++ [e]) = heardBy who w log := by
  rw [heardBy, window_left hw hl, heardBy]

theorem heardBy_close (who : ι) (w : Span) (log : List (ι × μ)) :
    heardBy who (w.close log.length) log = heardBy who w log := rfl

theorem mem_heardBy {who : ι} {w : Span} {log : List (ι × μ)} {m : μ}
    (h : m ∈ heardBy who w log) : ∃ other, other ≠ who ∧ (other, m) ∈ log := by
  simp only [heardBy, List.mem_map, List.mem_filter, decide_eq_true_eq] at h
  obtain ⟨⟨other, m⟩, ⟨hmem, hne⟩, rfl⟩ := h
  exact ⟨other, hne, List.mem_of_mem_take (List.mem_of_mem_drop hmem)⟩

/-- What is read of a run of the log is what was written in it, one writer at a time. -/
theorem heardBy_saidBy {who other : ι} (h : other ≠ who) (w : Span) (log : List (ι × μ)) :
    (saidBy other (window w log)).Sublist (heardBy who w log) := by
  refine List.Sublist.map _ (List.monotone_filter_right _ ?_)
  intro e he
  have he' : e.1 = other := by simpa using he
  simpa [he'] using h

end SharedLog
