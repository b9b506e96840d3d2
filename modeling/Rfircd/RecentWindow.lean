import Mathlib.Data.Finset.Card
import Mathlib.Data.List.Nodup

/-! The last few of a sequence of keys, and for how long one of them is remembered. -/
namespace RecentWindow

variable {α : Type*}

/-- Oldest first; at most `w` keys are kept. -/
def push (w : ℕ) (window : List α) (a : α) : List α :=
  (window ++ [a]).drop (window.length + 1 - w)

/-- At least `w` keys other than `a` are among the entries. An entry `none` is a clearing. -/
def Outrun (w : ℕ) (a : α) (entries : List (Option α)) : Prop :=
  ∃ others : Finset α, w ≤ others.card ∧ a ∉ others ∧ ∀ b ∈ others, some b ∈ entries

/-- The window against everything that was pushed, newest first. -/
structure Remembers (w : ℕ) (window : List α) (history : List (Option α)) : Prop where
  nodup : window.Nodup
  short : window.length ≤ w
  kept : ∀ later a earlier, history = later ++ some a :: earlier → none ∉ later →
    Outrun w a later ∨ ∃ older newer, window = older ++ a :: newer ∧ ∀ b ∈ newer, some b ∈ later
  once : ∀ later a between earlier, history = later ++ some a :: (between ++ some a :: earlier) →
    none ∈ between ∨ Outrun w a between

theorem Outrun.mono {w : ℕ} {a : α} {entries entries' : List (Option α)}
    (h : Outrun w a entries) (hs : ∀ e ∈ entries, e ∈ entries') : Outrun w a entries' := by
  obtain ⟨others, hcard, ha, hmem⟩ := h
  exact ⟨others, hcard, ha, fun b hb => hs _ (hmem b hb)⟩

theorem remembers_nil (w : ℕ) : Remembers w ([] : List α) [] where
  nodup := List.nodup_nil
  short := Nat.zero_le w
  kept later a earlier h := by simp at h
  once later a between earlier h := by simp at h

theorem Remembers.clear {w : ℕ} {window : List α} {history : List (Option α)}
    (h : Remembers w window history) : Remembers w [] (none :: history) where
  nodup := List.nodup_nil
  short := Nat.zero_le w
  kept later a earlier he hn := by
    cases later with
    | nil => simp at he
    | cons e later =>
      rw [List.cons_append, List.cons.injEq] at he
      exact absurd (List.mem_cons.mpr (.inl he.1)) hn
  once later a between earlier he := by
    cases later with
    | nil => simp at he
    | cons e later =>
      rw [List.cons_append, List.cons.injEq] at he
      exact h.once later a between earlier he.2

theorem push_nodup {w : ℕ} {window : List α} {a : α} (hn : window.Nodup) (ha : a ∉ window) :
    (push w window a).Nodup := by
  have hnd : (window ++ [a]).Nodup := by
    refine List.nodup_append.mpr ⟨hn, List.nodup_singleton a, ?_⟩
    rintro c hc d hd rfl
    exact ha (List.mem_singleton.mp hd ▸ hc)
  exact hnd.sublist (List.drop_sublist _ _)

theorem length_push_le {w : ℕ} {window : List α} (h : window.length ≤ w) (a : α) :
    (push w window a).length ≤ w := by
  simp only [push, List.length_drop, List.length_append, List.length_singleton]
  omega

variable [DecidableEq α]

/-- A remembered key stays, or the keys pushed after it fill the window. -/
theorem kept_of_push {w : ℕ} {window older newer : List α} {a b : α} (hn : window.Nodup)
    (hs : window.length ≤ w) (hb : b ∉ window) (hw : window = older ++ a :: newer) :
    w ≤ (newer ++ [b]).toFinset.card ∧ a ∉ newer ++ [b] ∨
      ∃ older', push w window b = older' ++ a :: (newer ++ [b]) := by
  subst hw
  have hne : a ≠ b := by
    rintro rfl
    exact hb (by simp)
  have ha : a ∉ newer := by
    have := (List.nodup_append.mp hn).2.1
    exact (List.nodup_cons.mp this).1
  simp only [push, List.length_append, List.length_cons] at hs ⊢
  by_cases hroom : older.length + (newer.length + 1) < w
  · refine .inr ⟨older, ?_⟩
    rw [Nat.sub_eq_zero_of_le (by omega), List.drop_zero, List.append_assoc, List.cons_append]
  · have hfull : older.length + (newer.length + 1) + 1 - w = 1 := by omega
    rw [hfull]
    cases older with
    | nil =>
      left
      have hnd : (newer ++ [b]).Nodup := by
        rw [List.nil_append] at hn
        refine List.nodup_append.mpr ⟨(List.nodup_cons.mp hn).2, List.nodup_singleton b, ?_⟩
        rintro c hc d hd rfl
        rw [List.mem_singleton] at hd
        exact hb (by simp [← hd, hc])
      rw [List.toFinset_card_of_nodup hnd, List.length_append, List.length_singleton]
      simp only [List.length_nil] at hroom
      exact ⟨by omega, by simp [ha, hne]⟩
    | cons o older =>
      exact .inr ⟨older, by simp⟩

theorem Remembers.push {w : ℕ} {window : List α} {history : List (Option α)}
    (h : Remembers w window history) {b : α} (hb : b ∉ window) :
    Remembers w (push w window b) (some b :: history) where
  nodup := push_nodup h.nodup hb
  short := length_push_le h.short b
  kept later a earlier he hn := by
    cases later with
    | nil =>
      simp only [List.nil_append, List.cons.injEq, Option.some.injEq] at he
      rcases Nat.eq_zero_or_pos w with rfl | hw
      · exact .inl ⟨∅, by simp⟩
      · refine .inr ⟨window.drop (window.length + 1 - w), [], ?_, by simp⟩
        rw [RecentWindow.push, List.drop_append_of_le_length (by omega), he.1]
    | cons e later =>
      simp only [List.cons_append, List.cons.injEq] at he
      have hl : none ∉ later := fun hm => hn (List.mem_cons_of_mem e hm)
      rcases h.kept later a earlier he.2 hl with ho | ⟨older, newer, hw, hnew⟩
      · exact .inl (ho.mono fun x hx => List.mem_cons_of_mem e hx)
      · have hmem : ∀ c ∈ newer ++ [b], some c ∈ e :: later := by
          intro c hc
          rcases List.mem_append.mp hc with hc | hc
          · exact List.mem_cons_of_mem e (hnew c hc)
          · rw [List.mem_singleton.mp hc, ← he.1]
            exact List.mem_cons_self
        rcases kept_of_push h.nodup h.short hb hw with ⟨hcard, ha⟩ | ⟨older', hp⟩
        · refine .inl ⟨(newer ++ [b]).toFinset, hcard, by rwa [List.mem_toFinset], ?_⟩
          intro c hc
          exact hmem c (List.mem_toFinset.mp hc)
        · exact .inr ⟨older', newer ++ [b], hp, hmem⟩
  once later a between earlier he := by
    cases later with
    | nil =>
      simp only [List.nil_append, List.cons.injEq, Option.some.injEq] at he
      obtain ⟨rfl, he⟩ := he
      by_cases hn : none ∈ between
      · exact .inl hn
      · rcases h.kept between b earlier he hn with ho | ⟨older, newer, hw, -⟩
        · exact .inr ho
        · exact absurd (by simp [hw]) hb
    | cons e later =>
      rw [List.cons_append, List.cons.injEq] at he
      exact h.once later a between earlier he.2

end RecentWindow
