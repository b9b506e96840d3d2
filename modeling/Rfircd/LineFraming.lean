import Mathlib.Data.List.DropRight

/-! Lines of a stream that are ended by a separator.
A line is handed on without the junk at its end, and not at all when nothing is left of it. -/
namespace LineFraming

section Trim

variable {α : Type*} {junk : α → Bool} {l r : List α}

theorem flatten_filter_ne_nil [DecidableEq α] (l : List α) :
    ([l].filter (· ≠ [])).flatten = l := by
  by_cases h : l = [] <;> simp [h]

/-- A line that is not blank is handed on shorter when its start is lost. -/
theorem rdropWhile_length_lt (hl : l ≠ []) (h : ¬∀ b ∈ l ++ r, junk b = true) :
    (r.rdropWhile junk).length < ((l ++ r).rdropWhile junk).length := by
  induction r using List.reverseRecOn with
  | nil =>
    have : (l ++ []).rdropWhile junk ≠ [] := mt List.rdropWhile_eq_nil_iff.mp h
    simpa [List.length_pos_iff] using this
  | append_singleton r x ih =>
    rw [← List.append_assoc]
    by_cases hx : junk x = true
    · rw [List.rdropWhile_concat_pos _ _ _ hx, List.rdropWhile_concat_pos _ _ _ hx]
      refine ih fun hall => h ?_
      intro b hb
      rw [← List.append_assoc, List.mem_append, List.mem_singleton] at hb
      rcases hb with hb | rfl
      · exact hall b hb
      · exact hx
    · rw [List.rdropWhile_concat_neg _ _ _ hx, List.rdropWhile_concat_neg _ _ _ hx]
      have := List.length_pos_iff.mpr hl
      simp only [List.length_append]
      omega

end Trim

variable {α : Type*} [DecidableEq α] (sep : α) (junk : α → Bool)

def frames (s : List α) : List (List α) :=
  ((s.splitOn sep).map (List.rdropWhile junk)).filter (· ≠ [])

/-- Every line, its separator counted, has at most `max` symbols. -/
def Fits (max : ℕ) (s : List α) : Prop := ∀ l ∈ s.splitOn sep, l.length + 1 ≤ max

instance (max : ℕ) (s : List α) : Decidable (Fits sep max s) :=
  inferInstanceAs (Decidable (∀ l ∈ s.splitOn sep, l.length + 1 ≤ max))

/-- The rest of the line that is being read. -/
def restOfLine (s : List α) : List α := s.takeWhile (· ≠ sep)

variable {sep junk} {l s : List α} {max : ℕ}

/-- A stream is an unfinished line, or a line, the separator and a stream. -/
theorem line_induction (sep : α) {P : List α → Prop} (unfinished : ∀ l, sep ∉ l → P l)
    (line : ∀ l s, sep ∉ l → P s → P (l ++ sep :: s)) (s : List α) : P s := by
  induction hn : s.length using Nat.strong_induction_on generalizing s with
  | _ n ih =>
    by_cases h : sep ∈ s
    · obtain ⟨l, rest, rfl, hl⟩ := List.eq_append_cons_of_mem h
      exact line l rest hl (ih _ (by simp at hn; omega) rest rfl)
    · exact unfinished s h

theorem frames_unfinished (hl : sep ∉ l) :
    frames sep junk l = [l.rdropWhile junk].filter (· ≠ []) := by
  simp [frames, List.splitOn_eq_singleton hl]

theorem frames_line (hl : sep ∉ l) :
    frames sep junk (l ++ sep :: s) = [l.rdropWhile junk].filter (· ≠ []) ++ frames sep junk s := by
  rw [frames, List.splitOn_append_cons_self_of_not_mem hl, List.map_cons, ← List.singleton_append,
    List.filter_append, frames]

@[simp] theorem frames_nil : frames sep junk [] = [] := by
  simp [frames_unfinished (List.not_mem_nil (a := sep))]

theorem fits_line (hl : sep ∉ l) :
    Fits sep max (l ++ sep :: s) ↔ l.length + 1 ≤ max ∧ Fits sep max s := by
  rw [Fits, List.splitOn_append_cons_self_of_not_mem hl, List.forall_mem_cons, Fits]

theorem fits_unfinished (hl : sep ∉ l) : Fits sep max l ↔ l.length + 1 ≤ max := by
  rw [Fits, List.splitOn_eq_singleton hl, List.forall_mem_singleton]

theorem fits_start (hl : sep ∉ l) (h : Fits sep max (l ++ s)) : l.length + 1 ≤ max := by
  induction s using line_induction sep with
  | unfinished r hr =>
    rw [fits_unfinished (by simp [hl, hr]), List.length_append] at h
    omega
  | line r s hr _ =>
    rw [← List.append_assoc, fits_line (by simp [hl, hr]), List.length_append] at h
    omega

theorem restOfLine_line (hl : sep ∉ l) : restOfLine sep (l ++ sep :: s) = l := by
  rw [restOfLine, List.takeWhile_append_of_pos]
  · simp
  · intro b hb
    simpa using fun h : b = sep => hl (h ▸ hb)

theorem restOfLine_unfinished (hl : sep ∉ l) : restOfLine sep l = l := by
  rw [restOfLine, List.takeWhile_eq_self_iff]
  intro b hb
  simpa using fun h : b = sep => hl (h ▸ hb)

theorem frames_of_blank (h : ∀ b ∈ s, junk b = true) : frames sep junk s = [] := by
  induction s using line_induction sep with
  | unfinished l hl => simp [frames_unfinished hl, List.rdropWhile_eq_nil_iff.mpr h]
  | line l s hl ih =>
    have hb : l.rdropWhile junk = [] := List.rdropWhile_eq_nil_iff.mpr fun b hb => h b (by simp [hb])
    simp [frames_line hl, hb, ih fun b hb => h b (by simp [hb])]

theorem blank_of_frames (hsep : junk sep = true) (h : frames sep junk s = []) :
    ∀ b ∈ s, junk b = true := by
  induction s using line_induction sep with
  | unfinished l hl => simpa [frames_unfinished hl] using h
  | line l s hl ih =>
    rw [frames_line hl, List.append_eq_nil_iff] at h
    intro b hb
    rw [List.mem_append, List.mem_cons] at hb
    rcases hb with hb | rfl | hb
    · exact (by simpa using h.1 : ∀ x ∈ l, junk x = true) b hb
    · exact hsep
    · exact ih h.2 b hb

theorem flatten_frames_pos (h : frames sep junk s ≠ []) :
    0 < (frames sep junk s).flatten.length := by
  obtain ⟨l, hl⟩ := List.exists_mem_of_ne_nil _ h
  have hne : l ≠ [] := by simpa using (List.mem_filter.mp hl).2
  have := (List.sublist_flatten_of_mem hl).length_le
  have := List.length_pos_iff.mpr hne
  omega

/-! ### A line whose start is lost -/

section Torn

variable {start : List α}

theorem fits_torn (hs : sep ∉ start) (h : Fits sep max (start ++ s)) : Fits sep max s := by
  induction s using line_induction sep with
  | unfinished l hl =>
    rw [fits_unfinished (by simp [hs, hl])] at h
    rw [fits_unfinished hl]
    simp at h
    omega
  | line l s hl _ =>
    rw [← List.append_assoc, fits_line (by simp [hs, hl])] at h
    rw [fits_line hl]
    simp at h
    exact ⟨by omega, h.2⟩

/-- A blank line may be torn. -/
theorem frames_torn (hs : sep ∉ start)
    (h : start = [] ∨ ∀ b ∈ start ++ restOfLine sep s, junk b = true) :
    frames sep junk s = frames sep junk (start ++ s) := by
  rcases h with rfl | h
  · rfl
  induction s using line_induction sep with
  | unfinished l hl =>
    rw [restOfLine_unfinished hl] at h
    rw [frames_of_blank h, frames_of_blank fun b hb => h b (by simp [hb])]
  | line l s hl _ =>
    rw [restOfLine_line hl] at h
    have hsl : sep ∉ start ++ l := by simp [hs, hl]
    rw [← List.append_assoc, frames_line hsl, frames_line hl,
      List.rdropWhile_eq_nil_iff.mpr h,
      List.rdropWhile_eq_nil_iff.mpr fun b hb => h b (by simp [hb])]

/-- Any other torn line is missing from what is handed on. -/
theorem frames_torn_lt (hs : sep ∉ start)
    (h : ¬(start = [] ∨ ∀ b ∈ start ++ restOfLine sep s, junk b = true)) :
    (frames sep junk s).flatten.length < (frames sep junk (start ++ s)).flatten.length := by
  rw [not_or] at h
  obtain ⟨hne, h⟩ := h
  induction s using line_induction sep with
  | unfinished l hl =>
    rw [restOfLine_unfinished hl] at h
    have hsl : sep ∉ start ++ l := by simp [hs, hl]
    rw [frames_unfinished hsl, frames_unfinished hl, flatten_filter_ne_nil, flatten_filter_ne_nil]
    exact rdropWhile_length_lt hne h
  | line l s hl _ =>
    rw [restOfLine_line hl] at h
    have hsl : sep ∉ start ++ l := by simp [hs, hl]
    rw [← List.append_assoc, frames_line hsl, frames_line hl, List.flatten_append,
      List.flatten_append, flatten_filter_ne_nil, flatten_filter_ne_nil, List.length_append,
      List.length_append]
    have := rdropWhile_length_lt hne h
    omega

end Torn

end LineFraming
