import Rfircd.AddressText

/-! The ends of a text, and its pieces between separators. -/
namespace TextPieces

open Basics MessageText AddressText

variable {t : Text}

/-! ### Ends -/

/-- Neither end is blank. -/
def Bounded (t : Text) : Prop :=
  (∀ c, t.head? = some c → isWhitespace c = false) ∧
    ∀ c, t.getLast? = some c → isWhitespace c = false

theorem dropWhile_id {p : Char → Bool} (h : ∀ c, t.head? = some c → p c = false) :
    t.dropWhile p = t := by
  cases t with
  | nil => rfl
  | cons c t => rw [List.dropWhile_cons_of_neg (by rw [h c rfl]; exact Bool.false_ne_true)]

theorem trim_bounded (h : Bounded t) : trim t = t := by
  unfold trim
  rw [dropWhile_id h.1, dropWhile_id, List.reverse_reverse]
  intro c hc
  rw [List.head?_reverse] at hc
  exact h.2 c hc

theorem head_dropWhile (p : Char → Bool) (t : Text) {c : Char} (h : (t.dropWhile p).head? = some c) :
    p c = false := by
  induction t with
  | nil => cases h
  | cons d t ih =>
    rw [List.dropWhile_cons] at h
    split_ifs at h with hd
    · exact ih h
    · obtain rfl := Option.some.inj h
      exact Bool.eq_false_iff.mpr hd

theorem bounded_trim (t : Text) : Bounded (trim t) := by
  constructor
  · intro c hc
    have hagain : (trim t).dropWhile isWhitespace = trim t := by
      have htwice := trim_trim t
      have hlength := congrArg List.length htwice
      have hright : (trim (trim t)).length ≤ ((trim t).dropWhile isWhitespace).length := by
        unfold trim
        rw [List.length_reverse]
        refine (List.dropWhile_sublist _).length_le.trans ?_
        rw [List.length_reverse]
      exact (List.dropWhile_sublist _).eq_of_length_le (by omega)
    rw [← hagain] at hc
    exact head_dropWhile _ _ hc
  · intro c hc
    unfold trim at hc
    rw [List.getLast?_reverse] at hc
    exact head_dropWhile _ _ hc

/-- Blanks behind a text are taken off. -/
theorem trim_padding (h : Bounded t) (n : ℕ) : trim (t ++ List.replicate n ' ') = t := by
  have hpad : (List.replicate n ' ').dropWhile isWhitespace = [] := by
    refine List.dropWhile_eq_nil_iff.mpr fun c hc => ?_
    rw [List.eq_of_mem_replicate hc]
    decide
  have hback : ((t ++ List.replicate n ' ').reverse.dropWhile isWhitespace).reverse = t := by
    rw [List.reverse_append, List.reverse_replicate, List.dropWhile_append, hpad, List.isEmpty_nil, if_pos rfl,
      dropWhile_id, List.reverse_reverse]
    intro c hc
    rw [List.head?_reverse] at hc
    exact h.2 c hc
  unfold trim
  cases t with
  | nil => rw [List.nil_append, hpad, List.reverse_nil, List.dropWhile_nil, List.reverse_nil]
  | cons c t =>
    rw [dropWhile_id (t := c :: t ++ List.replicate n ' ') fun d hd => h.1 d hd]
    exact hback

/-! ### The first separator -/

theorem splitOnce_of_not_mem {c : Char} {t : Text} (h : c ∉ t) : splitOnce c t = none := by
  induction t with
  | nil => rfl
  | cons d t ih =>
    rw [List.mem_cons, not_or] at h
    rw [splitOnce, if_neg fun heq => h.1 heq.symm, ih h.2]
    rfl

theorem splitOnce_append {c : Char} {part : Text} (h : c ∉ part) (t : Text) :
    splitOnce c (part ++ c :: t) = some (part, t) := by
  induction part with
  | nil => exact if_pos rfl
  | cons d part ih =>
    rw [List.mem_cons, not_or] at h
    rw [List.cons_append, splitOnce, if_neg fun heq => h.1 heq.symm, ih h.2]
    rfl

theorem splitOnce_spec {d : Char} {p : Text × Text} (h : splitOnce d t = some p) :
    t = p.1 ++ d :: p.2 ∧ d ∉ p.1 := by
  induction t generalizing p with
  | nil => cases h
  | cons e t ih =>
    rw [splitOnce] at h
    split_ifs at h with he
    · obtain rfl := Option.some.inj h
      rw [he]
      exact ⟨rfl, List.not_mem_nil⟩
    · obtain ⟨q, hq, rfl⟩ := Option.map_eq_some_iff.mp h
      obtain ⟨hsplit, hno⟩ := ih hq
      refine ⟨congrArg (e :: ·) hsplit, fun hmem => ?_⟩
      rcases List.mem_cons.mp hmem with rfl | hmem
      · exact he rfl
      · exact hno hmem

theorem not_mem_of_splitOnce {d : Char} (h : splitOnce d t = none) : d ∉ t := by
  induction t with
  | nil => exact List.not_mem_nil
  | cons e t ih =>
    rw [splitOnce] at h
    split_ifs at h with he
    rw [List.mem_cons, not_or]
    exact ⟨fun heq => he heq.symm, ih (Option.map_eq_none_iff.mp h)⟩

end TextPieces
