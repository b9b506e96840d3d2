import Mathlib.Algebra.Order.Interval.Basic
import Mathlib.Algebra.Order.BigOperators.Group.List
import Mathlib.Tactic.Abel

/-! Time covered by disjoint intervals inside a sliding window.
Lists of intervals are newest first. Two conditions bound the covered time of every window
of a given length, although each is only tested when an interval begins:
a look back over the window that ends there, and a rest between groups of intervals. -/
namespace SlidingWindow

variable {T : Type*} [AddCommGroup T] [LinearOrder T]

/-- The part of an interval inside the window from `a` to `z`. -/
def overlap (b : NonemptyInterval T) (a z : T) : T :=
  max 0 (min b.snd z - max b.fst a)

def busy (l : List (NonemptyInterval T)) (a z : T) : T :=
  (l.map fun b => overlap b a z).sum

@[simp] theorem busy_nil (a z : T) : busy ([] : List (NonemptyInterval T)) a z = 0 := rfl

@[simp] theorem busy_cons (b : NonemptyInterval T) (l : List (NonemptyInterval T)) (a z : T) :
    busy (b :: l) a z = overlap b a z + busy l a z := by
  simp [busy]

variable [IsOrderedAddMonoid T]

theorem overlap_le_length (b : NonemptyInterval T) (a z : T) : overlap b a z ≤ b.length := by
  refine max_le (b.length_nonneg) ?_
  exact sub_le_sub (min_le_left _ _) (le_max_left _ _)

/-- An interval that begins at the end of the window or later covers nothing of it. -/
theorem overlap_of_le_fst {b : NonemptyInterval T} {a z : T} (h : z ≤ b.fst) :
    overlap b a z = 0 := by
  refine max_eq_left (sub_nonpos.mpr ?_)
  exact (min_le_right _ _).trans (h.trans (le_max_left _ _))

/-- Nor does one that is over when the window begins. -/
theorem overlap_of_snd_le {b : NonemptyInterval T} {a z : T} (h : b.snd ≤ a) :
    overlap b a z = 0 := by
  refine max_eq_left (sub_nonpos.mpr ?_)
  exact (min_le_left _ _).trans (h.trans (le_max_right _ _))

theorem overlap_le_of_fst_le {b : NonemptyInterval T} {a z : T} (h : b.fst ≤ z) :
    overlap b a z ≤ min b.snd z - b.fst := by
  refine max_le (sub_nonneg.mpr (le_min b.fst_le_snd h)) ?_
  exact sub_le_sub le_rfl (le_max_left _ _)

/-! ### Looking back -/

/-- Length of the intervals that ended at most `w` before `t`, each counted whole. -/
def lookback (l : List (NonemptyInterval T)) (t w : T) : T :=
  ((l.filter fun b => t ≤ b.snd + w).map NonemptyInterval.length).sum

omit [IsOrderedAddMonoid T] in
theorem lookback_cons (b : NonemptyInterval T) (l : List (NonemptyInterval T)) (t w : T) :
    lookback (b :: l) t w = (if t ≤ b.snd + w then b.length else 0) + lookback l t w := by
  by_cases h : t ≤ b.snd + w <;> simp [lookback, h]

/-- Each interval began only when it fitted into the window that ends at its beginning. -/
def Admitted (w A : T) : List (NonemptyInterval T) → Prop
  | [] => True
  | b :: l => b.length + lookback l b.fst w ≤ A ∧ Admitted w A l

theorem busy_le_lookback (l : List (NonemptyInterval T)) {a t w : T} (h : t ≤ a + w) (z : T) :
    busy l a z ≤ lookback l t w := by
  induction l with
  | nil => simp [lookback]
  | cons b l ih =>
    rw [busy_cons, lookback_cons]
    refine add_le_add ?_ ih
    by_cases hb : t ≤ b.snd + w
    · simpa [hb] using overlap_le_length b a z
    · have : b.snd ≤ a := by
        have h₁ : b.snd + w < a + w := (not_le.mp hb).trans_le h
        exact (lt_of_add_lt_add_right h₁).le
      simp [hb, overlap_of_snd_le this]

/-- A bound tested only backwards from the beginning of each interval holds in every window. -/
theorem busy_le_of_admitted {w A : T} (hA : 0 ≤ A) {l : List (NonemptyInterval T)}
    (h : Admitted w A l) (a : T) : busy l a (a + w) ≤ A := by
  induction l with
  | nil => simpa using hA
  | cons b l ih =>
    rw [busy_cons]
    by_cases hb : a + w ≤ b.fst
    · rw [overlap_of_le_fst hb, zero_add]
      exact ih h.2
    · have hl := busy_le_lookback l (not_le.mp hb).le (a + w)
      calc overlap b a (a + w) + busy l a (a + w)
          ≤ b.length + lookback l b.fst w := add_le_add (overlap_le_length _ _ _) hl
        _ ≤ A := h.1

/-! ### Resting -/

/-- No interval begins before every earlier one is over. -/
def InSequence (l : List (NonemptyInterval T)) : Prop :=
  l.Pairwise fun newer older => older.snd ≤ newer.fst

/-- Length of the intervals since the last rest of at least `c`. -/
def sinceRest (c : T) : List (NonemptyInterval T) → T
  | [] => 0
  | [b] => b.length
  | b :: b' :: l => b.length + if b'.snd + c ≤ b.fst then 0 else sinceRest c (b' :: l)

/-- No group of intervals without a rest of `c` in it is longer than `m`. -/
def Rested (c m : T) : List (NonemptyInterval T) → Prop
  | [] => True
  | b :: l => sinceRest c (b :: l) ≤ m ∧ Rested c m l

/-- Disjoint intervals cover no more of a window than the newest one reaches into it. -/
theorem busy_le_reach {b : NonemptyInterval T} {l : List (NonemptyInterval T)}
    (hs : InSequence (b :: l)) (a z : T) : busy (b :: l) a z ≤ max 0 (min b.snd z - a) := by
  induction l generalizing b with
  | nil =>
    simp only [busy_cons, busy_nil, add_zero]
    exact max_le_max le_rfl (sub_le_sub le_rfl (le_max_right _ _))
  | cons b' l ih =>
    have hb : b'.snd ≤ b.fst := (List.pairwise_cons.mp hs).1 b' (by simp)
    have hl := ih (List.pairwise_cons.mp hs).2
    rw [busy_cons]
    by_cases hz : z ≤ b.fst
    · rw [overlap_of_le_fst hz, zero_add]
      refine hl.trans (max_le_max le_rfl (sub_le_sub ?_ le_rfl))
      exact le_min ((min_le_left _ _).trans (hb.trans b.fst_le_snd)) (min_le_right _ _)
    · have hz := (not_le.mp hz).le
      by_cases ha : b.fst ≤ a
      · have : busy (b' :: l) a z ≤ 0 := by
          refine hl.trans (max_le le_rfl (sub_nonpos.mpr ?_))
          exact (min_le_left _ _).trans (hb.trans ha)
        have ho : overlap b a z ≤ max 0 (min b.snd z - a) :=
          max_le_max le_rfl (sub_le_sub le_rfl (le_max_right _ _))
        simpa using add_le_add ho this
      · have ha := (not_le.mp ha).le
        have ho := overlap_le_of_fst_le (a := a) hz
        have hl' : busy (b' :: l) a z ≤ b.fst - a := by
          refine hl.trans (max_le (sub_nonneg.mpr ha) (sub_le_sub ?_ le_rfl))
          exact (min_le_left _ _).trans hb
        refine le_max_of_le_right ?_
        calc overlap b a z + busy (b' :: l) a z
            ≤ (min b.snd z - b.fst) + (b.fst - a) := add_le_add ho hl'
          _ = min b.snd z - a := by abel

theorem busy_le_group {c : T} {b : NonemptyInterval T} {l : List (NonemptyInterval T)}
    (hs : InSequence (b :: l)) {a z : T} (hz : b.fst ≤ z) :
    busy (b :: l) a z ≤ max (sinceRest c (b :: l)) (min b.snd z - a - c) := by
  induction l generalizing b with
  | nil =>
    refine le_max_of_le_left ?_
    simpa [sinceRest] using overlap_le_length b a z
  | cons b' l ih =>
    have hb : b'.snd ≤ b.fst := (List.pairwise_cons.mp hs).1 b' (by simp)
    have hs' : InSequence (b' :: l) := (List.pairwise_cons.mp hs).2
    have ho := overlap_le_of_fst_le (a := a) hz
    rw [busy_cons, sinceRest]
    split
    case isTrue hrest =>
      -- The whole rest lies between the window's part of `b` and that of the older intervals.
      rcases max_choice 0 (min b'.snd z - a) with hm | hm
      · refine le_max_of_le_left ?_
        have := busy_le_reach hs' a z
        rw [hm] at this
        simpa using add_le_add (overlap_le_length b a z) this
      · refine le_max_of_le_right ?_
        have hr := busy_le_reach hs' a z
        rw [hm] at hr
        have hb' : min b'.snd z ≤ b.fst - c :=
          (min_le_left _ _).trans (le_sub_iff_add_le.mpr hrest)
        calc overlap b a z + busy (b' :: l) a z
            ≤ (min b.snd z - b.fst) + (b.fst - c - a) :=
              add_le_add ho (hr.trans (sub_le_sub hb' le_rfl))
          _ = min b.snd z - a - c := by abel
    case isFalse =>
      have hl := ih hs' (b'.fst_le_snd.trans (hb.trans hz))
      rcases le_max_iff.mp hl with hl | hl
      · exact le_max_of_le_left (add_le_add (overlap_le_length b a z) hl)
      · refine le_max_of_le_right ?_
        have hb' : min b'.snd z ≤ b.fst := (min_le_left _ _).trans hb
        calc overlap b a z + busy (b' :: l) a z
            ≤ (min b.snd z - b.fst) + (b.fst - a - c) :=
              add_le_add ho (hl.trans (sub_le_sub (sub_le_sub hb' le_rfl) le_rfl))
          _ = min b.snd z - a - c := by abel

/-- Groups of at most `m` with rests of at least `c` between them cover at most `m` of
every window of length `m + c`. -/
theorem busy_le_of_rested {c m : T} (hm : 0 ≤ m) {l : List (NonemptyInterval T)}
    (hs : InSequence l) (hr : Rested c m l) (a : T) : busy l a (a + (m + c)) ≤ m := by
  induction l with
  | nil => simpa using hm
  | cons b l ih =>
    by_cases hb : a + (m + c) ≤ b.fst
    · rw [busy_cons, overlap_of_le_fst hb, zero_add]
      exact ih (List.pairwise_cons.mp hs).2 hr.2
    · refine (busy_le_group (c := c) hs (not_le.mp hb).le).trans (max_le hr.1 ?_)
      calc min b.snd (a + (m + c)) - a - c
          ≤ a + (m + c) - a - c := sub_le_sub (sub_le_sub (min_le_right _ _) le_rfl) le_rfl
        _ = m := by abel

end SlidingWindow
