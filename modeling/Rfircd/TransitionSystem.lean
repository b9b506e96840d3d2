import Mathlib.Logic.Basic

/-! Labelled transition systems and their guarded runs.
A guard restricts the steps of a run by the state they are taken from and by their label;
the unrestricted runs have the guard `fun _ _ => True`. -/
namespace TransitionSystem

variable {σ ε : Type*}

structure System (σ ε : Type*) where
  Initial : σ → Prop
  Step : σ → ε → σ → Prop

/-- A deterministic system: a label is enabled or not, and the next state is computed. -/
def System.ofNext (Initial : σ → Prop) (Enabled : σ → ε → Prop) (next : σ → ε → σ) :
    System σ ε where
  Initial := Initial
  Step s e t := Enabled s e ∧ t = next s e

inductive Execution (T : System σ ε) (guard : σ → ε → Prop) : σ → σ → Prop where
  | refl (s) : Execution T guard s s
  | tail {s u v e} : Execution T guard s u → guard u e → T.Step u e v → Execution T guard s v

def Reachable (T : System σ ε) (guard : σ → ε → Prop) (s : σ) : Prop :=
  ∃ s₀, T.Initial s₀ ∧ Execution T guard s₀ s

variable {T : System σ ε} {guard guard' : σ → ε → Prop} {I : σ → Prop}

theorem Reachable.initial {s : σ} (h : T.Initial s) : Reachable T guard s :=
  ⟨s, h, .refl s⟩

theorem Reachable.step {s t : σ} {e : ε} (h : Reachable T guard s) (hg : guard s e)
    (hs : T.Step s e t) : Reachable T guard t := by
  obtain ⟨s₀, h₀, he⟩ := h
  exact ⟨s₀, h₀, .tail he hg hs⟩

/-- Loosening the guard keeps every run. -/
theorem Reachable.mono {s : σ} (hg : ∀ u e, guard u e → guard' u e)
    (h : Reachable T guard s) : Reachable T guard' s := by
  obtain ⟨s₀, h₀, he⟩ := h
  refine ⟨s₀, h₀, ?_⟩
  induction he with
  | refl => exact .refl _
  | tail _ hu hs ih => exact .tail ih (hg _ _ hu) hs

/-- What holds initially and survives every guarded step holds in every reachable state. -/
structure Inductive (T : System σ ε) (guard : σ → ε → Prop) (I : σ → Prop) : Prop where
  initial : ∀ s, T.Initial s → I s
  step : ∀ s e t, I s → guard s e → T.Step s e t → I t

theorem Inductive.reachable (hI : Inductive T guard I) {s : σ} (h : Reachable T guard s) :
    I s := by
  obtain ⟨s₀, h₀, he⟩ := h
  induction he with
  | refl => exact hI.initial _ h₀
  | tail _ hg hs ih => exact hI.step _ _ _ ih hg hs

/-! ### Deterministic systems -/

variable {Initial : σ → Prop} {Enabled : σ → ε → Prop} {next : σ → ε → σ}

theorem Reachable.fire {s : σ} (h : Reachable (.ofNext Initial Enabled next) guard s) (e : ε)
    (hg : guard s e) (he : Enabled s e) :
    Reachable (.ofNext Initial Enabled next) guard (next s e) :=
  h.step hg ⟨he, rfl⟩

/-- Every label of the list is enabled and passes the guard when its turn comes. -/
def Runs (guard Enabled : σ → ε → Prop) (next : σ → ε → σ) : σ → List ε → Prop
  | _, [] => True
  | s, e :: es => guard s e ∧ Enabled s e ∧ Runs guard Enabled next (next s e) es

def decideRuns (guard Enabled : σ → ε → Prop) (next : σ → ε → σ)
    [∀ s e, Decidable (guard s e)] [∀ s e, Decidable (Enabled s e)] :
    (s : σ) → (es : List ε) → Decidable (Runs guard Enabled next s es)
  | _, [] => .isTrue trivial
  | s, e :: es =>
    have := decideRuns guard Enabled next (next s e) es
    inferInstanceAs (Decidable (guard s e ∧ Enabled s e ∧ Runs guard Enabled next (next s e) es))

instance [∀ s e, Decidable (guard s e)] [∀ s e, Decidable (Enabled s e)] (s : σ) (es : List ε) :
    Decidable (Runs guard Enabled next s es) := decideRuns guard Enabled next s es

theorem runs_append {guard Enabled : σ → ε → Prop} {next : σ → ε → σ} {s : σ} {es fs : List ε} :
    Runs guard Enabled next s (es ++ fs) ↔
      Runs guard Enabled next s es ∧ Runs guard Enabled next (es.foldl next s) fs := by
  induction es generalizing s with
  | nil => simp [Runs]
  | cons e es ih =>
    rw [List.cons_append, Runs, Runs, ih, List.foldl_cons]
    simp only [and_assoc]

theorem Execution.run {s₀ s : σ} {es : List ε}
    (h : Execution (.ofNext Initial Enabled next) guard s₀ s) (hr : Runs guard Enabled next s es) :
    Execution (.ofNext Initial Enabled next) guard s₀ (es.foldl next s) := by
  induction es generalizing s with
  | nil => exact h
  | cons e es ih => exact ih (h.tail hr.1 ⟨hr.2.1, rfl⟩) hr.2.2

theorem Reachable.run {s : σ} {es : List ε} (h : Reachable (.ofNext Initial Enabled next) guard s)
    (hr : Runs guard Enabled next s es) :
    Reachable (.ofNext Initial Enabled next) guard (es.foldl next s) := by
  obtain ⟨s₀, h₀, he⟩ := h
  exact ⟨s₀, h₀, he.run hr⟩

theorem Inductive.ofNext (h₀ : ∀ s, Initial s → I s)
    (h : ∀ s e, I s → guard s e → Enabled s e → I (next s e)) :
    Inductive (.ofNext Initial Enabled next) guard I where
  initial := h₀
  step := by
    rintro s e _ hs hg ⟨he, rfl⟩
    exact h s e hs hg he

end TransitionSystem
