import Mathlib.Data.Nat.Notation
import Rfircd.TransitionSystem

/-! Parts of one thing that arrive in the course of a run, in any order and repeatedly.
When the last of them has come the whole is put to use, and no arrival before or after is noticed. -/
namespace Assembly

open TransitionSystem

variable {σ ε : Type*} {next : σ → ε → σ} {guard Enabled : σ → ε → Prop}

/-- Whatever happens of that kind in the run, it takes such a step. -/
def AtEach (next : σ → ε → σ) (Kind : ε → Prop) (Step : σ → σ → Prop) (s : σ) (es : List ε) : Prop :=
  ∀ before e after, es = before ++ e :: after → Kind e →
    Step (before.foldl next s) (next (before.foldl next s) e)

section

variable {Kind : ε → Prop} {Step : σ → σ → Prop} {s : σ} {e : ε} {es : List ε}

theorem atEach_nil : AtEach next Kind Step s [] := by
  intro before e after hsplit
  exact absurd hsplit.symm (by simp)

theorem atEach_cons (h : Kind e → Step s (next s e)) (hrest : AtEach next Kind Step (next s e) es) :
    AtEach next Kind Step s (e :: es) := by
  intro before e' after hsplit hkind
  cases before with
  | nil =>
    obtain ⟨rfl, -⟩ := List.cons.inj hsplit
    exact h hkind
  | cons first before =>
    obtain ⟨rfl, htail⟩ := List.cons.inj hsplit
    exact hrest before e' after htail hkind

end

/-- How the parts are put together. An arrival of a part that leaves another one open is quiet, and
the arrival that leaves none open uses the whole; what else happens keeps what is there. -/
structure Assembles (next : σ → ε → σ) (guard Enabled : σ → ε → Prop) (parts : ℕ)
    (Arrives : ε → Prop) (Brings : ε → ℕ → Prop) (Collects : (ℕ → Prop) → σ → Prop)
    (Knows : σ → Prop) (Quiet Uses : σ → σ → Prop) : Prop where
  part : ∀ {got s e}, guard s e → Enabled s e → Arrives e → Collects got s →
    ∃ i, (∀ j, Brings e j → j = i) ∧
      (Quiet s (next s e) ∧ Collects (fun j => got j ∨ j = i) (next s e) ∧
          (∃ j < parts, ¬ (got j ∨ j = i)) ∨
        Uses s (next s e) ∧ Knows (next s e))
  again : ∀ {s e}, guard s e → Enabled s e → Arrives e → Knows s →
    Quiet s (next s e) ∧ Knows (next s e)
  collects : ∀ {got s e}, guard s e → Enabled s e → ¬ Arrives e → Collects got s →
    Collects got (next s e)
  knows : ∀ {s e}, guard s e → Enabled s e → ¬ Arrives e → Knows s → Knows (next s e)
  arrives : ∀ {e j}, Brings e j → Arrives e

section

variable {parts : ℕ} {Arrives : ε → Prop} {Brings : ε → ℕ → Prop}
  {Collects : (ℕ → Prop) → σ → Prop} {Knows : σ → Prop} {Quiet Uses : σ → σ → Prop}
  {got : ℕ → Prop} {s : σ} {es : List ε}

/-- Once it was used no arrival is noticed. -/
theorem Assembles.quiet
    (h : Assembles next guard Enabled parts Arrives Brings Collects Knows Quiet Uses)
    (hknows : Knows s) (hruns : Runs guard Enabled next s es) : AtEach next Arrives Quiet s es := by
  induction es generalizing s with
  | nil => exact atEach_nil
  | cons e es ih =>
    obtain ⟨hg, he, hrest⟩ := hruns
    by_cases harrives : Arrives e
    · obtain ⟨hquiet, hagain⟩ := h.again hg he harrives hknows
      exact atEach_cons (fun _ => hquiet) (ih hagain hrest)
    · exact atEach_cons (fun hyes => absurd hyes harrives)
        (ih (h.knows hg he harrives hknows) hrest)

/-- In a run in which all parts come the whole is used exactly once. -/
theorem Assembles.once
    (h : Assembles next guard Enabled parts Arrives Brings Collects Knows Quiet Uses)
    (hcollects : Collects got s) (hruns : Runs guard Enabled next s es)
    (hopen : ∃ j < parts, ¬ got j) (hall : ∀ j < parts, got j ∨ ∃ e ∈ es, Brings e j) :
    ∃ before e after, es = before ++ e :: after ∧ Arrives e ∧
      Uses (before.foldl next s) (next (before.foldl next s) e) ∧
      AtEach next Arrives Quiet s before ∧
      AtEach next Arrives Quiet (next (before.foldl next s) e) after := by
  induction es generalizing s got with
  | nil =>
    obtain ⟨j, hj, hnot⟩ := hopen
    obtain hgot | ⟨e, he, -⟩ := hall j hj
    · exact absurd hgot hnot
    · exact absurd he List.not_mem_nil
  | cons e es ih =>
    obtain ⟨hg, he, hrest⟩ := hruns
    by_cases harrives : Arrives e
    · obtain ⟨i, honly, ⟨hquiet, hmore, hstill⟩ | ⟨huses, hknows⟩⟩ := h.part hg he harrives hcollects
      · have hall' : ∀ j < parts, (got j ∨ j = i) ∨ ∃ e ∈ es, Brings e j := by
          intro j hj
          rcases hall j hj with hgot | ⟨e', he', hbrings⟩
          · exact .inl (.inl hgot)
          · rcases List.mem_cons.mp he' with rfl | he'
            · exact .inl (.inr (honly j hbrings))
            · exact .inr ⟨e', he', hbrings⟩
        obtain ⟨before, e', after, hsplit, harrives', huses, hbefore, hafter⟩ :=
          ih hmore hrest hstill hall'
        exact ⟨e :: before, e', after, by rw [hsplit]; rfl, harrives', huses,
          atEach_cons (fun _ => hquiet) hbefore, hafter⟩
      · exact ⟨[], e, es, rfl, harrives, huses, atEach_nil, h.quiet hknows hrest⟩
    · have hall' : ∀ j < parts, got j ∨ ∃ e ∈ es, Brings e j := by
        intro j hj
        rcases hall j hj with hgot | ⟨e', he', hbrings⟩
        · exact .inl hgot
        · rcases List.mem_cons.mp he' with rfl | he'
          · exact absurd (h.arrives hbrings) harrives
          · exact .inr ⟨e', he', hbrings⟩
      obtain ⟨before, e', after, hsplit, harrives', huses, hbefore, hafter⟩ :=
        ih (h.collects hg he harrives hcollects) hrest hopen hall'
      exact ⟨e :: before, e', after, by rw [hsplit]; rfl, harrives', huses,
        atEach_cons (fun hyes => absurd hyes harrives) hbefore, hafter⟩

end

end Assembly
