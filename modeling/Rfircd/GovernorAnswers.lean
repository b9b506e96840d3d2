import Rfircd.Deferral

/-! What the governor answers, and what asking it does.
A check forgets what is no longer in any window and ends what is over, whatever frame it is asked
about; a later check would have done the same. -/
namespace GovernorAnswers

open Basics AirtimeGovernor Deferral

variable {g : Governor} {cost t t' w : ℕ}

/-! ### What asking does -/

/-- The last transmission is over for long enough to end the run. -/
def ended (g : Governor) (t : ℕ) : Bool := g.lastEnd.any fun last => decide (runGap ≤ t - last)

theorem endRun_eq (g : Governor) (t : ℕ) :
    g.endRun t = { g with run := if ended g t then 0 else g.run } := by
  rcases g with ⟨cfg, bursts, - | last, run, cooling, total⟩
  · rfl
  · by_cases hgap : runGap ≤ t - last
    · simp [Governor.endRun, ended, hgap]
    · simp [Governor.endRun, ended, hgap]

/-- The run as a check leaves it. -/
def settledRun (g : Governor) (t : ℕ) : ℕ :=
  match g.coolingUntil with
  | some u => if t < u then g.run else 0
  | none => if ended g t then 0 else g.run

/-- The governor as a check leaves it. -/
def settle (g : Governor) (t : ℕ) : Governor :=
  { g with
    bursts := (g.trim t).bursts
    run := settledRun g t
    coolingUntil := g.coolingUntil.filter fun u => t < u }

/-- What a check answers, once the cooldown is looked at. -/
def decision (g : Governor) (cost t : ℕ) : TxDecision :=
  match g.coolingUntil.filter fun u => t < u with
  | some u => .defer (u - t) .cooldown
  | none => (settle g t).limits cost t

theorem checkCost_eq (he : g.cfg.enabled = true) (cost t : ℕ) :
    g.checkCost cost t = (decision g cost t, settle g t) := by
  rw [Governor.checkCost, if_neg (by rw [he]; decide)]
  rcases g with ⟨cfg, bursts, lastEnd, run, - | u, total⟩
  · simp only [decision, settle, settledRun, Governor.trim_coolingUntil, endRun_eq, Option.filter_none]
    rfl
  · by_cases hu : t < u
    · simp only [decision, settle, settledRun, Governor.trim_coolingUntil, Option.filter_some, hu,
        decide_true, if_true]
      rfl
    · have hzero : ∀ b : Bool, (if b = true then 0 else 0) = 0 := fun b => by cases b <;> rfl
      simp only [decision, settle, settledRun, Governor.trim_coolingUntil, Option.filter_some, hu,
        decide_false, Bool.false_eq_true, if_false, endRun_eq, hzero]
      rfl

theorem dropWhile_dropWhile {α : Type*} {p q : α → Bool} (h : ∀ x, p x = true → q x = true)
    (l : List α) : (l.dropWhile p).dropWhile q = l.dropWhile q := by
  induction l with
  | nil => rfl
  | cons x l ih =>
    by_cases hp : p x = true
    · rw [List.dropWhile_cons_of_pos hp, List.dropWhile_cons_of_pos (h x hp), ih]
    · rw [List.dropWhile_cons_of_neg hp]

theorem trim_trim (g : Governor) (h : t ≤ t') : ((g.trim t).trim t').bursts = (g.trim t').bursts := by
  refine dropWhile_dropWhile (fun b hb => ?_) g.bursts
  have hold : g.retention < t - b.stop := by simpa using hb
  have holder : g.retention < t' - b.stop := by omega
  exact decide_eq_true holder

theorem ended_mono (h : t ≤ t') (he : ended g t = true) : ended g t' = true := by
  obtain ⟨last, hlast, hgap⟩ := (Option.any_eq_true _ _).mp he
  refine (Option.any_eq_true _ _).mpr ⟨last, hlast, ?_⟩
  simp only [decide_eq_true_eq] at hgap ⊢
  omega

/-- A check leaves nothing that a later one would not have found. -/
theorem settle_settle (g : Governor) (h : t ≤ t') : settle (settle g t) t' = settle g t' := by
  have hbursts : ((settle g t).trim t').bursts = (g.trim t').bursts := trim_trim g h
  have hcooling : (g.coolingUntil.filter fun u => decide (t < u)).filter (fun u => decide (t' < u)) =
      g.coolingUntil.filter fun u => decide (t' < u) := by
    cases g.coolingUntil with
    | none => rfl
    | some u =>
      by_cases hu : t < u
      · simp only [Option.filter_some, hu, decide_true, if_true]
      · have hu' : ¬ t' < u := by omega
        simp [Option.filter_some, hu, hu']
  have hended : ended (settle g t) t' = ended g t' := rfl
  have hrun : settledRun (settle g t) t' = settledRun g t' := by
    unfold settledRun
    rw [hended]
    rcases hc : g.coolingUntil with - | u
    · have hnone : (settle g t).coolingUntil = none := by rw [settle, hc]; rfl
      rw [hnone]
      simp only [settle, settledRun, hc]
      by_cases he : ended g t = true
      · simp [ended_mono h he]
      · simp [he]
    · by_cases hu : t < u
      · have hsome : (settle g t).coolingUntil = some u := by simp [settle, hc, hu, Option.filter_some]
        have hrun : (settle g t).run = g.run := by simp [settle, settledRun, hc, hu]
        rw [hsome, hrun]
      · have hnone : (settle g t).coolingUntil = none := by
          simp [settle, hc, hu, Option.filter_some]
        have hrun : (settle g t).run = 0 := by simp [settle, settledRun, hc, hu]
        have hu' : ¬ t' < u := by omega
        simp [hnone, hrun, hu']
  unfold settle at hbursts hrun ⊢
  dsimp only at hbursts hrun ⊢
  rw [hbursts, hrun, hcooling]

/-- So a check answers what it would have answered without the one before. -/
theorem decision_settle (g : Governor) (cost : ℕ) (h : t ≤ t') :
    decision (settle g t) cost t' = decision g cost t' := by
  have hsettle := settle_settle g h
  have hcooling : (settle g t).coolingUntil.filter (fun u => decide (t' < u)) =
      g.coolingUntil.filter fun u => decide (t' < u) := congrArg Governor.coolingUntil hsettle
  unfold decision
  rw [hcooling, hsettle]

/-! ### What a transmission does -/

/-- The run with one more transmission. -/
def longerRun (g : Governor) (cost t : ℕ) : ℕ := (if ended g t then 0 else g.run) + cost

/-- The governor as a transmission leaves it. -/
def recorded (g : Governor) (cost t : ℕ) : Governor :=
  { g with
    bursts := (g.bursts ++ [Burst.mk (t + cost) cost]).dropWhile fun b => g.retention < t - b.stop
    lastEnd := some (t + cost)
    run := longerRun g cost t
    coolingUntil :=
      if g.cfg.maxContinuous ≤ longerRun g cost t then some (t + cost + g.cfg.cooldown)
      else g.coolingUntil
    total := g.total + cost }

theorem recordCost_eq (he : g.cfg.enabled = true) (cost t : ℕ) :
    (g.recordCost cost t).2 = recorded g cost t := by
  rw [Governor.recordCost, if_neg (by rw [he]; decide)]
  simp only [endRun_eq]
  by_cases hlong : g.cfg.maxContinuous ≤ (if ended g t then 0 else g.run) + cost
  · rw [if_pos ⟨he, hlong⟩, recorded, longerRun, if_pos hlong]
    rfl
  · rw [if_neg fun h => hlong h.2, recorded, longerRun, if_neg hlong]
    rfl

/-! ### How long a frame waits -/

/-- The frame does not fit beside what was sent inside a window. -/
def Over (g : Governor) (w : ℕ) (limit : ℚ) (cost t : ℕ) : Prop :=
  limit < ((g.airtimeWithin t w + cost : ℕ) : ℚ)

theorem Over.mono {limit : ℚ} (h : Over g w limit cost t') (ht : t ≤ t') : Over g w limit cost t := by
  refine lt_of_lt_of_le h ?_
  exact_mod_cast Nat.add_le_add_right (airtimeWithin_anti g ht w) cost

/-- Some burst in the window makes room when it leaves, together with those before it. -/
structure Leaves (l : List Burst) (t w : ℕ) (limit : ℚ) (cost : ℕ) (b : Burst) (after : List Burst) :
    Prop where
  burst : ∃ before, l = before ++ b :: after
  inside : t - b.stop ≤ w
  full : limit < ((spent (b :: after) t w + cost : ℕ) : ℚ)
  room : ((spent after t w + cost : ℕ) : ℚ) ≤ limit

theorem Leaves.cons {l after : List Burst} {limit : ℚ} {b x : Burst}
    (h : Leaves l t w limit cost b after) : Leaves (x :: l) t w limit cost b after := by
  obtain ⟨before, rfl⟩ := h.burst
  exact ⟨⟨x :: before, rfl⟩, h.inside, h.full, h.room⟩

theorem retryLoop_spec (l : List Burst) {limit : ℚ} (hfit : (cost : ℚ) ≤ limit)
    (h : limit < ((spent l t w + cost : ℕ) : ℚ)) :
    ∃ b after, Leaves l t w limit cost b after ∧
      Governor.retryLoop t w limit cost (spent l t w) l = some (max (b.stop + w - t) (millis 100)) := by
  induction l with
  | nil =>
    rw [spent_nil, zero_add] at h
    exact absurd hfit (not_le.mpr h)
  | cons x l ih =>
    rw [Governor.retryLoop]
    by_cases hout : w < t - x.stop
    · have hsame : spent (x :: l) t w = spent l t w := by
        rw [spent_cons, if_neg (not_le.mpr hout), zero_add]
      rw [if_pos hout, hsame]
      rw [hsame] at h
      obtain ⟨b, after, hleaves, hloop⟩ := ih h
      exact ⟨b, after, hleaves.cons, hloop⟩
    · have hrest : spent (x :: l) t w - x.len = spent l t w := by
        rw [spent_cons, if_pos (not_lt.mp hout)]
        omega
      rw [if_neg hout, if_neg (not_le.mpr h)]
      dsimp only
      rw [hrest]
      by_cases hroom : ((spent l t w + cost : ℕ) : ℚ) ≤ limit
      · rw [if_pos hroom]
        exact ⟨x, l, ⟨⟨[], rfl⟩, not_lt.mp hout, h, hroom⟩, rfl⟩
      · rw [if_neg hroom]
        obtain ⟨b, after, hleaves, hloop⟩ := ih (not_le.mp hroom)
        exact ⟨b, after, hleaves.cons, hloop⟩

/-- The wait of a frame that fits the limit alone ends when some burst leaves the window, or after a
tenth of a second. -/
theorem retryDelay_spec (g : Governor) {limit : ℚ} (hfit : (cost : ℚ) ≤ limit)
    (h : Over g w limit cost t) : ∃ b after, Leaves g.bursts t w limit cost b after ∧
      g.retryDelay t w limit cost = max (b.stop + w - t) (millis 100) := by
  obtain ⟨b, after, hleaves, hloop⟩ := retryLoop_spec g.bursts hfit h
  refine ⟨b, after, hleaves, ?_⟩
  rw [Governor.retryDelay, Governor.airtimeWithin, hloop, Option.getD_some]

theorem retryLoop_dropWhile (l : List Burst) {horizon : ℕ} (hw : w ≤ horizon) (limit : ℚ)
    (cost used : ℕ) :
    Governor.retryLoop t w limit cost used (l.dropWhile fun b => horizon < t - b.stop) =
      Governor.retryLoop t w limit cost used l := by
  induction l with
  | nil => rfl
  | cons b l ih =>
    by_cases hold : horizon < t - b.stop
    · rw [List.dropWhile_cons_of_pos (by simpa using hold), ih]
      rw [Governor.retryLoop, if_pos (by omega)]
    · rw [List.dropWhile_cons_of_neg (by simpa using hold)]

theorem airtimeWithin_settle (g : Governor) (h : t ≤ t') (hw : w ≤ g.retention) :
    (settle g t).airtimeWithin t' w = g.airtimeWithin t' w :=
  Governor.trim_airtimeWithin g h hw

theorem retryDelay_settle (g : Governor) (hw : w ≤ g.retention) (limit : ℚ) (cost : ℕ) :
    (settle g t).retryDelay t w limit cost = g.retryDelay t w limit cost := by
  unfold Governor.retryDelay
  rw [airtimeWithin_settle g le_rfl hw]
  congr 1
  exact retryLoop_dropWhile g.bursts hw limit cost _

/-! ### What is answered -/

/-- Neither a cooldown nor the length of the run holds a frame back. -/
structure Ready (g : Governor) (cost t : ℕ) : Prop where
  cooled : ∀ u ∈ g.coolingUntil, u ≤ t
  run : settledRun g t + cost ≤ g.cfg.maxContinuous ∨ settledRun g t = 0

/-- The answers of a check, with what it must have found. -/
inductive Answers (g : Governor) (cost t : ℕ) : TxDecision → Prop where
  | cooling {u : ℕ} (hu : u ∈ g.coolingUntil) (hlater : t < u) :
      Answers g cost t (.defer (u - t) .cooldown)
  | running (hcooled : ∀ u ∈ g.coolingUntil, u ≤ t)
      (hlong : g.cfg.maxContinuous < settledRun g t + cost) (hrun : 0 < settledRun g t) :
      Answers g cost t (.defer (max (g.lastEnd.getD t + runGap - t) (millis 1)) .cooldown)
  | duty (hready : Ready g cost t) (hover : Over g g.cfg.window g.allowance cost t) :
      Answers g cost t (.defer (g.retryDelay t g.cfg.window g.allowance cost) .duty)
  | hour (hready : Ready g cost t) (hduty : ¬ Over g g.cfg.window g.allowance cost t)
      (hset : g.cfg.hourlyBudget ≠ 0)
      (hover : Over g g.cfg.hourlyBudgetWindow g.cfg.hourlyBudget cost t) :
      Answers g cost t
        (.defer (g.retryDelay t g.cfg.hourlyBudgetWindow g.cfg.hourlyBudget cost) .hourlyBudget)
  | send (hready : Ready g cost t) (hduty : ¬ Over g g.cfg.window g.allowance cost t)
      (hhour : g.cfg.hourlyBudget ≠ 0 →
        ¬ Over g g.cfg.hourlyBudgetWindow g.cfg.hourlyBudget cost t) : Answers g cost t .send

theorem decision_answers (g : Governor) (cost t : ℕ) : Answers g cost t (decision g cost t) := by
  have hwindow := airtimeWithin_settle g (le_refl t) (le_max_left g.cfg.window _)
  have hhour := airtimeWithin_settle g (le_refl t) (le_max_right g.cfg.window _)
  have hdelay := retryDelay_settle (t := t) g (le_max_left g.cfg.window _) g.allowance cost
  have hlonger := retryDelay_settle (t := t) g (le_max_right g.cfg.window _) g.cfg.hourlyBudget cost
  have hrun : (settle g t).run = settledRun g t := rfl
  have hcfg : (settle g t).cfg = g.cfg := rfl
  have hallowance : (settle g t).allowance = g.allowance := rfl
  have hlast : (settle g t).lastEnd = g.lastEnd := rfl
  unfold decision
  cases hfilter : g.coolingUntil.filter (fun u => decide (t < u)) with
  | some u =>
    obtain ⟨hu, hlater⟩ := Option.filter_eq_some_iff.mp hfilter
    exact .cooling hu (of_decide_eq_true hlater)
  | none =>
    have hcooled : ∀ u ∈ g.coolingUntil, u ≤ t := by
      intro u hu
      have hnot := Option.filter_eq_none_iff.mp hfilter u hu
      simpa using hnot
    dsimp only
    unfold Governor.limits
    rw [hrun, hcfg, hallowance, hwindow, hhour, hdelay, hlonger, hlast]
    by_cases hlong : g.cfg.maxContinuous < settledRun g t + cost ∧ 0 < settledRun g t
    · rw [if_pos hlong]
      exact .running hcooled hlong.1 hlong.2
    have hready : Ready g cost t := ⟨hcooled, by omega⟩
    rw [if_neg hlong]
    by_cases hduty : g.allowance < ((g.airtimeWithin t g.cfg.window + cost : ℕ) : ℚ)
    · rw [if_pos hduty]
      exact .duty hready hduty
    rw [if_neg hduty]
    by_cases hbudget : g.cfg.hourlyBudget ≠ 0 ∧
        g.cfg.hourlyBudget < g.airtimeWithin t g.cfg.hourlyBudgetWindow + cost
    · rw [if_pos hbudget]
      exact .hour hready hduty hbudget.1 (Nat.cast_lt.mpr hbudget.2)
    · rw [if_neg hbudget]
      refine .send hready hduty fun hset hover => hbudget ⟨hset, ?_⟩
      exact Nat.cast_lt.mp hover

end GovernorAnswers
