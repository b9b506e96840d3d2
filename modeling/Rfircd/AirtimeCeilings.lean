import Rfircd.AirtimeGovernor
import Rfircd.SlidingWindow
import Rfircd.TransitionSystem
import Mathlib.Data.Real.Basic

/-! What the governor's limits mean for the transmitter, in every interval of time.
A transmitter keys up exactly when a check answers `send`, and never before its previous
transmission is over. The history of what was keyed is a ghost: no decision reads it. -/
namespace AirtimeCeilings

open Basics AirtimeGovernor SlidingWindow TransitionSystem

/-- `clock` is the time of the last operation, `sent` is newest first. -/
structure Transmitter where
  governor : Governor
  clock : ℕ
  sent : List Burst
  deriving DecidableEq

inductive Op where
  | check (cost now : ℕ)
  | transmit (cost now : ℕ)
  | setDuty (duty : ℚ)
  deriving DecidableEq

def Enabled (s : Transmitter) : Op → Prop
  | .check _ now => s.clock ≤ now
  | .transmit cost now => s.clock ≤ now ∧ (∀ b ∈ s.sent.head?, b.stop ≤ now) ∧
      (s.governor.checkCost cost now).1 = .send
  | .setDuty _ => True

instance (s : Transmitter) (op : Op) : Decidable (Enabled s op) := by
  cases op <;> unfold Enabled <;> infer_instance

def next (s : Transmitter) : Op → Transmitter
  | .check cost now => ⟨(s.governor.checkCost cost now).2, now, s.sent⟩
  | .transmit cost now =>
    ⟨((s.governor.checkCost cost now).2.recordCost cost now).2, now,
      ⟨now + cost, cost⟩ :: s.sent⟩
  | .setDuty duty => { s with governor := s.governor.setDuty duty }

def system (cfg : AirtimeConfig) : System Transmitter Op :=
  .ofNext (· = ⟨.new cfg, 0, []⟩) Enabled next

/-- A burst as an interval of the real time line. -/
noncomputable def interval (b : Burst) : NonemptyInterval ℝ :=
  ⟨(b.stop - b.len, b.stop), sub_le_self _ (Nat.cast_nonneg _)⟩

/-- Key-down time between two instants. -/
noncomputable def keyed (sent : List Burst) (a z : ℝ) : ℝ := busy (sent.map interval) a z

@[simp] theorem interval_snd (b : Burst) : (interval b).snd = b.stop := rfl
@[simp] theorem interval_fst (b : Burst) : (interval b).fst = (b.stop : ℝ) - b.len := rfl
@[simp] theorem interval_length (b : Burst) : (interval b).length = b.len := by
  simp [NonemptyInterval.length]

theorem lookback_interval (l : List Burst) (t w : ℕ) :
    lookback (l.map interval) t w = (spent l t w : ℝ) := by
  induction l with
  | nil => simp [lookback]
  | cons b l ih =>
    have hc : (t : ℝ) ≤ (interval b).snd + w ↔ t - b.stop ≤ w := by
      rw [interval_snd, tsub_le_iff_left]
      exact_mod_cast Iff.rfl
    rw [List.map_cons, lookback_cons, ih, spent_cons]
    by_cases h : t - b.stop ≤ w
    · rw [if_pos h, if_pos (hc.mpr h), interval_length, Nat.cast_add]
    · rw [if_neg h, if_neg (mt hc.mp h), zero_add, zero_add]

/-! ### The sliding windows -/

/-- The governor remembers exactly what was keyed, as far back as it is asked, and every
transmission was admitted under the ceilings `A` of the duty window and `H` of the hour. -/
structure Accounted (cfg : AirtimeConfig) (A : ℝ) (s : Transmitter) : Prop where
  config : { s.governor.cfg with maxDuty := cfg.maxDuty } = cfg
  remembers : ∀ t w, s.clock ≤ t → w ≤ s.governor.retention →
    s.governor.airtimeWithin t w = spent s.sent t w
  window : Admitted (cfg.window : ℝ) A (s.sent.map interval)
  hour : cfg.hourlyBudget ≠ 0 →
    Admitted ((secs 3600 : ℕ) : ℝ) cfg.hourlyBudget (s.sent.map interval)

theorem accounted_initial (cfg : AirtimeConfig) (A : ℝ) :
    Accounted cfg A ⟨.new cfg, 0, []⟩ := by
  constructor <;> simp [Governor.new, Governor.airtimeWithin, Admitted]

theorem config_fields {c cfg : AirtimeConfig} (h : { c with maxDuty := cfg.maxDuty } = cfg) :
    c.enabled = cfg.enabled ∧ c.window = cfg.window ∧ c.hourlyBudget = cfg.hourlyBudget ∧
    c.maxContinuous = cfg.maxContinuous ∧ c.cooldown = cfg.cooldown := by
  rw [← h]
  simp

theorem accounted_step {cfg : AirtimeConfig} (hen : cfg.enabled = true) {A : ℝ}
    {s : Transmitter} {op : Op} (h : Accounted cfg A s) (he : Enabled s op)
    (hA : (s.governor.allowance : ℝ) ≤ A) : Accounted cfg A (next s op) := by
  obtain ⟨hcen, hcw, hch, -, -⟩ := config_fields h.config
  cases op with
  | check cost now =>
    obtain ⟨hc, -, hw⟩ := s.governor.checkCost_frame cost now
    refine ⟨?_, ?_, h.window, h.hour⟩
    · simpa [next, hc] using h.config
    · intro t w ht hwr
      have hwr : w ≤ s.governor.retention := by simpa [next, Governor.retention, hc] using hwr
      exact (hw t w ht hwr).trans (h.remembers t w (le_trans he ht) hwr)
  | transmit cost now =>
    obtain ⟨hclock, -, hsend⟩ := he
    obtain ⟨hc, -, hw⟩ := s.governor.checkCost_frame cost now
    obtain ⟨-, -, hduty, hhour⟩ := Governor.checkCost_send (hcen.trans hen) hsend
    obtain ⟨hrc, -, -, -, hrw⟩ := Governor.recordCost_spec (g := (s.governor.checkCost cost now).2)
      cost now (by rw [hc]; exact hcen.trans hen)
    have begins : (interval ⟨now + cost, cost⟩).fst = (now : ℝ) := by simp
    refine ⟨?_, ?_, ⟨?_, h.window⟩, fun hb => ⟨?_, h.hour hb⟩⟩
    · simpa [next, hrc, hc] using h.config
    · intro t w ht hwr
      have hwr : w ≤ s.governor.retention := by
        simpa [next, Governor.retention, hrc, hc] using hwr
      have := hrw t w ht (by simpa [Governor.retention, hc] using hwr)
      rw [hw t w ht hwr, h.remembers t w (le_trans hclock ht) hwr] at this
      simp only [next, spent_cons]
      omega
    · have hm := h.remembers now s.governor.cfg.window hclock (le_max_left _ _)
      rw [hm, hcw] at hduty
      rw [begins, lookback_interval, interval_length]
      have : ((spent s.sent now cfg.window + cost : ℕ) : ℝ) ≤ (s.governor.allowance : ℝ) := by
        exact_mod_cast hduty
      push_cast at this
      linarith
    · have hm := h.remembers now s.governor.cfg.hourlyBudgetWindow hclock (le_max_right _ _)
      have hwin : s.governor.cfg.hourlyBudgetWindow = secs 3600 := by
        rw [AirtimeConfig.hourlyBudgetWindow, if_neg (by rw [hch]; exact hb)]
      have hbud := hhour (by rw [hch]; exact hb)
      rw [hm, hwin, hch] at hbud
      rw [begins, lookback_interval, interval_length]
      exact_mod_cast (by omega : cost + spent s.sent now (secs 3600) ≤ cfg.hourlyBudget)
  | setDuty duty => exact ⟨h.config, h.remembers, h.window, h.hour⟩

theorem Accounted.window_le {cfg : AirtimeConfig} {A : ℝ} {s : Transmitter}
    (h : Accounted cfg A s) (hA : 0 ≤ A) (a : ℝ) :
    keyed s.sent a (a + cfg.window) ≤ A :=
  busy_le_of_admitted hA h.window a

theorem effectiveDuty_le (c : AirtimeConfig) :
    0 ≤ c.effectiveDuty ∧ c.effectiveDuty ≤ 1 / 2 := by
  unfold AirtimeConfig.effectiveDuty hardMaxDuty
  exact ⟨le_max_left _ _, max_le (by norm_num) (min_le_right _ _)⟩

theorem allowance_le_half {g : Governor} {w : ℕ} (h : g.cfg.window = w) :
    (g.allowance : ℝ) ≤ w / 2 := by
  have := mul_le_mul_of_nonneg_left (effectiveDuty_le g.cfg).2
    (Nat.cast_nonneg (α := ℚ) g.cfg.window)
  have h' : g.allowance ≤ (w : ℚ) / 2 := by
    rw [Governor.allowance, ← h]
    linarith
  calc (g.allowance : ℝ) ≤ (((w : ℚ) / 2 : ℚ) : ℝ) := Rat.cast_le.mpr h'
    _ = w / 2 := by push_cast; rfl

/-- However the operator turns the duty cycle, no window is keyed for more than half of it
and no hour for more than its budget. -/
theorem reachable_accounted {cfg : AirtimeConfig} (hen : cfg.enabled = true) {s : Transmitter}
    (h : Reachable (system cfg) (fun _ _ => True) s) : Accounted cfg (cfg.window / 2) s := by
  refine (Inductive.ofNext ?_ ?_).reachable h
  · rintro s rfl
    exact accounted_initial cfg _
  · intro s op hs _ he
    exact accounted_step hen hs he (allowance_le_half (config_fields hs.config).2.1)

def KeepsDuty (_ : Transmitter) (op : Op) : Prop := ∀ duty, op ≠ .setDuty duty

theorem reachable_accounted_allowance {cfg : AirtimeConfig} (hen : cfg.enabled = true)
    {s : Transmitter} (h : Reachable (system cfg) KeepsDuty s) :
    Accounted cfg ((Governor.new cfg).allowance : ℝ) s ∧ s.governor.cfg = cfg := by
  refine (Inductive.ofNext (I := fun s =>
    Accounted cfg ((Governor.new cfg).allowance : ℝ) s ∧ s.governor.cfg = cfg) ?_ ?_).reachable h
  · rintro s rfl
    exact ⟨accounted_initial cfg _, rfl⟩
  · rintro s op ⟨hs, hc⟩ hk he
    refine ⟨accounted_step hen hs he (by simp [Governor.allowance, Governor.new, hc]), ?_⟩
    cases op with
    | check cost now => exact (s.governor.checkCost_frame cost now).1.trans hc
    | transmit cost now =>
      have hf := (s.governor.checkCost_frame cost now).1
      exact (Governor.recordCost_spec cost now (by rw [hf, hc]; exact hen)).1.trans (hf.trans hc)
    | setDuty duty => exact absurd rfl (hk duty)

/-- The duty ceiling in every interval of time, not only in those that end at a check. -/
theorem keyed_time_within_ceilings (cfg : AirtimeConfig) (hen : cfg.enabled = true) :
    (∀ s, Reachable (system cfg) (fun _ _ => True) s → ∀ a : ℝ,
      keyed s.sent a (a + cfg.window) ≤ cfg.window / 2 ∧
      (cfg.hourlyBudget ≠ 0 →
        keyed s.sent a (a + (secs 3600 : ℕ)) ≤ cfg.hourlyBudget)) ∧
    (∀ s, Reachable (system cfg) KeepsDuty s → ∀ a : ℝ,
      keyed s.sent a (a + cfg.window) ≤ ((Governor.new cfg).allowance : ℝ)) := by
  constructor
  · intro s h a
    have hs := reachable_accounted hen h
    refine ⟨hs.window_le (by positivity) a, fun hb => ?_⟩
    exact busy_le_of_admitted (Nat.cast_nonneg _) (hs.hour hb) a
  · intro s h a
    refine (reachable_accounted_allowance hen h).1.window_le ?_ a
    have : 0 ≤ (Governor.new cfg).allowance :=
      mul_nonneg (Nat.cast_nonneg _) (effectiveDuty_le _).1
    exact_mod_cast this

/-- The first transmission after a start, in the default configuration. -/
theorem keyed_time_within_ceilings_default :
    keyed [⟨secs 20, secs 20⟩] 0 (0 + (secs 600 : ℕ)) ≤ (secs 600 : ℕ) / 2 := by
  have h : Reachable (system .default) (fun _ _ => True)
      (next ⟨.new .default, 0, []⟩ (.transmit (secs 20) 0)) :=
    (Reachable.initial rfl).fire _ trivial (by decide +kernel)
  exact ((keyed_time_within_ceilings .default rfl).1 _ h 0).1

/-! ### Bursts -/

/-- The claim's own premise: no frame is longer than a whole run. -/
def FitsOneRun (cfg : AirtimeConfig) (_ : Transmitter) : Op → Prop
  | .transmit cost _ => cost ≤ cfg.maxContinuous
  | _ => True

instance (cfg : AirtimeConfig) (s : Transmitter) (op : Op) : Decidable (FitsOneRun cfg s op) := by
  cases op <;> unfold FitsOneRun <;> infer_instance

/-- In addition, a run is only ended by a rest that is as long as the cooldown. -/
def RestsBetweenRuns (cfg : AirtimeConfig) (s : Transmitter) : Op → Prop
  | .transmit cost now => cost ≤ cfg.maxContinuous ∧
      ∀ last ∈ s.governor.lastEnd, last + runGap ≤ now → last + cfg.cooldown ≤ now
  | _ => True

/-- The run counter covers everything keyed since the last rest of a whole cooldown, as long
as neither the gap nor the cooldown has passed. -/
structure RunCounted (cfg : AirtimeConfig) (s : Transmitter) : Prop where
  config : { s.governor.cfg with maxDuty := cfg.maxDuty } = cfg
  sequential : InSequence (s.sent.map interval)
  rested : Rested (cfg.cooldown : ℝ) cfg.maxContinuous (s.sent.map interval)
  last : s.governor.lastEnd = s.sent.head?.map Burst.stop
  covers : ∀ b ∈ s.sent.head?, s.clock < b.stop + runGap → s.clock < b.stop + cfg.cooldown →
    sinceRest (cfg.cooldown : ℝ) (s.sent.map interval) ≤ s.governor.run
  cooling : ∀ u ∈ s.governor.coolingUntil, ∀ b ∈ s.sent.head?, b.stop + cfg.cooldown ≤ u

/-- An accepted configuration rests at least as long as it runs. -/
theorem cooldown_of_safe {cfg : AirtimeConfig} (hen : cfg.enabled = true)
    (hsafe : cfg.checkHardwareSafe = .ok ()) : cfg.maxContinuous ≤ cfg.cooldown := by
  have hd : cfg.burstDuty ≤ 1 / 2 := by
    by_contra hn
    have hlt : hardMaxDuty < cfg.burstDuty := not_le.mp hn
    simp [AirtimeConfig.checkHardwareSafe, hen, hlt] at hsafe
  unfold AirtimeConfig.burstDuty at hd
  split_ifs at hd with hz
  · norm_num at hd
  · have hpos : (0 : ℚ) < cfg.maxContinuous + cfg.cooldown := by
      exact_mod_cast (not_le.mp hz)
    rw [div_le_iff₀ hpos] at hd
    have : (cfg.maxContinuous : ℚ) ≤ cfg.cooldown := by linarith
    exact_mod_cast this

theorem run_counted_initial (cfg : AirtimeConfig) : RunCounted cfg ⟨.new cfg, 0, []⟩ := by
  constructor <;> simp [Governor.new, InSequence, Rested]

/-- Before the gap and the cooldown are over, a check leaves the run counter alone. -/
theorem RunCounted.checked_run {cfg : AirtimeConfig} {s : Transmitter} (h : RunCounted cfg s)
    (cost : ℕ) {now : ℕ} {b : Burst} (hb : b ∈ s.sent.head?) (hgap : now < b.stop + runGap)
    (hcool : now < b.stop + cfg.cooldown) :
    (s.governor.checkCost cost now).2.run = s.governor.run := by
  refine s.governor.checkCost_run cost ?_ fun u hu => hcool.trans_le (h.cooling u hu b hb)
  intro last hl
  rw [h.last, Option.mem_def.mp hb] at hl
  simp only [Option.map_some, Option.mem_some_iff] at hl
  omega

/-- The airtime since the last whole rest, this frame included, is in the run counter. -/
theorem RunCounted.transmit_since_rest {cfg : AirtimeConfig} (hen : cfg.enabled = true)
    {s : Transmitter} (h : RunCounted cfg s) {cost now : ℕ}
    (he : Enabled s (.transmit cost now)) (hg : RestsBetweenRuns cfg s (.transmit cost now)) :
    sinceRest (cfg.cooldown : ℝ) (interval ⟨now + cost, cost⟩ :: s.sent.map interval) ≤
        cfg.maxContinuous ∧
      sinceRest (cfg.cooldown : ℝ) (interval ⟨now + cost, cost⟩ :: s.sent.map interval) ≤
        ((next s (.transmit cost now)).governor.run : ℝ) := by
  obtain ⟨hclock, -, hsend⟩ := he
  obtain ⟨hcen, -, -, hcm, -⟩ := config_fields h.config
  obtain ⟨hc, hlast, -⟩ := s.governor.checkCost_frame cost now
  obtain ⟨-, hfits, -, -⟩ := Governor.checkCost_send (hcen.trans hen) hsend
  have hrun := (Governor.recordCost_spec (g := (s.governor.checkCost cost now).2) cost now
    (by rw [hc]; exact hcen.trans hen)).2.2.1
  have hcost : (cost : ℝ) ≤ cfg.maxContinuous := by exact_mod_cast hg.1
  have alone : (cost : ℝ) ≤ ((next s (.transmit cost now)).governor.run : ℝ) := by
    exact_mod_cast (by rw [next, hrun]; omega)
  cases hs : s.sent with
  | nil =>
    simp only [List.map_nil, sinceRest, interval_length]
    exact ⟨hcost, alone⟩
  | cons b l =>
    have hb : b ∈ s.sent.head? := by simp [hs]
    rw [List.map_cons, sinceRest, interval_length]
    split
    · simp only [add_zero]
      exact ⟨hcost, alone⟩
    · rename_i hrest
      have hcool : now < b.stop + cfg.cooldown := by
        simp only [interval_snd, interval_fst, Nat.cast_add, add_sub_cancel_right, not_le]
          at hrest
        exact_mod_cast hrest
      have hl : s.governor.lastEnd = some b.stop := by simp [h.last, hs]
      have hgap : now < b.stop + runGap := by
        by_contra hn
        have := hg.2 b.stop hl (not_lt.mp hn)
        omega
      have hold := h.covers b hb (hclock.trans_lt hgap) (hclock.trans_lt hcool)
      have hkeep := h.checked_run cost hb hgap hcool
      have hend : ((s.governor.checkCost cost now).2.endRun now).run = s.governor.run := by
        rw [Governor.endRun_run _ (by rw [hlast, hl]; simpa using hgap), hkeep]
      change (cost : ℝ) + _ ≤ _ ∧ (cost : ℝ) + _ ≤ _
      rw [hs, List.map_cons] at hold
      constructor
      · rw [hkeep, hcm] at hfits
        rcases hfits with hfits | hzero
        · have : ((s.governor.run + cost : ℕ) : ℝ) ≤ cfg.maxContinuous := by exact_mod_cast hfits
          push_cast at this
          linarith
        · rw [hzero, Nat.cast_zero] at hold
          linarith
      · rw [next, hrun, hend]
        push_cast
        linarith

theorem run_counted_step {cfg : AirtimeConfig} (hen : cfg.enabled = true) {s : Transmitter}
    {op : Op} (h : RunCounted cfg s) (he : Enabled s op) (hg : RestsBetweenRuns cfg s op) :
    RunCounted cfg (next s op) := by
  cases op with
  | check cost now =>
    obtain ⟨hc, hlast, -⟩ := s.governor.checkCost_frame cost now
    refine ⟨by simpa [next, hc] using h.config, h.sequential, h.rested, hlast.trans h.last, ?_, ?_⟩
    · intro b hb (hgap : now < b.stop + runGap) (hcool : now < b.stop + cfg.cooldown)
      change sinceRest (cfg.cooldown : ℝ) (s.sent.map interval) ≤
        ((s.governor.checkCost cost now).2.run : ℝ)
      rw [h.checked_run cost hb hgap hcool]
      exact h.covers b hb (lt_of_le_of_lt he hgap) (lt_of_le_of_lt he hcool)
    · intro u hu b hb
      exact h.cooling u (s.governor.checkCost_cooling cost now hu) b hb
  | transmit cost now =>
    obtain ⟨hfit, hruns⟩ := h.transmit_since_rest hen he hg
    obtain ⟨hclock, hafter, hsend⟩ := he
    obtain ⟨hcen, -, -, -, hcc⟩ := config_fields h.config
    obtain ⟨hc, -, -⟩ := s.governor.checkCost_frame cost now
    obtain ⟨hnone, -, -, -⟩ := Governor.checkCost_send (hcen.trans hen) hsend
    obtain ⟨hrc, hrl, -, hru, -⟩ := Governor.recordCost_spec
      (g := (s.governor.checkCost cost now).2) cost now (by rw [hc]; exact hcen.trans hen)
    refine ⟨by simpa [next, hrc, hc] using h.config, ?_, ⟨hfit, h.rested⟩, by simp [next, hrl],
      fun _ _ _ _ => hruns, ?_⟩
    · refine List.pairwise_cons.mpr ⟨?_, h.sequential⟩
      intro i hi
      have hhead : ∀ b ∈ s.sent.head?, (interval b).snd ≤ (now : ℝ) := by
        intro b hb
        rw [interval_snd]
        exact_mod_cast hafter b hb
      have hnow : (interval ⟨now + cost, cost⟩).fst = (now : ℝ) := by simp
      rw [hnow]
      cases hs : s.sent with
      | nil => simp [hs] at hi
      | cons b l =>
        have hseq := h.sequential
        rw [hs, List.map_cons] at hi hseq
        have hb := hhead b (by simp [hs])
        rcases List.mem_cons.mp hi with rfl | hi
        · exact hb
        · have hle := (List.pairwise_cons.mp hseq).1 i hi
          exact hle.trans ((interval b).fst_le_snd.trans hb)
    · intro u hu b hb
      simp only [next, List.head?_cons, Option.mem_some_iff] at hb
      subst hb
      rcases hru u hu with hu | rfl
      · simp [hnone] at hu
      · rw [hc, hcc]
  | setDuty duty => exact ⟨h.config, h.sequential, h.rested, h.last, h.covers, h.cooling⟩

/-- Two runs of 20 s, the second let on the air after the gap of 3 s. -/
def shortRest : Transmitter :=
  next (next ⟨.new .default, 0, []⟩ (.transmit (secs 20) 0)) (.transmit (secs 20) (secs 23))

end AirtimeCeilings
