import Rfircd.GovernorAnswers
import Rfircd.TransitionSystem

/-! How long the governor makes a frame wait.
A burst still counts at the very instant that its window has passed, so a frame that waits for it is
asked about once too early. -/
namespace GovernorWaits

open Basics AirtimeGovernor GovernorAnswers TransitionSystem

variable {g : Governor} {cost octets t t' w : ℕ} {limit : ℚ}

/-! ### Waiting for a burst to leave -/

/-- The bursts are newest last. -/
def Ordered (g : Governor) : Prop := g.bursts.Pairwise fun b b' => b.stop ≤ b'.stop

instance (g : Governor) : Decidable (Ordered g) :=
  inferInstanceAs (Decidable (g.bursts.Pairwise fun b b' => b.stop ≤ b'.stop))

theorem spent_inside {l : List Burst} (h : ∀ b ∈ l, t - b.stop ≤ w) :
    spent l t w = (l.map Burst.len).sum := by
  induction l with
  | nil => rfl
  | cons b l ih =>
    obtain ⟨hb, hl⟩ := List.forall_mem_cons.mp h
    rw [spent_cons, if_pos hb, ih hl, List.map_cons, List.sum_cons]

theorem spent_outside {l : List Burst} (h : ∀ b ∈ l, w < t - b.stop) : spent l t w = 0 := by
  induction l with
  | nil => rfl
  | cons b l ih =>
    obtain ⟨hb, hl⟩ := List.forall_mem_cons.mp h
    rw [spent_cons, if_neg (not_le.mpr hb), ih hl]

/-- With the newest last, a frame does not fit exactly as long as the burst counts. -/
theorem over_iff {b : Burst} {after : List Burst} (hordered : Ordered g)
    (h : Leaves g.bursts t w limit cost b after) (ht : t ≤ t') :
    Over g w limit cost t' ↔ t' ≤ b.stop + w := by
  obtain ⟨before, hbursts⟩ := h.burst
  rw [Ordered, hbursts, List.pairwise_append, List.pairwise_cons] at hordered
  obtain ⟨-, ⟨hlater, -⟩, hearlier⟩ := hordered
  have hspent : g.airtimeWithin t' w = spent before t' w + spent (b :: after) t' w := by
    rw [Governor.airtimeWithin, hbursts, spent_append]
  unfold Over
  rw [hspent]
  constructor
  · intro hover
    by_contra hpast
    -- the burst and those before it are out of the window
    have hbefore : spent before t' w = 0 :=
      spent_outside fun x hx => by
        have hx' := hearlier x hx b List.mem_cons_self
        omega
    have hafter : spent after t' w ≤ spent after t w :=
      Deferral.airtimeWithin_anti { g with bursts := after } ht w
    rw [hbefore, zero_add, spent_cons, if_neg (by omega), zero_add] at hover
    have hroom : ((spent after t' w + cost : ℕ) : ℚ) ≤ limit :=
      le_trans (by exact_mod_cast Nat.add_le_add_right hafter cost) h.room
    exact absurd hroom (not_le.mpr hover)
  · intro hcounts
    -- the burst and those after it are in the window, as they were
    have hin : ∀ s ≤ t', ∀ x ∈ b :: after, s - x.stop ≤ w := by
      intro s hs x hx
      rcases List.mem_cons.mp hx with rfl | hx
      · omega
      · have hx' := hlater x hx
        omega
    have hsame : spent (b :: after) t' w = spent (b :: after) t w := by
      rw [spent_inside (hin t' le_rfl), spent_inside (hin t ht)]
    refine lt_of_lt_of_le h.full ?_
    rw [hsame]
    exact_mod_cast Nat.add_le_add_right (Nat.le_add_left _ _) cost

theorem ready_mono (h : Ready g cost t) (ht : t ≤ t') : Ready g cost t' := by
  have hrun : settledRun g t' ≤ settledRun g t := by
    unfold settledRun
    cases hc : g.coolingUntil with
    | none =>
      by_cases he : ended g t = true
      · simp [ended_mono ht he]
      · simp only [if_neg he]
        split_ifs
        · exact Nat.zero_le _
        · exact le_rfl
    | some u =>
      have hu := h.cooled u hc
      have hnow : ¬ t < u := by omega
      have hlater : ¬ t' < u := by omega
      simp [hnow, hlater]
  refine ⟨fun u hu => (h.cooled u hu).trans ht, ?_⟩
  rcases h.run with hfits | hzero
  · left
    omega
  · right
    omega

theorem decision_duty (hready : Ready g cost t) (hover : Over g g.cfg.window g.allowance cost t) :
    decision g cost t = .defer (g.retryDelay t g.cfg.window g.allowance cost) .duty := by
  have hanswers := decision_answers g cost t
  generalize decision g cost t = answer at hanswers ⊢
  cases hanswers with
  | cooling hu hlater => exact absurd (hready.cooled _ hu) (by omega)
  | running _ hlong hrun => exact absurd hready.run (by omega)
  | duty => rfl
  | hour _ hduty => exact absurd hover hduty
  | send _ hduty => exact absurd hover hduty

theorem decision_hour (hready : Ready g cost t) (hduty : ¬ Over g g.cfg.window g.allowance cost t)
    (hset : g.cfg.hourlyBudget ≠ 0)
    (hover : Over g g.cfg.hourlyBudgetWindow g.cfg.hourlyBudget cost t) :
    decision g cost t =
      .defer (g.retryDelay t g.cfg.hourlyBudgetWindow g.cfg.hourlyBudget cost) .hourlyBudget := by
  have hanswers := decision_answers g cost t
  generalize decision g cost t = answer at hanswers ⊢
  cases hanswers with
  | cooling hu hlater => exact absurd (hready.cooled _ hu) (by omega)
  | running _ hlong hrun => exact absurd hready.run (by omega)
  | duty _ hover' => exact absurd hover' hduty
  | hour => rfl
  | send _ _ hhour => exact absurd hover (hhour hset)

theorem deferred_duty_iff (g : Governor) (cost t : ℕ) :
    (∃ d, decision g cost t = .defer d .duty) ↔
      Ready g cost t ∧ Over g g.cfg.window g.allowance cost t := by
  constructor
  · rintro ⟨d, heq⟩
    have hanswers := decision_answers g cost t
    rw [heq] at hanswers
    cases hanswers with
    | duty hready hover => exact ⟨hready, hover⟩
  · rintro ⟨hready, hover⟩
    exact ⟨_, decision_duty hready hover⟩

theorem deferred_hour_iff (g : Governor) (cost t : ℕ) :
    (∃ d, decision g cost t = .defer d .hourlyBudget) ↔
      Ready g cost t ∧ ¬ Over g g.cfg.window g.allowance cost t ∧ g.cfg.hourlyBudget ≠ 0 ∧
        Over g g.cfg.hourlyBudgetWindow g.cfg.hourlyBudget cost t := by
  constructor
  · rintro ⟨d, heq⟩
    have hanswers := decision_answers g cost t
    rw [heq] at hanswers
    cases hanswers with
    | hour hready hduty hset hover => exact ⟨hready, hduty, hset, hover⟩
  · rintro ⟨hready, hduty, hset, hover⟩
    exact ⟨_, decision_hour hready hduty hset hover⟩

/-- The wait is never too long, and long enough when the burst is about to leave. -/
theorem wait_spec (hordered : Ordered g) (hfit : (cost : ℚ) ≤ limit) (h : Over g w limit cost t) :
    (∀ t', t ≤ t' → t' + millis 100 < t + g.retryDelay t w limit cost → Over g w limit cost t') ∧
      (Over g w limit cost (t + g.retryDelay t w limit cost) ↔
        Over g w limit cost (t + millis 100)) := by
  obtain ⟨b, after, hleaves, hdelay⟩ := retryDelay_spec g hfit h
  have hinside := hleaves.inside
  rw [hdelay]
  constructor
  · intro t' ht hearly
    rw [over_iff hordered hleaves ht]
    unfold millis at hearly
    omega
  · rw [over_iff hordered hleaves (Nat.le_add_right _ _),
      over_iff hordered hleaves (Nat.le_add_right _ _)]
    unfold millis
    omega

/-- For a reason that holds exactly while a window is full, the wait is exact when the window has room
a tenth of a second later. -/
theorem wait_exact_iff {reason : DeferReason} (hordered : Ordered g) (hfit : (cost : ℚ) ≤ limit)
    (hover : Over g w limit cost t)
    (hreason : ∀ s, t ≤ s →
      ((∃ d, decision g cost s = .defer d reason) ↔ Over g w limit cost s)) :
    ((∀ d, decision g cost (t + g.retryDelay t w limit cost) ≠ .defer d reason) ∧
      ∀ t', t ≤ t' → t' + millis 100 < t + g.retryDelay t w limit cost →
        ∃ d, decision g cost t' = .defer d reason) ↔
    ¬ Over g w limit cost (t + millis 100) := by
  obtain ⟨hearly, hthen⟩ := wait_spec hordered hfit hover
  have hagain := hreason _ (Nat.le_add_right t (g.retryDelay t w limit cost))
  rw [← hthen, ← hagain]
  constructor
  · rintro ⟨hnone, -⟩ ⟨d, hd⟩
    exact hnone d hd
  · intro hnot
    refine ⟨fun d hd => hnot ⟨d, hd⟩, fun t' ht hlate => ?_⟩
    exact (hreason t' ht).mpr (hearly t' ht hlate)

/-- A frame that is deferred for its airtime is deferred no more when it is asked about again, and
would have been until a tenth of a second before. -/
def Exact (g : Governor) (octets t : ℕ) : Prop :=
  ∀ d reason, (g.check octets t).1 = .defer d reason → reason ≠ .cooldown →
    (∀ d', ((g.check octets t).2.check octets (t + d)).1 ≠ .defer d' reason) ∧
    ∀ t', t ≤ t' → t' + millis 100 < t + d →
      ∃ d', ((g.check octets t).2.check octets t').1 = .defer d' reason

theorem check_eq (he : g.cfg.enabled = true) (octets t : ℕ) :
    g.check octets t = (decision g (g.airtimeFor octets) t, settle g t) :=
  checkCost_eq he _ t

theorem check_check (he : g.cfg.enabled = true) (octets : ℕ) (ht : t ≤ t') :
    ((g.check octets t).2.check octets t').1 = decision g (g.airtimeFor octets) t' := by
  have hsettled : (settle g t).cfg.enabled = true := he
  have hcost : (settle g t).airtimeFor octets = g.airtimeFor octets := rfl
  rw [check_eq he, check_eq hsettled, hcost]
  exact decision_settle g _ ht

/-- The waits are exact as long as whatever a frame waits for leaves the window within a tenth of a
second. -/
theorem exact_iff (hordered : Ordered g) (hduty : (g.airtimeFor octets : ℚ) ≤ g.allowance)
    (hhour : g.cfg.hourlyBudget ≠ 0 → g.airtimeFor octets ≤ g.cfg.hourlyBudget) :
    Exact g octets t ↔ (g.cfg.enabled = true → Ready g (g.airtimeFor octets) t →
      (Over g g.cfg.window g.allowance (g.airtimeFor octets) t →
        ¬ Over g g.cfg.window g.allowance (g.airtimeFor octets) (t + millis 100)) ∧
      (g.cfg.hourlyBudget ≠ 0 → ¬ Over g g.cfg.window g.allowance (g.airtimeFor octets) t →
        Over g g.cfg.hourlyBudgetWindow g.cfg.hourlyBudget (g.airtimeFor octets) t →
        ¬ Over g g.cfg.hourlyBudgetWindow g.cfg.hourlyBudget (g.airtimeFor octets)
          (t + millis 100))) := by
  by_cases hoff : g.cfg.enabled = false
  · refine iff_of_true (fun d reason h => ?_) fun hon => absurd hon (by rw [hoff]; decide)
    rw [Governor.check, Governor.checkCost, if_pos hoff] at h
    cases h
  have he : g.cfg.enabled = true := by simpa using hoff
  -- what is deferred for duty stays ready, and so does what is deferred for the hour
  have hwindow : ∀ (hready : Ready g (g.airtimeFor octets) t) (s : ℕ), t ≤ s →
      ((∃ d, decision g (g.airtimeFor octets) s = .defer d .duty) ↔
        Over g g.cfg.window g.allowance (g.airtimeFor octets) s) := by
    intro hready s hs
    rw [deferred_duty_iff]
    exact and_iff_right (ready_mono hready hs)
  have hbudget : ∀ (hready : Ready g (g.airtimeFor octets) t)
      (hroom : ¬ Over g g.cfg.window g.allowance (g.airtimeFor octets) t)
      (hset : g.cfg.hourlyBudget ≠ 0) (s : ℕ), t ≤ s →
      ((∃ d, decision g (g.airtimeFor octets) s = .defer d .hourlyBudget) ↔
        Over g g.cfg.hourlyBudgetWindow g.cfg.hourlyBudget (g.airtimeFor octets) s) := by
    intro hready hroom hset s hs
    rw [deferred_hour_iff]
    constructor
    · exact fun h => h.2.2.2
    · exact fun h => ⟨ready_mono hready hs, fun h' => hroom (h'.mono hs), hset, h⟩
  have hchecks : ∀ s, t ≤ s → ((g.check octets t).2.check octets s).1 =
      decision g (g.airtimeFor octets) s := fun s hs => check_check he octets hs
  have hcheck : (g.check octets t).1 = decision g (g.airtimeFor octets) t := by rw [check_eq he]
  have hexact : ∀ {d : ℕ} {reason : DeferReason},
      ((∀ d', ((g.check octets t).2.check octets (t + d)).1 ≠ .defer d' reason) ∧
        ∀ t', t ≤ t' → t' + millis 100 < t + d →
          ∃ d', ((g.check octets t).2.check octets t').1 = .defer d' reason) ↔
      ((∀ d', decision g (g.airtimeFor octets) (t + d) ≠ .defer d' reason) ∧
        ∀ t', t ≤ t' → t' + millis 100 < t + d →
          ∃ d', decision g (g.airtimeFor octets) t' = .defer d' reason) := by
    intro d reason
    rw [hchecks _ (Nat.le_add_right t d)]
    refine and_congr_right fun _ => forall_congr' fun t' => ?_
    exact forall_congr' fun ht => by rw [hchecks t' ht]
  simp only [he, true_imp_iff]
  constructor
  · intro h hready
    refine ⟨fun hover => ?_, fun hset hroom hover => ?_⟩
    · have hd := hcheck.trans (decision_duty hready hover)
      exact (wait_exact_iff hordered hduty hover (hwindow hready)).mp
        (hexact.mp (h _ _ hd (by decide)))
    · have hd := hcheck.trans (decision_hour hready hroom hset hover)
      exact (wait_exact_iff hordered (Nat.cast_le.mpr (hhour hset)) hover
        (hbudget hready hroom hset)).mp (hexact.mp (h _ _ hd (by decide)))
  · intro h d reason hd hreason
    have hanswers := decision_answers g (g.airtimeFor octets) t
    rw [← hcheck, hd] at hanswers
    rw [hexact]
    cases hanswers with
    | cooling => exact absurd rfl hreason
    | running => exact absurd rfl hreason
    | duty hready hover =>
      exact (wait_exact_iff hordered hduty hover (hwindow hready)).mpr ((h hready).1 hover)
    | hour hready hroom hset hover =>
      exact (wait_exact_iff hordered (Nat.cast_le.mpr (hhour hset)) hover
        (hbudget hready hroom hset)).mpr ((h hready).2 hset hroom hover)

/-- A governor that has keyed up for a hundred and fifty seconds, and forgets them soon. -/
def keyedUp : Governor :=
  { Governor.new .default with bursts := [⟨secs 200, secs 150⟩], lastEnd := some (secs 200) }

theorem exact_iff_leaving : Exact keyedUp 40 (secs 800 - millis 50) :=
  (exact_iff (by decide) (by decide +kernel) (by decide +kernel)).mpr
    fun _ _ => ⟨fun _ => by unfold Over; decide +kernel, fun _ hroom => absurd (by
      unfold Over; decide +kernel) hroom⟩

/-- A station that may send for half of twenty seconds. -/
def halfTime : AirtimeConfig := { AirtimeConfig.default with window := secs 20, maxDuty := 1 / 2 }

/-- After one frame of two hundred octets, the next one is asked about when the first one still
counts, and is asked to wait again. -/
theorem asked_too_early :
    let g := ((Governor.new halfTime).record 200 0).2
    Ordered g ∧ (g.airtimeFor 200 : ℚ) ≤ g.allowance ∧ g.airtimeFor 200 ≤ g.cfg.hourlyBudget ∧
      (g.check 200 (secs 10)).1 = .defer 16412000000 .duty ∧
      ((g.check 200 (secs 10)).2.check 200 (secs 10 + 16412000000)).1 = .defer (millis 100) .duty ∧
      ¬ Exact g 200 (secs 10) := by
  intro g
  have hfirst : (g.check 200 (secs 10)).1 = .defer 16412000000 .duty := by decide +kernel
  have hagain : ((g.check 200 (secs 10)).2.check 200 (secs 10 + 16412000000)).1 =
      .defer (millis 100) .duty := by decide +kernel
  refine ⟨by decide +kernel, by decide +kernel, by decide +kernel, hfirst, hagain, fun h => ?_⟩
  exact (h _ _ hfirst (by decide)).1 _ hagain

/-! ### Runs -/

/-- A governor, the time of the last operation, and when the last transmission ends. `cleared` says
whether a check has answered `send` since. -/
structure Station where
  governor : Governor
  clock : ℕ
  latest : Option ℕ
  cleared : Bool

inductive Op where
  | check (octets now : ℕ)
  | record (octets now : ℕ)
  | setDuty (duty : ℚ)

def Enabled (s : Station) : Op → Prop
  | .check _ now => s.clock ≤ now
  | .record _ now => s.clock ≤ now
  | .setDuty _ => True

/-- Transmissions may overlap; the last one is the one that ends last. -/
def Station.next (s : Station) : Op → Station
  | .check octets now =>
    let (answer, governor) := s.governor.check octets now
    ⟨governor, now, s.latest, s.cleared || decide (answer = .send)⟩
  | .record octets now =>
    let stop := now + s.governor.airtimeFor octets
    ⟨(s.governor.record octets now).2, now, some (s.latest.elim stop (max stop)), false⟩
  | .setDuty duty => { s with governor := s.governor.setDuty duty }

def system (cfg : AirtimeConfig) : System Station Op :=
  .ofNext (· = ⟨.new cfg, 0, none, false⟩) Enabled Station.next

/-- A transmission begins when the ones before it are over. -/
def InTurn (s : Station) : Op → Prop
  | .record _ now => ∀ stop ∈ s.latest, stop ≤ now
  | _ => True

/-- Nothing that the governor remembers ends after the last transmission. -/
structure Timed (latest : Option ℕ) (g : Governor) : Prop where
  bursts : ∀ b ∈ g.bursts, ∃ stop ∈ latest, b.stop ≤ stop
  last : ∀ last ∈ g.lastEnd, ∃ stop ∈ latest, last ≤ stop
  cooling : ∀ u ∈ g.coolingUntil, ∃ stop ∈ latest, u ≤ stop + g.cfg.cooldown
  run : g.lastEnd = none → g.run = 0

theorem timed_new (cfg : AirtimeConfig) : Timed none (Governor.new cfg) where
  bursts b hb := absurd hb List.not_mem_nil
  last _ h := by cases h
  cooling _ h := by cases h
  run _ := rfl

theorem Timed.settle {latest : Option ℕ} (h : Timed latest g) (t : ℕ) : Timed latest (settle g t) where
  bursts b hb := h.bursts b ((List.dropWhile_sublist _).mem hb)
  last := h.last
  cooling u hu := h.cooling u (Option.filter_eq_some_iff.mp hu).1
  run hnone := by
    have hrun := h.run hnone
    change settledRun g t = 0
    unfold settledRun
    rw [hrun]
    cases g.coolingUntil with
    | none => exact ite_self 0
    | some u => exact ite_self 0

theorem Timed.later {latest : Option ℕ} {stop : ℕ} (h : Timed latest g) :
    Timed (some (latest.elim stop (max stop))) g := by
  have hlater : ∀ {n k : ℕ}, (∃ s ∈ latest, n ≤ s + k) → n ≤ latest.elim stop (max stop) + k := by
    rintro n k ⟨s, hs, hle⟩
    obtain rfl := Option.mem_def.mp hs
    exact hle.trans (Nat.add_le_add_right (le_max_right _ _) k)
  exact ⟨fun b hb => ⟨_, rfl, hlater (k := 0) (h.bursts b hb)⟩,
    fun last hlast => ⟨_, rfl, hlater (k := 0) (h.last last hlast)⟩,
    fun u hu => ⟨_, rfl, hlater (h.cooling u hu)⟩, h.run⟩

theorem Timed.recorded {latest : Option ℕ} (h : Timed latest g) (cost t : ℕ) :
    Timed (some (latest.elim (t + cost) (max (t + cost)))) (recorded g cost t) := by
  have hnew : t + cost ≤ latest.elim (t + cost) (max (t + cost)) := by
    cases latest with
    | none => exact le_rfl
    | some stop => exact le_max_left _ _
  have hlater : Timed (some (latest.elim (t + cost) (max (t + cost)))) g := h.later
  refine ⟨fun b hb => ?_, fun last hlast => ⟨_, rfl, ?_⟩, fun u hu => ?_, ?_⟩
  · rcases List.mem_append.mp ((List.dropWhile_sublist _).mem hb) with hb | hb
    · exact hlater.bursts b hb
    · obtain rfl := List.mem_singleton.mp hb
      exact ⟨_, rfl, hnew⟩
  · obtain rfl := Option.some.inj hlast
    exact hnew
  · change u ∈ (if _ then _ else _ : Option ℕ) at hu
    split_ifs at hu
    · obtain rfl := Option.some.inj hu
      exact ⟨_, rfl, Nat.add_le_add_right hnew _⟩
    · exact hlater.cooling u hu
  · intro hnone
    cases hnone

theorem disabled_check (hoff : g.cfg.enabled = false) (octets t : ℕ) :
    g.check octets t = (.send, g) := by
  rw [Governor.check, Governor.checkCost, if_pos hoff]

theorem disabled_record (hoff : g.cfg.enabled = false) (octets t : ℕ) :
    (g.record octets t).2 = g := by
  rw [Governor.record, Governor.recordCost, if_pos hoff]

theorem next_timed {s : Station} (h : Timed s.latest s.governor) (op : Op) :
    Timed (s.next op).latest (s.next op).governor := by
  by_cases hoff : s.governor.cfg.enabled = false
  · cases op with
    | check octets now => simpa [Station.next, disabled_check hoff] using h
    | record octets now => simpa [Station.next, disabled_record hoff] using h.later
    | setDuty duty => exact ⟨h.bursts, h.last, h.cooling, h.run⟩
  have he : s.governor.cfg.enabled = true := by simpa using hoff
  cases op with
  | check octets now => simpa [Station.next, check_eq he] using h.settle now
  | record octets now =>
    have hrecord : (s.governor.record octets now).2 = _ := recordCost_eq he _ now
    simpa [Station.next, hrecord] using h.recorded (s.governor.airtimeFor octets) now
  | setDuty duty => exact ⟨h.bursts, h.last, h.cooling, h.run⟩

theorem reachable_timed {cfg : AirtimeConfig} {guard : Station → Op → Prop} {s : Station}
    (h : Reachable (system cfg) guard s) : Timed s.latest s.governor := by
  have hinductive : Inductive (system cfg) guard fun s => Timed s.latest s.governor := by
    refine .ofNext (fun s hs => ?_) fun s op hs _ _ => next_timed hs op
    rw [hs]
    exact timed_new cfg
  exact hinductive.reachable h

theorem ordered_recorded (hordered : Ordered g) (h : ∀ b ∈ g.bursts, b.stop ≤ t + cost) :
    Ordered (recorded g cost t) := by
  have happend : (g.bursts ++ [Burst.mk (t + cost) cost]).Pairwise fun b b' => b.stop ≤ b'.stop := by
    rw [List.pairwise_append]
    refine ⟨hordered, List.pairwise_singleton _ _, fun b hb b' hb' => ?_⟩
    obtain rfl := List.mem_singleton.mp hb'
    exact h b hb
  exact happend.sublist (List.dropWhile_sublist _)

/-- Where transmissions wait for their turn, the bursts are newest last. -/
theorem reachable_ordered {cfg : AirtimeConfig} {s : Station}
    (h : Reachable (system cfg) InTurn s) : Ordered s.governor := by
  have hinductive : Inductive (system cfg) InTurn
      fun s => Timed s.latest s.governor ∧ Ordered s.governor := by
    refine .ofNext (fun s hs => ?_) fun s op ⟨htimed, hordered⟩ hturn _ =>
      ⟨next_timed htimed op, ?_⟩
    · rw [hs]
      exact ⟨timed_new cfg, List.Pairwise.nil⟩
    by_cases hoff : s.governor.cfg.enabled = false
    · cases op with
      | check octets now => simpa [Station.next, disabled_check hoff] using hordered
      | record octets now => simpa [Station.next, disabled_record hoff] using hordered
      | setDuty duty => exact hordered
    have he : s.governor.cfg.enabled = true := by simpa using hoff
    cases op with
    | check octets now =>
      have hsettled : Ordered (settle s.governor now) :=
        hordered.sublist (List.dropWhile_sublist _)
      simpa [Station.next, check_eq he] using hsettled
    | record octets now =>
      have hrecord : (s.governor.record octets now).2 = _ := recordCost_eq he _ now
      change Ordered (s.governor.record octets now).2
      rw [hrecord]
      refine ordered_recorded hordered fun b hb => ?_
      obtain ⟨stop, hstop, hle⟩ := htimed.bursts b hb
      have hbegun := hturn stop hstop
      omega
    | setDuty duty => exact hordered
  exact (hinductive.reachable h).2

/-! ### The loop that asks, waits and asks again -/

/-- One turn: a frame that is deferred is asked about again after the time that was answered. -/
def ask (octets : ℕ) (p : Governor × ℕ) : Governor × ℕ :=
  match p.1.check octets p.2 with
  | (.send, g) => (g, p.2)
  | (.defer d _, g) => (g, p.2 + d)

/-- The longest of the spans that the governor looks back. -/
def lookBack (cfg : AirtimeConfig) : ℕ := max cfg.window (max (secs 3600) (max cfg.cooldown runGap))

/-- The wait for a window ends at most a tenth of a second after the window of some burst. -/
theorem retryDelay_bounds {latest : Option ℕ} (h : Timed latest g) (hfit : (cost : ℚ) ≤ limit)
    (hover : Over g w limit cost t) :
    0 < g.retryDelay t w limit cost ∧
      ∃ stop ∈ latest, t + g.retryDelay t w limit cost ≤ stop + w + millis 100 := by
  obtain ⟨b, after, hleaves, hdelay⟩ := retryDelay_spec g hfit hover
  obtain ⟨before, hbursts⟩ := hleaves.burst
  obtain ⟨stop, hstop, hle⟩ := h.bursts b (by rw [hbursts]; simp)
  have hinside := hleaves.inside
  refine ⟨Deferral.retryDelay_pos g t w limit cost, stop, hstop, ?_⟩
  rw [hdelay]
  unfold millis
  omega

theorem answers_bounds {latest : Option ℕ} {d : ℕ} {reason : DeferReason} (h : Timed latest g)
    (hduty : (cost : ℚ) ≤ g.allowance) (hhour : g.cfg.hourlyBudget ≠ 0 → cost ≤ g.cfg.hourlyBudget)
    (hanswers : Answers g cost t (.defer d reason)) :
    0 < d ∧ ∃ stop ∈ latest, t + d ≤ stop + lookBack g.cfg + millis 100 := by
  have hwindow : g.cfg.window ≤ lookBack g.cfg := le_max_left _ _
  have hbudget : g.cfg.hourlyBudgetWindow ≤ lookBack g.cfg := by
    unfold AirtimeConfig.hourlyBudgetWindow lookBack
    split_ifs
    · exact Nat.zero_le _
    · exact le_max_of_le_right (le_max_left _ _)
  have hcooldown : g.cfg.cooldown ≤ lookBack g.cfg :=
    le_max_of_le_right (le_max_of_le_right (le_max_left _ _))
  have hgap : runGap ≤ lookBack g.cfg := le_max_of_le_right (le_max_of_le_right (le_max_right _ _))
  cases hanswers with
  | @cooling u hu hlater =>
    obtain ⟨stop, hstop, hle⟩ := h.cooling u hu
    exact ⟨by omega, stop, hstop, by omega⟩
  | running hcooled hlong hrun =>
    -- the run has not ended, so the gap after the last transmission is not over
    have hrunning : ended g t = false ∧ g.run ≠ 0 := by
      unfold settledRun at hrun
      cases hc : g.coolingUntil with
      | none =>
        rw [hc] at hrun
        by_cases he : ended g t = true
        · simp [he] at hrun
        · simp only [he] at hrun
          exact ⟨by simpa using he, by simpa using hrun.ne'⟩
      | some u =>
        rw [hc] at hrun
        have hu := hcooled u hc
        simp [show ¬ t < u by omega] at hrun
    cases hlast : g.lastEnd with
    | none => exact absurd (h.run hlast) hrunning.2
    | some last =>
      obtain ⟨stop, hstop, hle⟩ := h.last last hlast
      have hnot : ¬ runGap ≤ t - last := by
        have hfalse := hrunning.1
        rw [ended, hlast, Option.any_some] at hfalse
        simpa using hfalse
      rw [Option.getD_some]
      generalize runGap = gap at hgap hnot ⊢
      have hmillis : millis 1 ≤ millis 100 ∧ 0 < millis 1 := by decide
      exact ⟨lt_max_of_lt_right hmillis.2, stop, hstop, by omega⟩
  | duty hready hover =>
    obtain ⟨hpos, stop, hstop, hle⟩ := retryDelay_bounds h hduty hover
    exact ⟨hpos, stop, hstop, by omega⟩
  | hour hready hroom hset hover =>
    obtain ⟨hpos, stop, hstop, hle⟩ := retryDelay_bounds h (Nat.cast_le.mpr (hhour hset)) hover
    exact ⟨hpos, stop, hstop, by omega⟩

/-- Every wait that is answered ends later than now, and none of them after a fixed time. -/
theorem waiting_ends_by {latest : Option ℕ} {bound : ℕ}
    (hbound : ∀ stop ∈ latest, stop + lookBack g.cfg + millis 100 ≤ bound) (h : Timed latest g)
    (hduty : (g.airtimeFor octets : ℚ) ≤ g.allowance)
    (hhour : g.cfg.hourlyBudget ≠ 0 → g.airtimeFor octets ≤ g.cfg.hourlyBudget) :
    ∃ k, (((ask octets)^[k] (g, t)).1.check octets ((ask octets)^[k] (g, t)).2).1 = .send ∧
      ∀ j, 0 < j → j ≤ k → ∃ stop ∈ latest,
        ((ask octets)^[j] (g, t)).2 ≤ stop + lookBack g.cfg + millis 100 := by
  induction hn : bound + 1 - t using Nat.strong_induction_on generalizing g t with
  | _ n ih =>
    by_cases hsend : (g.check octets t).1 = .send
    · exact ⟨0, hsend, fun j hpos hle => absurd hpos (by omega)⟩
    have he : g.cfg.enabled = true := by
      by_contra hoff
      rw [disabled_check (by simpa using hoff)] at hsend
      exact hsend rfl
    rw [check_eq he] at hsend
    have hanswers := decision_answers g (g.airtimeFor octets) t
    obtain ⟨d, reason, hd⟩ : ∃ d reason, decision g (g.airtimeFor octets) t = .defer d reason := by
      cases hdecision : decision g (g.airtimeFor octets) t with
      | send => exact absurd hdecision hsend
      | defer d reason => exact ⟨d, reason, rfl⟩
    have hask : ask octets (g, t) = (settle g t, t + d) := by
      unfold ask
      rw [check_eq he, hd]
    rw [hd] at hanswers
    obtain ⟨hpos, stop, hstop, hle⟩ := answers_bounds h hduty hhour hanswers
    have hlater := hbound stop hstop
    have hbound' : ∀ stop ∈ latest, stop + lookBack (settle g t).cfg + millis 100 ≤ bound := hbound
    obtain ⟨k, hk, htimes⟩ := ih (bound + 1 - (t + d)) (by omega) hbound' (h.settle t) hduty hhour rfl
    refine ⟨k + 1, ?_, fun j hj hjk => ?_⟩
    · rw [Function.iterate_succ_apply, hask]
      exact hk
    · obtain ⟨j, rfl⟩ : ∃ i, j = i + 1 := ⟨j - 1, by omega⟩
      rw [Function.iterate_succ_apply, hask]
      cases j with
      | zero => exact ⟨stop, hstop, hle⟩
      | succ j => exact htimes (j + 1) (by omega) (by omega)

/-- In every state of every run, a frame that fits the limits alone is let through after finitely many
asks, and each ask after a wait comes soon after the last transmission has left the windows. -/
theorem waiting_ends {cfg : AirtimeConfig} {s : Station}
    (h : Reachable (system cfg) (fun _ _ => True) s) (octets t : ℕ)
    (hduty : (s.governor.airtimeFor octets : ℚ) ≤ s.governor.allowance)
    (hhour : s.governor.cfg.hourlyBudget ≠ 0 →
      s.governor.airtimeFor octets ≤ s.governor.cfg.hourlyBudget) :
    ∃ k, (((ask octets)^[k] (s.governor, t)).1.check octets
        ((ask octets)^[k] (s.governor, t)).2).1 = .send ∧
      ∀ j, 0 < j → j ≤ k → ∃ stop ∈ s.latest, ((ask octets)^[j] (s.governor, t)).2 ≤
        stop + lookBack s.governor.cfg + millis 200 := by
  have hbound : ∀ stop ∈ s.latest, stop + lookBack s.governor.cfg + millis 100 ≤
      s.latest.getD 0 + lookBack s.governor.cfg + millis 100 := by
    intro stop hstop
    rw [Option.mem_def.mp hstop]
    exact le_rfl
  obtain ⟨k, hk, htimes⟩ := waiting_ends_by hbound (reachable_timed h) hduty hhour
  refine ⟨k, hk, fun j hj hjk => ?_⟩
  obtain ⟨stop, hstop, hle⟩ := htimes j hj hjk
  refine ⟨stop, hstop, hle.trans ?_⟩
  unfold millis
  omega

theorem waiting_ends_second :
    let s := Station.next ⟨.new halfTime, 0, none, false⟩ (.record 200 0)
    ∃ k, (((ask 200)^[k] (s.governor, secs 10)).1.check 200
        ((ask 200)^[k] (s.governor, secs 10)).2).1 = .send ∧
      ∀ j, 0 < j → j ≤ k → ∃ stop ∈ s.latest, ((ask 200)^[j] (s.governor, secs 10)).2 ≤
        stop + lookBack s.governor.cfg + millis 200 := by
  have hstart : Reachable (system halfTime) (fun _ _ => True) ⟨.new halfTime, 0, none, false⟩ :=
    .initial rfl
  exact waiting_ends (hstart.fire (.record 200 0) trivial (Nat.zero_le _)) 200 (secs 10)
    (by decide +kernel) (by decide +kernel)

end GovernorWaits
