import Rfircd.GovernorWaits

/-! Asking the governor.
`check` changes the governor and `time_until_clear` does not; they agree unless a cooldown that is over
is still on record. A check that is asked besides changes no later answer. -/
namespace GovernorQueries

open Basics AirtimeGovernor GovernorAnswers GovernorWaits TransitionSystem

variable {g : Governor} {cost octets t t' : ℕ}

/-! ### The two ways of asking -/

/-- The frame does not fit in what is left of a run that no gap has ended. -/
def HeldByRun (g : Governor) (cost t : ℕ) : Prop :=
  ended g t = false ∧ 0 < g.run ∧ g.cfg.maxContinuous < g.run + cost

/-- Both windows have room for the frame. -/
def Room (g : Governor) (cost t : ℕ) : Prop :=
  ¬ Over g g.cfg.window g.allowance cost t ∧
    (g.cfg.hourlyBudget ≠ 0 → ¬ Over g g.cfg.hourlyBudgetWindow g.cfg.hourlyBudget cost t)

theorem decision_send_iff (g : Governor) (cost t : ℕ) :
    decision g cost t = .send ↔ Ready g cost t ∧ Room g cost t := by
  have hanswers := decision_answers g cost t
  generalize decision g cost t = answer at hanswers
  constructor
  · rintro rfl
    cases hanswers with
    | send hready hduty hhour => exact ⟨hready, hduty, hhour⟩
  · rintro ⟨hready, hduty, hhour⟩
    cases hanswers with
    | cooling hu hlater => exact absurd (hready.cooled _ hu) (by omega)
    | running _ hlong hrun => exact absurd hready.run (by omega)
    | duty _ hover => exact absurd hover hduty
    | hour _ _ hset hover => exact absurd hover (hhour hset)
    | send => rfl

theorem raised_eq_zero {p : Prop} [Decidable p] {wait d : ℕ} (h : p → 0 < d) :
    (if p then max wait d else wait) = 0 ↔ wait = 0 ∧ ¬ p := by
  by_cases hp : p
  · have hpos := h hp
    rw [if_pos hp]
    constructor
    · intro hzero
      omega
    · exact fun hzero => absurd hp hzero.2
  · rw [if_neg hp]
    exact ⟨fun hzero => ⟨hzero, hp⟩, fun hzero => hzero.1⟩

theorem running_eq (g : Governor) (t : ℕ) (hidle : g.lastEnd = none → g.run = 0) :
    (if (g.lastEnd.map fun l => decide (runGap ≤ t - l)).getD true then 0 else g.run) =
      if ended g t then 0 else g.run := by
  unfold ended
  cases hlast : g.lastEnd with
  | none => simp [hidle hlast]
  | some last => rfl

/-- The query finds the way clear when nothing on record holds the frame back. -/
theorem timeUntilClear_eq_zero_iff (he : g.cfg.enabled = true) (hidle : g.lastEnd = none → g.run = 0) :
    g.timeUntilClear octets t = 0 ↔ (∀ u ∈ g.coolingUntil, u ≤ t) ∧
      ¬ HeldByRun g (g.airtimeFor octets) t ∧ Room g (g.airtimeFor octets) t := by
  have hcooling : (g.coolingUntil.map (· - t)).getD 0 = 0 ↔ ∀ u ∈ g.coolingUntil, u ≤ t := by
    cases g.coolingUntil with
    | none => simp
    | some u => simp [Nat.sub_eq_zero_iff_le]
  have hrun : (0 < (if ended g t then 0 else g.run) ∧
      g.cfg.maxContinuous < (if ended g t then 0 else g.run) + g.airtimeFor octets) ↔
      HeldByRun g (g.airtimeFor octets) t := by
    unfold HeldByRun
    by_cases hended : ended g t = true
    · simp [hended]
    · simp [hended]
  have hgap : HeldByRun g (g.airtimeFor octets) t → 0 < g.lastEnd.getD t + runGap - t := by
    rintro ⟨hended, hpos, -⟩
    cases hlast : g.lastEnd with
    | none => exact absurd (hidle hlast) hpos.ne'
    | some last =>
      have hnot : ¬ runGap ≤ t - last := by
        rw [ended, hlast, Option.any_some] at hended
        simpa using hended
      rw [Option.getD_some]
      generalize runGap = gap at hnot ⊢
      omega
  unfold Governor.timeUntilClear
  rw [if_neg (by rw [he]; decide)]
  dsimp only
  rw [running_eq g t hidle, raised_eq_zero fun _ => Deferral.retryDelay_pos .., raised_eq_zero fun _ =>
    Deferral.retryDelay_pos .., raised_eq_zero fun h => hgap (hrun.mp h), hrun, hcooling]
  unfold Room Over
  rw [not_and, and_assoc, and_assoc]
  simp only [Nat.cast_lt]

/-- A cooldown is over and still on record, and the query holds the frame back for the run that the
cooldown was for. -/
structure Stale (g : Governor) (octets t : ℕ) : Prop where
  enabled : g.cfg.enabled = true
  cooled : ∃ u ∈ g.coolingUntil, u ≤ t
  held : HeldByRun g (g.airtimeFor octets) t
  room : Room g (g.airtimeFor octets) t

theorem settledRun_cooled (hcooled : ∃ u ∈ g.coolingUntil, u ≤ t) : settledRun g t = 0 := by
  obtain ⟨u, hu, hle⟩ := hcooled
  unfold settledRun
  rw [Option.mem_def.mp hu]
  exact if_neg (not_lt.mpr hle)

/-- The two ways of asking agree except about such a frame. -/
theorem agree_iff (hidle : g.lastEnd = none → g.run = 0) (octets t : ℕ) :
    (g.timeUntilClear octets t = 0 ↔ (g.check octets t).1 = .send) ↔ ¬ Stale g octets t := by
  by_cases hoff : g.cfg.enabled = false
  · have hzero : g.timeUntilClear octets t = 0 := by rw [Governor.timeUntilClear, if_pos hoff]
    rw [hzero, disabled_check hoff]
    exact iff_of_true (iff_of_true rfl rfl) fun h => absurd h.enabled (by rw [hoff]; decide)
  have he : g.cfg.enabled = true := by simpa using hoff
  rw [timeUntilClear_eq_zero_iff he hidle, check_eq he, decision_send_iff]
  constructor
  · rintro hagree ⟨-, hcooled, hheld, hroom⟩
    have hready : Ready g (g.airtimeFor octets) t := by
      refine ⟨fun u hu => ?_, .inr (settledRun_cooled hcooled)⟩
      obtain ⟨u', hu', hle⟩ := hcooled
      obtain rfl := Option.mem_unique hu hu'
      exact hle
    exact (hagree.mpr ⟨hready, hroom⟩).2.1 hheld
  · intro hfresh
    constructor
    · rintro ⟨hcooled, hfree, hroom⟩
      refine ⟨⟨hcooled, ?_⟩, hroom⟩
      by_cases hnone : ∃ u ∈ g.coolingUntil, u ≤ t
      · exact .inr (settledRun_cooled hnone)
      · have hno : g.coolingUntil = none := by
          rw [Option.eq_none_iff_forall_not_mem]
          exact fun u hu => hnone ⟨u, hu, hcooled u hu⟩
        simp only [settledRun, hno]
        unfold HeldByRun at hfree
        by_cases hended : ended g t = true
        · simp [hended]
        · simp only [hended, Bool.false_eq_true, if_false, true_and] at hfree ⊢
          omega
    · rintro ⟨hready, hroom⟩
      refine ⟨hready.cooled, fun hheld => ?_, hroom⟩
      by_cases hcooled : ∃ u ∈ g.coolingUntil, u ≤ t
      · exact hfresh ⟨he, hcooled, hheld, hroom⟩
      · have hno : g.coolingUntil = none := by
          rw [Option.eq_none_iff_forall_not_mem]
          exact fun u hu => hcooled ⟨u, hu, hready.cooled u hu⟩
        obtain ⟨hended, hpos, hlong⟩ := hheld
        have hrun := hready.run
        simp only [settledRun, hno, hended, Bool.false_eq_true, if_false] at hrun
        omega

/-! ### Runs in which nothing is sent unasked -/

/-- What is recorded was let through by a check. -/
def LetThrough (s : Station) : Op → Prop
  | .record _ _ => s.cleared = true
  | _ => True

/-- The cooldown on record is that of the last transmission, and there is none when a check has let a
frame through. -/
structure InStep (cfg : AirtimeConfig) (s : Station) : Prop where
  cooldown : s.governor.cfg.cooldown = cfg.cooldown
  cooling : ∀ u ∈ s.governor.coolingUntil, ∃ last ∈ s.governor.lastEnd, u = last + cfg.cooldown
  cleared : s.governor.cfg.enabled = true → s.cleared = true → s.governor.coolingUntil = none

theorem settle_cooling_of_send (h : decision g cost t = .send) : (settle g t).coolingUntil = none := by
  have hcooled := ((decision_send_iff g cost t).mp h).1.cooled
  exact Option.filter_eq_none_iff.mpr fun u hu => by simpa using hcooled u hu

theorem settle_cooling_none (h : g.coolingUntil = none) (t : ℕ) : (settle g t).coolingUntil = none := by
  rw [settle, h]
  rfl

theorem InStep.next {cfg : AirtimeConfig} {s : Station} (h : InStep cfg s) (op : Op)
    (hasked : LetThrough s op) : InStep cfg (s.next op) := by
  by_cases hoff : s.governor.cfg.enabled = false
  · have hnot : ¬ s.governor.cfg.enabled = true := by rw [hoff]; decide
    cases op with
    | check octets now =>
      have hsame : (s.next (.check octets now)).governor = s.governor := by
        simp [Station.next, disabled_check hoff]
      exact ⟨by rw [hsame, h.cooldown], by rw [hsame]; exact h.cooling,
        fun hon => absurd (by rwa [hsame] at hon) hnot⟩
    | record octets now =>
      have hsame : (s.next (.record octets now)).governor = s.governor := disabled_record hoff ..
      exact ⟨by rw [hsame, h.cooldown], by rw [hsame]; exact h.cooling,
        fun hon => absurd (by rwa [hsame] at hon) hnot⟩
    | setDuty duty => exact ⟨h.cooldown, h.cooling, h.cleared⟩
  have he : s.governor.cfg.enabled = true := by simpa using hoff
  cases op with
  | check octets now =>
    have hnext : s.next (.check octets now) = ⟨settle s.governor now, now, s.latest, s.cleared ||
        decide (decision s.governor (s.governor.airtimeFor octets) now = .send)⟩ := by
      simp [Station.next, check_eq he]
    rw [hnext]
    refine ⟨h.cooldown, fun u hu => h.cooling u (Option.filter_eq_some_iff.mp hu).1, fun _ hnow => ?_⟩
    rcases Bool.or_eq_true_iff.mp hnow with hbefore | hsend
    · exact settle_cooling_none (h.cleared he hbefore) now
    · exact settle_cooling_of_send (of_decide_eq_true hsend)
  | record octets now =>
    have hrecord : (s.next (.record octets now)).governor =
        recorded s.governor (s.governor.airtimeFor octets) now := recordCost_eq he ..
    refine ⟨by rw [hrecord]; exact h.cooldown, fun u hu => ?_, fun _ hcleared => ?_⟩
    · rw [hrecord] at hu ⊢
      refine ⟨_, rfl, ?_⟩
      change u ∈ (if _ then _ else _ : Option ℕ) at hu
      rw [h.cleared he hasked, h.cooldown] at hu
      split_ifs at hu
      · exact (Option.some.inj hu).symm
      · cases hu
    · cases hcleared
  | setDuty duty => exact ⟨h.cooldown, h.cooling, h.cleared⟩

theorem reachable_inStep {cfg : AirtimeConfig} {s : Station}
    (h : Reachable (system cfg) LetThrough s) : InStep cfg s := by
  have hinductive : Inductive (system cfg) LetThrough (InStep cfg) := by
    refine .ofNext (fun s hs => ?_) fun s op hs hasked _ => hs.next op hasked
    rw [hs]
    exact ⟨rfl, fun u hu => (by cases hu), fun _ _ => rfl⟩
  exact hinductive.reachable h

/-- A cooldown as long as the gap outlasts the run. -/
theorem InStep.not_stale {cfg : AirtimeConfig} {s : Station} (h : InStep cfg s)
    (hlong : runGap ≤ cfg.cooldown) (octets t : ℕ) : ¬ Stale s.governor octets t := by
  intro hstale
  obtain ⟨u, hu, hle⟩ := hstale.cooled
  obtain ⟨last, hlast, rfl⟩ := h.cooling u hu
  have hended := hstale.held.1
  rw [ended, Option.mem_def.mp hlast, Option.any_some] at hended
  have hnot : ¬ runGap ≤ t - last := by simpa using hended
  generalize runGap = gap at hlong hnot
  omega

/-! ### Extra checks -/

/-- The answers to the checks of a run, apart from those that are asked besides. -/
def answers (s : Station) : List (Op × Bool) → List TxDecision
  | [] => []
  | (op, besides) :: l =>
    match op, besides with
    | .check octets now, false => (s.governor.check octets now).1 :: answers (s.next op) l
    | op, _ => answers (s.next op) l

/-- The run without what is asked besides. -/
def own (l : List (Op × Bool)) : List (Op × Bool) := l.filter fun op => !op.2

/-- The governor of a run with extra checks, beside that of the run without them. -/
structure Alike (s s' : Station) : Prop where
  clock : s.clock ≤ s'.clock
  settled : ∀ t, s'.clock ≤ t → settle s.governor t = settle s'.governor t
  off : s.governor.cfg.enabled = false → s.governor = s'.governor
  cleared : s.governor.cfg.enabled = true → s.cleared = true →
    s.governor.coolingUntil = none ∧ s'.governor.coolingUntil = none

theorem Alike.cfg {s s' : Station} (h : Alike s s') : s'.governor.cfg = s.governor.cfg :=
  (congrArg Governor.cfg (h.settled _ le_rfl)).symm

theorem decision_congr {g' : Governor} (h : settle g t = settle g' t) (cost : ℕ) :
    decision g cost t = decision g' cost t := by
  have hcooling : g.coolingUntil.filter (fun u => decide (t < u)) =
      g'.coolingUntil.filter fun u => decide (t < u) := congrArg Governor.coolingUntil h
  unfold decision
  rw [hcooling, h]

/-- An extra check keeps a run like the one without it. -/
theorem Alike.besides {s s' : Station} (h : Alike s s') {octets now : ℕ} (hnow : s'.clock ≤ now) :
    Alike s (s'.next (.check octets now)) := by
  have hcfg := h.cfg
  by_cases hoff : s.governor.cfg.enabled = false
  · have hoff' : s'.governor.cfg.enabled = false := by rw [hcfg, hoff]
    have hsame : (s'.next (.check octets now)).governor = s'.governor := by
      simp [Station.next, disabled_check hoff']
    refine ⟨h.clock.trans hnow, fun t ht => ?_, fun _ => ?_, fun hon => ?_⟩
    · rw [hsame]
      exact h.settled t (hnow.trans ht)
    · rw [hsame]
      exact h.off hoff
    · rw [hoff] at hon
      cases hon
  have he : s.governor.cfg.enabled = true := by simpa using hoff
  have he' : s'.governor.cfg.enabled = true := by rw [hcfg, he]
  have hsettled : (s'.next (.check octets now)).governor = settle s'.governor now := by
    simp [Station.next, check_eq he']
  refine ⟨h.clock.trans hnow, fun t ht => ?_, fun hfalse => absurd hfalse hoff, fun _ hclear => ?_⟩
  · have hlater : now ≤ t := ht
    rw [hsettled, settle_settle _ hlater]
    exact h.settled t (hnow.trans hlater)
  · obtain ⟨hnone, hnone'⟩ := h.cleared he hclear
    rw [hsettled]
    exact ⟨hnone, settle_cooling_none hnone' now⟩

theorem recorded_congr {g' : Governor} (h : settle g t = settle g' t) (hnone : g.coolingUntil = none)
    (hnone' : g'.coolingUntil = none) (cost : ℕ) : recorded g cost t = recorded g' cost t := by
  have hcfg : (settle g t).cfg = (settle g' t).cfg := by rw [h]
  have htotal : (settle g t).total = (settle g' t).total := by rw [h]
  have hbursts : (settle g t).bursts = (settle g' t).bursts := by rw [h]
  change g.cfg = g'.cfg at hcfg
  change g.total = g'.total at htotal
  have hretention : g.retention = g'.retention := by rw [Governor.retention, hcfg, Governor.retention]
  have hrun : longerRun g cost t = longerRun g' cost t := by
    have hsettled : (settle g t).run = (settle g' t).run := by rw [h]
    change settledRun g t = settledRun g' t at hsettled
    simp only [settledRun, hnone, hnone'] at hsettled
    rw [longerRun, hsettled, longerRun]
  have happend : (g.bursts ++ [Burst.mk (t + cost) cost]).dropWhile
        (fun b => decide (g.retention < t - b.stop)) =
      (g'.bursts ++ [Burst.mk (t + cost) cost]).dropWhile
        fun b => decide (g'.retention < t - b.stop) := by
    change g.bursts.dropWhile _ = g'.bursts.dropWhile _ at hbursts
    rw [List.dropWhile_append, List.dropWhile_append, hbursts, hretention]
  unfold recorded
  rw [happend, hrun, hcfg, htotal, hnone, hnone']

/-- What a run does anyway is answered alike, and keeps it like the one without the extra checks. -/
theorem Alike.next {s s' : Station} (h : Alike s s') {op : Op} (hnow : Enabled s' op)
    (hasked : LetThrough s op) : Alike (s.next op) (s'.next op) := by
  have hcfg := h.cfg
  by_cases hoff : s.governor.cfg.enabled = false
  · have hsame := h.off hoff
    have hgovernor : (s.next op).governor = (s'.next op).governor := by
      cases op with
      | check octets now => simp [Station.next, hsame]
      | record octets now => simp [Station.next, hsame]
      | setDuty duty => simp [Station.next, hsame]
    have hstill : (s.next op).governor.cfg.enabled = false := by
      cases op with
      | check octets now => simpa [Station.next, disabled_check hoff] using hoff
      | record octets now => simpa [Station.next, disabled_record hoff] using hoff
      | setDuty duty => exact hoff
    refine ⟨?_, fun t _ => by rw [hgovernor], fun _ => hgovernor, fun hon => ?_⟩
    · cases op with
      | check octets now => exact le_rfl
      | record octets now => exact le_rfl
      | setDuty duty => exact h.clock
    · rw [hstill] at hon
      cases hon
  have he : s.governor.cfg.enabled = true := by simpa using hoff
  have he' : s'.governor.cfg.enabled = true := by rw [hcfg, he]
  cases op with
  | check octets now =>
    have hsettled := h.settled now hnow
    have hgovernor : (s.next (.check octets now)).governor = settle s.governor now := by
      simp [Station.next, check_eq he]
    have hgovernor' : (s'.next (.check octets now)).governor = settle s.governor now := by
      simp [Station.next, check_eq he', hsettled]
    refine ⟨le_rfl, fun t _ => by rw [hgovernor, hgovernor'], fun _ => by rw [hgovernor, hgovernor'],
      fun _ hclear => ?_⟩
    rw [hgovernor, hgovernor', and_self]
    simp only [Station.next, check_eq he] at hclear
    rcases Bool.or_eq_true_iff.mp hclear with hbefore | hsend
    · exact settle_cooling_none (h.cleared he hbefore).1 now
    · exact settle_cooling_of_send (of_decide_eq_true hsend)
  | record octets now =>
    obtain ⟨hnone, hnone'⟩ := h.cleared he hasked
    have hcost : s'.governor.airtimeFor octets = s.governor.airtimeFor octets := by
      rw [Governor.airtimeFor, hcfg, Governor.airtimeFor]
    have hrecord : (s.governor.record octets now).2 = _ := recordCost_eq he _ now
    have hrecord' : (s'.governor.record octets now).2 = _ := recordCost_eq he' _ now
    have hgovernor : (s.next (.record octets now)).governor =
        (s'.next (.record octets now)).governor := by
      change (s.governor.record octets now).2 = (s'.governor.record octets now).2
      rw [hrecord, hrecord', hcost]
      exact recorded_congr (h.settled now hnow) hnone hnone' _
    exact ⟨le_rfl, fun t _ => by rw [hgovernor], fun _ => hgovernor, fun _ hclear => by cases hclear⟩
  | setDuty duty =>
    refine ⟨h.clock, fun t ht => ?_, fun hfalse => absurd hfalse hoff, h.cleared⟩
    exact congrArg (Governor.setDuty · duty) (h.settled t ht)

theorem Alike.answer {s s' : Station} (h : Alike s s') {octets now : ℕ} (hnow : s'.clock ≤ now) :
    (s'.governor.check octets now).1 = (s.governor.check octets now).1 := by
  have hcfg := h.cfg
  by_cases hoff : s.governor.cfg.enabled = false
  · rw [h.off hoff]
  have he : s.governor.cfg.enabled = true := by simpa using hoff
  have he' : s'.governor.cfg.enabled = true := by rw [hcfg, he]
  have hcost : s'.governor.airtimeFor octets = s.governor.airtimeFor octets := by
    rw [Governor.airtimeFor, hcfg, Governor.airtimeFor]
  rw [check_eq he, check_eq he', hcost]
  exact (decision_congr (h.settled now hnow) _).symm

/-- Extra checks change no answer, however many there are and whatever they are about. -/
theorem Alike.answers {s s' : Station} (h : Alike s s') {l : List (Op × Bool)}
    (hbesides : ∀ op ∈ l, op.2 = true → ∃ octets now, op.1 = .check octets now)
    (hrun : Runs (fun _ _ => True) Enabled Station.next s' (l.map Prod.fst))
    (hasked : Runs LetThrough Enabled Station.next s ((own l).map Prod.fst)) :
    answers s' l = answers s (own l) := by
  induction l generalizing s s' with
  | nil => rfl
  | cons x l ih =>
    obtain ⟨op, besides⟩ := x
    obtain ⟨hop, hl⟩ := List.forall_mem_cons.mp hbesides
    obtain ⟨-, hnow, hrun⟩ := hrun
    cases besides with
    | true =>
      obtain ⟨octets, now, hcheck⟩ := hop rfl
      obtain rfl : op = .check octets now := hcheck
      exact ih (h.besides hnow) hl hrun hasked
    | false =>
      obtain ⟨hthrough, -, hasked⟩ := hasked
      have hrest := ih (h.next hnow hthrough) hl hrun hasked
      cases op with
      | check octets now =>
        change _ :: _ = _ :: _
        rw [h.answer hnow, hrest]
        rfl
      | record octets now => exact hrest
      | setDuty duty => exact hrest

/-- A station that has not asked for anything yet. -/
def start (cfg : AirtimeConfig) : Station := ⟨.new cfg, 0, none, false⟩

theorem alike_refl (cfg : AirtimeConfig) : Alike (start cfg) (start cfg) :=
  ⟨le_rfl, fun _ _ => rfl, fun _ => rfl, fun _ h => by cases h⟩

/-- In every run in which nothing is sent unasked, the two ways of asking agree unless a cooldown that is
over is still on record, which a cooldown as long as the gap rules out; and extra checks change no
answer. -/
theorem queries_iff (cfg : AirtimeConfig) :
    (∀ s, Reachable (system cfg) LetThrough s → ∀ octets t,
      ((s.governor.timeUntilClear octets t = 0 ↔ (s.governor.check octets t).1 = .send) ↔
        ¬ Stale s.governor octets t) ∧
      (runGap ≤ cfg.cooldown → ¬ Stale s.governor octets t)) ∧
    ∀ l : List (Op × Bool), (∀ op ∈ l, op.2 = true → ∃ octets now, op.1 = .check octets now) →
      Runs (fun _ _ => True) Enabled Station.next (start cfg) (l.map Prod.fst) →
      Runs LetThrough Enabled Station.next (start cfg) ((own l).map Prod.fst) →
      answers (start cfg) l = answers (start cfg) (own l) := by
  refine ⟨fun s hs octets t => ⟨?_, fun hlong => ?_⟩, fun l hbesides hrun hasked => ?_⟩
  · exact agree_iff (reachable_timed hs).run octets t
  · exact (reachable_inStep hs).not_stale hlong octets t
  · exact (alike_refl cfg).answers hbesides hrun hasked

/-- A station that may key up for a second and then cools for a second. -/
def brief : AirtimeConfig :=
  { AirtimeConfig.default with baud := 1200, maxContinuous := secs 1, cooldown := secs 1 }

/-- When the cooldown is over and the gap is not, `check` lets a frame through that the query holds
back. -/
theorem query_outlasts_cooldown : brief.checkHardwareSafe = .ok () ∧
    let s := ((start brief).next (.check 100 0)).next (.record 100 0)
    Reachable (system brief) LetThrough s ∧ s.clock ≤ secs 3 ∧
      (s.governor.check 100 (secs 3)).1 = .send ∧
      s.governor.timeUntilClear 100 (secs 3) = 1428000000 := by
  refine ⟨by decide +kernel, ?_, by decide +kernel, by decide +kernel, by decide +kernel⟩
  have hstart : Reachable (system brief) LetThrough (start brief) := .initial rfl
  have hasked := hstart.fire (.check 100 0) trivial (Nat.zero_le _)
  exact hasked.fire (.record 100 0) (by unfold LetThrough; decide +kernel) (Nat.le_refl _)

end GovernorQueries
