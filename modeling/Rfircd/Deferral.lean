import Rfircd.TransmitWakeup

/-! A frame that the governor refuses goes back to the head of its class.
The wait it is given is written where every class looks, so a frame that would be let through
waits with it. -/
namespace Deferral

open Basics AirtimeGovernor Ax25 TransmitScheduler TransmitPump TransmitWakeup
  TransitionSystem

/-! ### When the governor lets a frame through -/

/-- The run as a check at `t` finds it, once no cooldown is in force. -/
def runAt (g : Governor) (t : ℕ) : ℕ :=
  if g.coolingUntil.isSome then 0 else (g.endRun t).run

structure Admits (g : Governor) (cost t : ℕ) : Prop where
  cooled : ∀ u ∈ g.coolingUntil, u ≤ t
  run : runAt g t + cost ≤ g.cfg.maxContinuous ∨ runAt g t = 0
  duty : ((g.airtimeWithin t g.cfg.window + cost : ℕ) : ℚ) ≤ g.allowance
  hour : g.cfg.hourlyBudget ≠ 0 →
    g.airtimeWithin t g.cfg.hourlyBudgetWindow + cost ≤ g.cfg.hourlyBudget

theorem limits_send_iff (g : Governor) (cost t : ℕ) :
    g.limits cost t = .send ↔
      (g.run + cost ≤ g.cfg.maxContinuous ∨ g.run = 0) ∧
      ((g.airtimeWithin t g.cfg.window + cost : ℕ) : ℚ) ≤ g.allowance ∧
      (g.cfg.hourlyBudget ≠ 0 →
        g.airtimeWithin t g.cfg.hourlyBudgetWindow + cost ≤ g.cfg.hourlyBudget) := by
  constructor
  · exact Governor.limits_send
  · rintro ⟨hrun, hduty, hhour⟩
    rw [Governor.limits, if_neg (by omega), if_neg (not_lt.mpr hduty), if_neg]
    rintro ⟨hb, hover⟩
    exact absurd (hhour hb) (by omega)

theorem endRun_zero (g : Governor) (t : ℕ) (h : g.run = 0) : (g.endRun t).run = 0 := by
  rw [Governor.endRun]
  split
  · split_ifs
    · rfl
    · exact h
  · exact h

/-- What a check needs to answer `send`. -/
theorem checkCost_send_iff (g : Governor) (cost t : ℕ) :
    (g.checkCost cost t).1 = .send ↔ g.cfg.enabled = false ∨ Admits g cost t := by
  have hw := Governor.trim_airtimeWithin g (le_refl t) (le_max_left g.cfg.window _)
  have hh := Governor.trim_airtimeWithin g (le_refl t) (le_max_right g.cfg.window _)
  by_cases he : g.cfg.enabled = false
  · simp [Governor.checkCost, he]
  rw [Governor.checkCost, if_neg he, or_iff_right he]
  simp only [Governor.trim_coolingUntil]
  rcases hc : g.coolingUntil with - | u
  · have hrun : ((g.trim t).endRun t).run = runAt g t := by
      simp only [runAt, hc, Option.isSome_none, Bool.false_eq_true, if_false]
      rw [Governor.endRun, Governor.endRun]
      simp only [Governor.trim_lastEnd]
      split
      · split_ifs <;> rfl
      · rfl
    simp only [limits_send_iff, hrun, Governor.endRun_cfg, Governor.trim_cfg,
      Governor.endRun_airtimeWithin, Governor.endRun_allowance]
    rw [hw, hh]
    constructor
    · rintro ⟨h₁, h₂, h₃⟩
      exact ⟨by simp [hc], h₁, h₂, h₃⟩
    · rintro ⟨-, h₁, h₂, h₃⟩
      exact ⟨h₁, h₂, h₃⟩
  · by_cases hu : t < u
    · simp only [hu, if_true, reduceCtorEq, false_iff]
      intro h
      exact absurd (h.cooled u (by simp [hc])) (by omega)
    · have hrun : runAt g t = 0 := by simp [runAt, hc]
      simp only [hu, if_false, limits_send_iff, Governor.endRun_cfg, Governor.trim_cfg,
        Governor.endRun_airtimeWithin, Governor.endRun_allowance]
      constructor
      · rintro ⟨-, h₂, h₃⟩
        refine ⟨by simpa [hc] using not_lt.mp hu, .inr hrun, ?_, ?_⟩
        · rw [← hw]; exact h₂
        · rw [← hh]; exact h₃
      · rintro ⟨-, -, h₂, h₃⟩
        refine ⟨.inr (endRun_zero _ _ rfl), ?_, ?_⟩
        · rw [← hw] at h₂; exact h₂
        · rw [← hh] at h₃; exact h₃

theorem check_send_iff (g : Governor) (n t : ℕ) :
    (g.check n t).1 = .send ↔ g.cfg.enabled = false ∨ Admits g (g.airtimeFor n) t :=
  checkCost_send_iff g _ t

/-- Nothing is transmitted meanwhile, so what has been spent can only be forgotten. -/
theorem airtimeWithin_anti (g : Governor) {t t' : ℕ} (ht : t ≤ t') (w : ℕ) :
    g.airtimeWithin t' w ≤ g.airtimeWithin t w := by
  rw [Governor.airtimeWithin, Governor.airtimeWithin]
  induction g.bursts with
  | nil => exact le_rfl
  | cons b l ih =>
    rw [spent_cons, spent_cons]
    split_ifs <;> omega

theorem runAt_anti (g : Governor) {t t' : ℕ} (ht : t ≤ t') : runAt g t' ≤ runAt g t := by
  rw [runAt, runAt]
  split_ifs
  · exact le_rfl
  rw [Governor.endRun, Governor.endRun]
  rcases g.lastEnd with - | last
  · exact le_rfl
  · simp only
    split_ifs
    · exact le_rfl
    · exact Nat.zero_le _
    · omega
    · exact le_rfl

theorem Admits.mono {g : Governor} {cost cost' t t' : ℕ} (h : Admits g cost t)
    (hc : cost' ≤ cost) (ht : t ≤ t') : Admits g cost' t' where
  cooled u hu := (h.cooled u hu).trans ht
  run := by
    have := runAt_anti g ht
    rcases h.run with hr | hr
    · left; omega
    · right; omega
  duty := by
    refine le_trans ?_ h.duty
    exact_mod_cast Nat.add_le_add (airtimeWithin_anti g ht _) hc
  hour hb := (Nat.add_le_add (airtimeWithin_anti g ht _) hc).trans (h.hour hb)

theorem airtimeFor_mono (g : Governor) {n m : ℕ} (h : n ≤ m) :
    g.airtimeFor n ≤ g.airtimeFor m := by
  have hq : (n : ℚ) ≤ m := by exact_mod_cast h
  have hs : (0 : ℚ) ≤ max g.cfg.stuffing 1 := le_trans zero_le_one (le_max_right _ _)
  have hb : (0 : ℚ) ≤ ((max g.cfg.baud 1 : ℕ) : ℚ) := by positivity
  simp only [Governor.airtimeFor, micros]
  gcongr

/-- A shorter frame at a later time passes wherever a longer one did. -/
theorem check_send_mono (g : Governor) {n m t t' : ℕ} (hn : n ≤ m) (ht : t ≤ t')
    (h : (g.check m t).1 = .send) : (g.check n t').1 = .send := by
  rw [Governor.check, checkCost_send_iff] at h ⊢
  exact h.imp_right fun h => h.mono (airtimeFor_mono g hn) ht

theorem retryDelay_pos (g : Governor) (now window : ℕ) (allowance : ℚ) (cost : ℕ) :
    0 < g.retryDelay now window allowance cost := by
  have loop : ∀ (l : List Burst) (used d : ℕ),
      Governor.retryLoop now window allowance cost used l = some d → 0 < d := by
    intro l
    induction l with
    | nil => intro used d h; cases h
    | cons b l ih =>
      intro used d h
      rw [Governor.retryLoop] at h
      simp only at h
      split_ifs at h
      · exact ih _ _ h
      · rw [← Option.some.inj h]
        exact lt_of_lt_of_le (by simp [millis]) (le_max_right _ _)
      · exact ih _ _ h
  rw [Governor.retryDelay]
  rcases h : Governor.retryLoop now window allowance cost (g.airtimeWithin now window)
    g.bursts with - | d
  · exact lt_of_lt_of_le (by simp [millis]) (le_max_right _ _)
  · exact loop _ _ _ h

theorem limits_defer_pos {g : Governor} {cost now delay : ℕ} {reason : DeferReason}
    (h : g.limits cost now = .defer delay reason) : 0 < delay := by
  rw [Governor.limits] at h
  split_ifs at h
  · rw [← (TxDecision.defer.inj h).1]
    exact lt_of_lt_of_le (by simp [millis]) (le_max_right _ _)
  · rw [← (TxDecision.defer.inj h).1]
    exact retryDelay_pos _ _ _ _ _
  · rw [← (TxDecision.defer.inj h).1]
    exact retryDelay_pos _ _ _ _ _

theorem checkCost_defer_pos {g : Governor} {cost now delay : ℕ} {reason : DeferReason}
    (h : (g.checkCost cost now).1 = .defer delay reason) : 0 < delay := by
  rw [Governor.checkCost] at h
  split at h
  · cases h
  simp only at h
  split at h
  · split at h
    · rw [← (TxDecision.defer.inj h).1]
      omega
    · exact limits_defer_pos h
  · exact limits_defer_pos h

theorem endRun_endRun (g : Governor) {now t : ℕ} (ht : now ≤ t) :
    ((g.endRun now).endRun t).run = (g.endRun t).run := by
  rcases hl : g.lastEnd with - | last
  · simp [Governor.endRun, hl]
  · by_cases hn : runGap ≤ now - last
    · have : runGap ≤ t - last := by omega
      simp [Governor.endRun, hl, hn, this]
    · simp [Governor.endRun, hl, hn]

/-- A check settles the cooldown and the run, and a later check finds them as it would have. -/
theorem admits_after_check (g : Governor) (cost cost' : ℕ) {now t : ℕ} (ht : now ≤ t) :
    Admits (g.checkCost cost now).2 cost' t ↔ Admits g cost' t := by
  obtain ⟨hcfg, -, hair⟩ := g.checkCost_frame cost now
  have hw := hair t g.cfg.window ht (le_max_left _ _)
  have hh := hair t g.cfg.hourlyBudgetWindow ht (le_max_right _ _)
  have settled : ((∀ u ∈ (g.checkCost cost now).2.coolingUntil, u ≤ t) ↔
        ∀ u ∈ g.coolingUntil, u ≤ t) ∧
      runAt (g.checkCost cost now).2 t = runAt g t := by
    rw [Governor.checkCost]
    split_ifs with he
    · exact ⟨Iff.rfl, rfl⟩
    simp only [Governor.trim_coolingUntil]
    rcases hc : g.coolingUntil with - | u
    · refine ⟨by simp [hc], ?_⟩
      simp only [runAt, Governor.endRun_coolingUntil, Governor.trim_coolingUntil, hc,
        Option.isSome_none, Bool.false_eq_true, if_false]
      rw [endRun_endRun _ ht]
      rw [Governor.endRun, Governor.endRun]
      simp only [Governor.trim_lastEnd]
      split
      · split_ifs <;> rfl
      · rfl
    · by_cases hu : now < u
      · simp [hu, hc, runAt]
      · refine ⟨?_, ?_⟩
        · simp only [hu, if_false, Governor.endRun_coolingUntil]
          simp only [Option.mem_def, reduceCtorEq, false_implies, implies_true,
            Option.some.injEq, true_iff]
          rintro v rfl
          omega
        · simp only [hu, if_false, runAt, Governor.endRun_coolingUntil, hc, Option.isSome_none,
            Option.isSome_some, Bool.false_eq_true, if_true]
          exact endRun_zero _ _ (endRun_zero _ _ rfl)
  have hallow : (g.checkCost cost now).2.allowance = g.allowance := by
    rw [Governor.allowance, Governor.allowance, hcfg]
  constructor
  · rintro ⟨h₁, h₂, h₃, h₄⟩
    rw [hcfg, hw, hallow] at h₃
    rw [hcfg, hh] at h₄
    exact ⟨settled.1.mp h₁, by rwa [settled.2, hcfg] at h₂, h₃, h₄⟩
  · rintro ⟨h₁, h₂, h₃, h₄⟩
    refine ⟨settled.1.mpr h₁, by rwa [settled.2, hcfg], ?_, ?_⟩
    · rw [hcfg, hw, hallow]; exact h₃
    · rw [hcfg, hh]; exact h₄

theorem check_after_check (g : Governor) {n m now t : ℕ} (ht : now ≤ t) :
    ((g.check n now).2.check m t).1 = .send ↔ (g.check m t).1 = .send := by
  obtain ⟨hcfg, -⟩ := g.checkCost_frame (g.airtimeFor n) now
  have hcost : (g.check n now).2.airtimeFor m = g.airtimeFor m := by
    rw [Governor.airtimeFor, Governor.airtimeFor, Governor.check, hcfg]
  rw [check_send_iff, check_send_iff, hcost]
  rw [Governor.check, admits_after_check _ _ _ ht, hcfg]

/-! ### The schedule with and without the deferral -/

/-- The least that a frame can measure: two addresses and a control octet. -/
def shortest : ℕ := 2 * addressLen + 1

theorem shortest_le_octets (f : Ax25Frame) : shortest ≤ f.octets := by
  simp only [shortest, Ax25Frame.octets, addressLen]
  omega

/-- A frame that measures no more than that, in a given class. -/
def shortestFrame (c : TransmitScheduler.Class) : Queued Ax25Frame where
  payload := ⟨.new ⟨"QST", 0⟩, .new ⟨"QST", 0⟩, [], controlUi, none, []⟩
  cls := c
  account := "QST"
  cost := 0
  queuedAt := 0
  expectsReply := false

/-- What reaches the scheduler between the deferral and a later poll. -/
inductive Meanwhile where
  | queued (item : Queued Ax25Frame)
  | heard (now : ℕ)
  deriving DecidableEq

def takeIn (s : Scheduler Ax25Frame) : Meanwhile → Scheduler Ax25Frame
  | .queued item => (s.push item).2
  | .heard now => s.onHeard now

/-- The frame at the head of its class again, and no wait written. -/
def putBack (s : Scheduler Ax25Frame) (item : Queued Ax25Frame) : Scheduler Ax25Frame :=
  { s with queues := Function.update s.queues item.cls (item :: s.queues item.cls) }

/-- Whatever is queued or heard from now on: while another frame waits that the governor would
let through, a poll is ready as soon as pacing, receive guard and reply window alone allow. -/
def HoldsBackOnly (item : Queued Ax25Frame) (now : ℕ) (before after : Scheduler Ax25Frame)
    (g : Governor) : Prop :=
  ∀ (later : List Meanwhile) (t : ℕ), now ≤ t →
    (∀ u, Meanwhile.heard u ∈ later → now ≤ u ∧ u ≤ t) →
    (∃ x ∈ (later.foldl takeIn after).waiting.erase item, (g.check x.payload.octets t).1 = .send) →
    (later.foldl takeIn (putBack before item)).poll t = .ready →
    (later.foldl takeIn after).poll t = .ready

/-- The guards themselves hold the transmitter at `t`, even if a frame is heard at `now`. -/
def Guarded (s : Scheduler Ax25Frame) (now t : ℕ) : Prop :=
  (∃ u ∈ s.paceUntil, t < u) ∨
    t < now + s.cfg.rxGuard ∧
      ((∃ u ∈ s.replyUntil, t < u) ∨ ∃ h ∈ s.lastHeard, t < h + s.cfg.rxGuard)

/-- A frame waits that the governor would let through at `t`, or there is room for one. -/
def Contended (s : Scheduler Ax25Frame) (item : Queued Ax25Frame) (g : Governor) (t : ℕ) : Prop :=
  (∃ x ∈ s.waiting, (g.check x.payload.octets t).1 = .send) ∨
    (∃ c, ((putBack s item).queues c).length < s.cfg.depth c) ∧ (g.check shortest t).1 = .send

theorem takeIn_paced (s : Scheduler Ax25Frame) (u : Option ℕ) (m : Meanwhile) :
    takeIn { s with paceUntil := u } m = { takeIn s m with paceUntil := u } := by
  cases m with
  | queued item =>
    simp only [takeIn, Scheduler.push]
    split_ifs <;> rfl
  | heard now => rfl

theorem takenIn_paced (later : List Meanwhile) (s : Scheduler Ax25Frame) (u : Option ℕ) :
    later.foldl takeIn { s with paceUntil := u } = { later.foldl takeIn s with paceUntil := u } := by
  induction later generalizing s with
  | nil => rfl
  | cons m later ih =>
    rw [List.foldl_cons, List.foldl_cons, takeIn_paced, ih]

/-- Frames are only added, and a frame is added only where there was room to begin with. -/
theorem takenIn_waiting (later : List Meanwhile) (s : Scheduler Ax25Frame) :
    (later.foldl takeIn s).cfg = s.cfg ∧ ∃ more : Multiset (Queued Ax25Frame),
      (later.foldl takeIn s).waiting = more + s.waiting ∧
      (more ≠ 0 → ∃ c, (s.queues c).length < s.cfg.depth c) := by
  induction later generalizing s with
  | nil => exact ⟨rfl, 0, by simp, by simp⟩
  | cons m later ih =>
    obtain ⟨hcfg, more, hmore, hroom⟩ := ih (takeIn s m)
    cases m with
    | heard now => exact ⟨hcfg, more, hmore, hroom⟩
    | queued item =>
      by_cases hfull : s.cfg.depth item.cls ≤ (s.queues item.cls).length
      · have hsame : (takeIn s (.queued item)).queues = s.queues ∧
            (takeIn s (.queued item)).cfg = s.cfg := by
          simp [takeIn, Scheduler.push, hfull]
        have hwait : (takeIn s (.queued item)).waiting = s.waiting := by
          rw [takeIn, Scheduler.push_waiting, if_pos hfull]
        rw [hsame.1, hsame.2] at hroom
        exact ⟨hcfg.trans hsame.2, more, by rw [List.foldl_cons, hmore, hwait], hroom⟩
      · have hcfg' : (takeIn s (.queued item)).cfg = s.cfg := by
          simp [takeIn, Scheduler.push, hfull]
        have hwait : (takeIn s (.queued item)).waiting = item ::ₘ s.waiting := by
          rw [takeIn, Scheduler.push_waiting, if_neg hfull]
        refine ⟨hcfg.trans hcfg', more + {item}, ?_, fun _ => ⟨item.cls, not_le.mp hfull⟩⟩
        rw [List.foldl_cons, hmore, hwait, add_assoc, Multiset.singleton_add]

/-- The reply window and the receive guard stay as they were, or a frame heard meanwhile has
cleared the one and armed the other. -/
theorem takenIn_guards (later : List Meanwhile) (s : Scheduler Ax25Frame) :
    (later.foldl takeIn s).paceUntil = s.paceUntil ∧
      ((later.foldl takeIn s).replyUntil = s.replyUntil ∧
          (later.foldl takeIn s).lastHeard = s.lastHeard ∨
        ∃ u, .heard u ∈ later ∧ (later.foldl takeIn s).lastHeard = some u) := by
  induction later generalizing s with
  | nil => exact ⟨rfl, .inl ⟨rfl, rfl⟩⟩
  | cons m later ih =>
    obtain ⟨hpace, hguards⟩ := ih (takeIn s m)
    cases m with
    | queued item =>
      have hsame : (takeIn s (.queued item)).paceUntil = s.paceUntil ∧
          (takeIn s (.queued item)).replyUntil = s.replyUntil ∧
          (takeIn s (.queued item)).lastHeard = s.lastHeard := by
        simp only [takeIn, Scheduler.push]
        split_ifs <;> exact ⟨rfl, rfl, rfl⟩
      rw [hsame.1] at hpace
      rw [hsame.2.1, hsame.2.2] at hguards
      refine ⟨hpace, hguards.imp_right ?_⟩
      rintro ⟨u, hu, hlast⟩
      exact ⟨u, List.mem_cons_of_mem _ hu, hlast⟩
    | heard now =>
      refine ⟨hpace, .inr ?_⟩
      rcases hguards with ⟨-, hlast⟩ | ⟨u, hu, hlast⟩
      · exact ⟨now, List.mem_cons_self, hlast⟩
      · exact ⟨u, List.mem_cons_of_mem _ hu, hlast⟩

theorem requeue_eq (s : Scheduler Ax25Frame) (item : Queued Ax25Frame) (now delay : ℕ) :
    s.requeue item now delay = { putBack s item with
      paceUntil := some (match s.paceUntil with
        | some t => max t (now + delay)
        | none => now + delay) } := rfl

theorem putBack_waiting (s : Scheduler Ax25Frame) (item : Queued Ax25Frame) :
    (putBack s item).waiting = item ::ₘ s.waiting :=
  s.requeue_waiting item 0 0

/-- The deferral adds one bound to the guards. -/
theorem requeued_ready_iff (later : List Meanwhile) (s : Scheduler Ax25Frame)
    (item : Queued Ax25Frame) (now delay t : ℕ) :
    (later.foldl takeIn (s.requeue item now delay)).poll t = .ready ↔
      now + delay ≤ t ∧ (later.foldl takeIn (putBack s item)).poll t = .ready := by
  obtain ⟨hpace, -⟩ := takenIn_guards later (putBack s item)
  have hp : (putBack s item).paceUntil = s.paceUntil := rfl
  rw [hp] at hpace
  rw [requeue_eq, takenIn_paced, Scheduler.poll_ready_iff, Scheduler.poll_ready_iff,
    Scheduler.blockedUntil_le_iff, Scheduler.blockedUntil_le_iff, hpace]
  have hbound : (∀ u ∈ some (match s.paceUntil with
        | some t => max t (now + delay)
        | none => now + delay), u ≤ t) ↔ now + delay ≤ t ∧ ∀ u ∈ s.paceUntil, u ≤ t := by
    rcases s.paceUntil with - | v
    · simp
    · simp [and_comm]
  simp only [hbound]
  constructor
  · rintro ⟨hw, ⟨hd, hpace⟩, hrest⟩
    exact ⟨hd, hw, hpace, hrest⟩
  · rintro ⟨hd, hw, hpace, hrest⟩
    exact ⟨hw, ⟨hd, hpace⟩, hrest⟩

theorem unguarded_ready {s : Scheduler Ax25Frame} {item : Queued Ax25Frame} {now t : ℕ}
    (h : ¬ Guarded s now t) : ∃ quiet : List Meanwhile,
      (quiet = [] ∨ quiet = [.heard now]) ∧
        (quiet.foldl takeIn (putBack s item)).poll t = .ready := by
  simp only [Guarded, not_or, not_and_or, not_exists, not_lt] at h
  obtain ⟨hpace, hrest⟩ := h
  have hwait : (putBack s item).waiting ≠ 0 := by
    rw [putBack_waiting]
    exact Multiset.cons_ne_zero
  have hpace : ∀ u ∈ s.paceUntil, u ≤ t := fun u hu => (hpace u).resolve_left (· hu)
  rcases hrest with hrx | ⟨hreply, hheard⟩
  · refine ⟨[.heard now], .inr rfl, ?_⟩
    rw [Scheduler.poll_ready_iff, Scheduler.blockedUntil_le_iff]
    refine ⟨hwait, hpace, by simp [takeIn, Scheduler.onHeard], ?_⟩
    intro u hu
    rw [← Option.some.inj hu]
    exact hrx
  · refine ⟨[], .inl rfl, ?_⟩
    rw [Scheduler.poll_ready_iff, Scheduler.blockedUntil_le_iff]
    exact ⟨hwait, hpace, fun u hu => (hreply u).resolve_left (· hu),
      fun u hu => (hheard u).resolve_left (· hu)⟩

theorem heard_queues {s : Scheduler Ax25Frame} {quiet : List Meanwhile} {now : ℕ}
    (h : quiet = [] ∨ quiet = [.heard now]) :
    (quiet.foldl takeIn s).queues = s.queues ∧ (quiet.foldl takeIn s).cfg = s.cfg := by
  rcases h with rfl | rfl <;> exact ⟨rfl, rfl⟩

/-- A contender can be waiting, with no more than a frame heard or queued, when the guards are
over. -/
theorem contended_witness {s : Scheduler Ax25Frame} {item : Queued Ax25Frame} {g : Governor}
    {now delay t : ℕ} (hg : ¬ Guarded s now t) (hc : Contended s item g t) :
    ∃ later : List Meanwhile, (∀ u, .heard u ∈ later → u = now) ∧
      (∃ x ∈ (later.foldl takeIn (s.requeue item now delay)).waiting.erase item,
        (g.check x.payload.octets t).1 = .send) ∧
      (later.foldl takeIn (putBack s item)).poll t = .ready := by
  obtain ⟨quiet, hquiet, hready⟩ := @unguarded_ready s item now t hg
  have hheard : ∀ u, .heard u ∈ quiet → u = now := by
    rcases hquiet with rfl | rfl <;> simp
  have hqueues := heard_queues (s := s.requeue item now delay) hquiet
  have hwait : (quiet.foldl takeIn (s.requeue item now delay)).waiting = item ::ₘ s.waiting := by
    rw [← s.requeue_waiting item now delay, Scheduler.waiting, hqueues.1, Scheduler.waiting]
  rcases hc with ⟨x, hx, hsend⟩ | ⟨⟨c, hroom⟩, hsend⟩
  · refine ⟨quiet, hheard, ⟨x, ?_, hsend⟩, hready⟩
    rw [hwait, Multiset.erase_cons_head]
    exact hx
  · refine ⟨quiet ++ [.queued (shortestFrame c)], ?_, ⟨shortestFrame c, ?_, hsend⟩, ?_⟩
    · intro u hu
      exact hheard u (by simpa using hu)
    · have hroom : ¬ (s.requeue item now delay).cfg.depth (shortestFrame c).cls ≤
          ((s.requeue item now delay).queues (shortestFrame c).cls).length := not_le.mpr hroom
      rw [List.foldl_append, List.foldl_cons, List.foldl_nil, takeIn, Scheduler.push_waiting,
        hqueues.1, hqueues.2, if_neg hroom, hwait, Multiset.cons_swap, Multiset.erase_cons_head]
      exact Multiset.mem_cons_self _ _
    · rw [Scheduler.poll_ready_iff] at hready ⊢
      rw [List.foldl_append, List.foldl_cons, List.foldl_nil, takeIn, push_blockedUntil]
      refine ⟨?_, hready.2⟩
      rw [Scheduler.push_waiting]
      split_ifs
      · exact hready.1
      · exact Multiset.cons_ne_zero

/-- Guards that last as long as the deferral leave it nothing to add. -/
theorem guarded_outlasts {s : Scheduler Ax25Frame} {item : Queued Ax25Frame} {now t T : ℕ}
    (hg : Guarded s now T) (ht : t ≤ T) {later : List Meanwhile}
    (hl : ∀ u, .heard u ∈ later → now ≤ u) :
    (later.foldl takeIn (putBack s item)).poll t ≠ .ready := by
  intro hready
  rw [Scheduler.poll_ready_iff, Scheduler.blockedUntil_le_iff] at hready
  obtain ⟨-, hpace, hreply, hheard⟩ := hready
  obtain ⟨hsame, hguards⟩ := takenIn_guards later (putBack s item)
  obtain ⟨hcfg, -⟩ := takenIn_waiting later (putBack s item)
  rw [hcfg] at hheard
  rw [hsame] at hpace
  rcases hg with ⟨u, hu, hlt⟩ | ⟨hrx, hg⟩
  · exact absurd (hpace u hu) (by omega)
  rcases hguards with ⟨hr, hh⟩ | ⟨u, hu, hh⟩
  · rw [hr] at hreply
    rw [hh] at hheard
    rcases hg with ⟨u, hu, hlt⟩ | ⟨h, hh, hlt⟩
    · exact absurd (hreply u hu) (by omega)
    · exact absurd (hheard h hh) (by simp only [putBack]; omega)
  · have := hl u hu
    exact absurd (hheard u hh) (by simp only [putBack]; omega)

/-- Whatever the governor lets through before the deferral ends, it lets through at its end. -/
theorem contender_at_end {s : Scheduler Ax25Frame} {item : Queued Ax25Frame} {g : Governor}
    {now delay t T n : ℕ} (hnow : now ≤ t) (ht : t ≤ T) {later : List Meanwhile}
    {x : Queued Ax25Frame}
    (hx : x ∈ (later.foldl takeIn (s.requeue item now delay)).waiting.erase item)
    (hsend : ((g.check n now).2.check x.payload.octets t).1 = .send) : Contended s item g T := by
  rw [check_after_check g hnow] at hsend
  obtain ⟨-, more, hmore, hroom⟩ := takenIn_waiting later (s.requeue item now delay)
  rw [hmore, Scheduler.requeue_waiting, Multiset.add_cons, Multiset.erase_cons_head,
    Multiset.mem_add] at hx
  rcases hx with hx | hx
  · refine .inr ⟨hroom ?_, check_send_mono g (shortest_le_octets _) ht hsend⟩
    rintro rfl
    exact Multiset.notMem_zero _ hx
  · exact .inl ⟨x, hx, check_send_mono g le_rfl ht hsend⟩

theorem decide_deferred {p : Pump} {now delay : ℕ} {item : Queued Ax25Frame}
    {reason : DeferReason}
    (hc : (p.governor.check item.payload.octets now).1 = .defer delay reason)
    (hk : (p.decide now item).2 = []) :
    (p.decide now item).1.scheduler = p.scheduler.requeue item now delay ∧
      (p.decide now item).1.governor = (p.governor.check item.payload.octets now).2 := by
  revert hk
  rcases hg : p.governor.check item.payload.octets now with ⟨decision, g⟩
  rw [hg] at hc
  obtain rfl : decision = .defer delay reason := hc
  rw [Pump.decide]
  split_ifs with hi hm
  · intro hk; cases hk
  · intro hk; cases hk
  rw [hg]
  simp only
  split_ifs
  · intro hk; cases hk
  · exact fun _ => ⟨rfl, rfl⟩

/-- A deferral holds back only the deferred frame exactly when the guards last as long as it
does, or when up to its end the governor would let nothing else through. -/
theorem deferral_holds_back_only_itself_iff {p : Pump} {now delay : ℕ}
    {item : Queued Ax25Frame} {reason : DeferReason}
    (hc : (p.governor.check item.payload.octets now).1 = .defer delay reason)
    (hk : (p.decide now item).2 = []) :
    HoldsBackOnly item now p.scheduler (p.decide now item).1.scheduler
        (p.decide now item).1.governor ↔
      Guarded p.scheduler now (now + delay - 1) ∨
        ¬ Contended p.scheduler item p.governor (now + delay - 1) := by
  obtain ⟨hs, hgov⟩ := decide_deferred hc hk
  have hpos : 0 < delay := checkCost_defer_pos hc
  rw [hs, hgov]
  constructor
  · intro h
    by_contra hcon
    rw [not_or, not_not] at hcon
    obtain ⟨later, hheard, ⟨x, hx, hsend⟩, hready⟩ :=
      @contended_witness _ _ _ now delay _ hcon.1 hcon.2
    have hnow : now ≤ now + delay - 1 := by omega
    rw [← @check_after_check p.governor item.payload.octets _ now _ hnow] at hsend
    have := h later (now + delay - 1) hnow
      (fun u hu => by rw [hheard u hu]; omega) ⟨x, hx, hsend⟩ hready
    rw [requeued_ready_iff] at this
    omega
  · rintro h later t hnow hheard ⟨x, hx, hsend⟩ hready
    rw [requeued_ready_iff]
    refine ⟨?_, hready⟩
    by_contra hlt
    rcases h with h | h
    · exact guarded_outlasts h (by omega) (fun u hu => (hheard u hu).1) hready
    · exact h (contender_at_end hnow (by omega) hx hsend)

/-! ### A long frame ahead of an acknowledgement -/

def station (octets : ℕ) (c : TransmitScheduler.Class) (queuedAt : ℕ) : Queued Ax25Frame where
  payload := ⟨.new ⟨"M7GRW", 0⟩, .new ⟨"GATE", 0⟩, [], controlUi, some pidNoL3,
    List.replicate (octets - 16) 0⟩
  cls := c
  account := "M7GRW"
  cost := (Governor.new .default).airtimeFor octets
  queuedAt := queuedAt
  expectsReply := false

/-- The task once around its loop, to the frame it takes. -/
def turn : List Event :=
  List.replicate 7 (.step true) ++ [.timer, .step true]

/-- Two frames of the greatest length are queued, and the first is transmitted. -/
def secondLongFrame : List Event :=
  [.enqueue (station 512 .chat 0), .unlock, .enqueue (station 512 .chat 0), .unlock] ++ turn ++
    [.step true, .step true, .advance (millis 16648)] ++ turn

def cooling : Pump :=
  { Pump.new .default with
    governor := { Governor.new .default with coolingUntil := some (secs 60) } }

/-- In a cooldown the governor would let nothing through, so nothing is held back. -/
theorem deferral_in_cooldown_holds_back_only_itself :
    HoldsBackOnly (station 512 .chat 0) 0 cooling.scheduler
      (cooling.decide 0 (station 512 .chat 0)).1.scheduler
      (cooling.decide 0 (station 512 .chat 0)).1.governor := by
  refine (@deferral_holds_back_only_itself_iff cooling 0 (secs 60) (station 512 .chat 0) .cooldown
    (by decide +kernel) (by decide +kernel)).mpr (.inr ?_)
  rintro (⟨x, hx, -⟩ | ⟨-, hsend⟩)
  · have hw : cooling.scheduler.waiting = 0 := by decide +kernel
    rw [hw] at hx
    exact Multiset.notMem_zero _ hx
  · revert hsend
    decide +kernel

/-- The second long frame no longer fits the run. An acknowledgement that is queued then would
fit, and waits as long. -/
theorem acknowledgement_waits_with_deferred_frame :
    ∃ p now item,
      Reachable (system .default) (fun _ _ => True) p ∧ p.phase = .popped now item ∧
      (p.governor.check item.payload.octets now).1 = .defer (millis 1500) .cooldown ∧
      (p.decide now item).2 = [] ∧
      ¬ HoldsBackOnly item now p.scheduler (p.decide now item).1.scheduler
        (p.decide now item).1.governor := by
  refine ⟨secondLongFrame.foldl (fun p e => (p.next e).1) (.new .default), millis 16648,
    station 512 .chat 0, ?_, by decide +kernel, by decide +kernel, by decide +kernel, ?_⟩
  · exact (Reachable.initial rfl).run (by decide +kernel)
  · intro h
    have := h [.queued (station 40 .ack (millis 16648))] (millis 16648) le_rfl (by simp)
      ⟨station 40 .ack (millis 16648), by decide +kernel, by decide +kernel⟩ (by decide +kernel)
    revert this
    decide +kernel

end Deferral
