import Rfircd.Basics
import Mathlib.Algebra.Order.Floor.Div
import Mathlib.Data.Rat.Floor
import Mathlib.Tactic.NormNum

/-! The transmitter airtime governor.
Durations are exact; the fractions of the configuration are rationals, so
`Duration::mul_f64` is an exact product. -/
namespace AirtimeGovernor

open Basics

def framingOctets : ℕ := 4
def runGap : ℕ := secs 3
def hardMaxDuty : ℚ := 1 / 2

structure AirtimeConfig where
  enabled : Bool
  baud : ℕ
  txdelay : ℕ
  txtail : ℕ
  window : ℕ
  maxDuty : ℚ
  maxContinuous : ℕ
  cooldown : ℕ
  hourlyBudget : ℕ
  maxHold : ℕ
  stuffing : ℚ
  deriving DecidableEq

/-- A QRP HF station: 300 baud, small finals, shared channel. -/
def AirtimeConfig.default : AirtimeConfig where
  enabled := true
  baud := 300
  txdelay := millis 400
  txtail := millis 300
  window := secs 600
  maxDuty := 1 / 4
  maxContinuous := secs 30
  cooldown := secs 60
  hourlyBudget := secs 900
  maxHold := secs 120
  stuffing := 21 / 20

inductive DeferReason where
  | duty
  | cooldown
  | hourlyBudget
  deriving DecidableEq, Repr

inductive TxDecision where
  | send
  | defer (delay : ℕ) (reason : DeferReason)
  deriving DecidableEq, Repr

/-- One transmission that has already happened. -/
structure Burst where
  stop : ℕ
  len : ℕ
  deriving DecidableEq, Repr

/-- Airtime of the bursts that ended at most `w` before `t`. -/
def spent (l : List Burst) (t w : ℕ) : ℕ :=
  ((l.filter fun b => t - b.stop ≤ w).map Burst.len).sum

@[simp] theorem spent_nil (t w : ℕ) : spent [] t w = 0 := rfl

@[simp] theorem spent_cons (b : Burst) (l : List Burst) (t w : ℕ) :
    spent (b :: l) t w = (if t - b.stop ≤ w then b.len else 0) + spent l t w := by
  unfold spent
  by_cases h : t - b.stop ≤ w
  · rw [List.filter_cons_of_pos (by simpa using h), if_pos h, List.map_cons, List.sum_cons]
  · rw [List.filter_cons_of_neg (by simpa using h), if_neg h, zero_add]

theorem spent_append (l l' : List Burst) (t w : ℕ) :
    spent (l ++ l') t w = spent l t w + spent l' t w := by
  simp [spent, List.filter_append]

/-- Forgetting a prefix of bursts that are older than the window forgets nothing. -/
theorem spent_dropWhile (l : List Burst) {now t w horizon : ℕ} (ht : now ≤ t)
    (hw : w ≤ horizon) :
    spent (l.dropWhile fun b => horizon < now - b.stop) t w = spent l t w := by
  induction l with
  | nil => rfl
  | cons b l ih =>
    by_cases hb : horizon < now - b.stop
    · have : ¬ t - b.stop ≤ w := by omega
      rw [List.dropWhile_cons_of_pos (by simpa using hb), ih, spent_cons, if_neg this, zero_add]
    · rw [List.dropWhile_cons_of_neg (by simpa using hb)]

/-- `bursts` is newest last, `coolingUntil` is set when `maxContinuous` is reached. -/
structure Governor where
  cfg : AirtimeConfig
  bursts : List Burst
  lastEnd : Option ℕ
  run : ℕ
  coolingUntil : Option ℕ
  total : ℕ
  deriving DecidableEq

def Governor.new (cfg : AirtimeConfig) : Governor := ⟨cfg, [], none, 0, none, 0⟩

namespace AirtimeConfig

def effectiveDuty (c : AirtimeConfig) : ℚ := max 0 (min c.maxDuty hardMaxDuty)

def burstDuty (c : AirtimeConfig) : ℚ :=
  if c.maxContinuous + c.cooldown ≤ 0 then 1
  else c.maxContinuous / (c.maxContinuous + c.cooldown)

/-- Rounding of `{:.0}`: to the nearest whole number, ties to even. -/
def roundTiesEven (q : ℚ) : ℤ :=
  if q - ⌊q⌋ < 1 / 2 then ⌊q⌋
  else if 1 / 2 < q - ⌊q⌋ then ⌊q⌋ + 1
  else if ⌊q⌋ % 2 = 0 then ⌊q⌋ else ⌊q⌋ + 1

def checkHardwareSafe (c : AirtimeConfig) : Except String Unit :=
  if c.enabled = false then .ok ()
  else if c.burstDuty > hardMaxDuty then
    .error ("a " ++ toString (c.maxContinuous / secs 1) ++ " s transmit run with a " ++
      toString (c.cooldown / secs 1) ++ " s cooldown is a " ++
      toString (roundTiesEven (c.burstDuty * 100)) ++ "% burst duty cycle; the ceiling is " ++
      toString (roundTiesEven (hardMaxDuty * 100)) ++ "%. Give it a cooldown of at least " ++
      toString (c.maxContinuous / secs 1) ++ " s, or shorten the run.")
  else .ok ()

def hourlyBudgetWindow (c : AirtimeConfig) : ℕ :=
  if c.hourlyBudget = 0 then 0 else secs 3600

end AirtimeConfig

namespace Governor

def setDuty (g : Governor) (duty : ℚ) : Governor :=
  { g with cfg := { g.cfg with maxDuty := duty } }

def allowance (g : Governor) : ℚ := g.cfg.window * g.cfg.effectiveDuty

/-- Key-down time of a frame, truncated to microseconds as the source truncates it. -/
def airtimeFor (g : Governor) (octets : ℕ) : ℕ :=
  let baud : ℚ := max g.cfg.baud 1
  let bits : ℚ := (octets + framingOctets) * 8
  let stuffed := bits * max g.cfg.stuffing 1
  g.cfg.txdelay + micros ⌊stuffed * 1000000 / baud⌋₊ + g.cfg.txtail

def retention (g : Governor) : ℕ := max g.cfg.window g.cfg.hourlyBudgetWindow

def trim (g : Governor) (now : ℕ) : Governor :=
  { g with bursts := g.bursts.dropWhile fun b => g.retention < now - b.stop }

def airtimeWithin (g : Governor) (now : ℕ) (window : ℕ) : ℕ :=
  spent g.bursts now window

/-- The loop of `retry_delay`; `none` when no burst that leaves makes room. -/
def retryLoop (now : ℕ) (window : ℕ) (allowance : ℚ) (cost : ℕ) :
    ℕ → List Burst → Option ℕ
  | _, [] => none
  | used, b :: rest =>
    if window < now - b.stop then retryLoop now window allowance cost used rest
    else if ((used + cost : ℕ) : ℚ) ≤ allowance then none
    else
      let used := used - b.len
      if ((used + cost : ℕ) : ℚ) ≤ allowance then
        some (max (b.stop + window - now) (millis 100))
      else retryLoop now window allowance cost used rest

def retryDelay (g : Governor) (now : ℕ) (window : ℕ) (allowance : ℚ)
    (cost : ℕ) : ℕ :=
  (retryLoop now window allowance cost (g.airtimeWithin now window) g.bursts).getD
    (max (min window (secs 30)) (millis 100))

/-- A gap long enough for the finals to recover ends the current run. -/
def endRun (g : Governor) (now : ℕ) : Governor :=
  match g.lastEnd with
  | some last => if runGap ≤ now - last then { g with run := 0 } else g
  | none => g

/-- The three limits, on a governor whose cooldown and run are already settled. -/
def limits (g : Governor) (cost : ℕ) (now : ℕ) : TxDecision :=
  if g.cfg.maxContinuous < g.run + cost ∧ 0 < g.run then
    .defer (max ((g.lastEnd.getD now + runGap) - now) (millis 1)) .cooldown
  else if g.allowance < ((g.airtimeWithin now g.cfg.window + cost : ℕ) : ℚ) then
    .defer (g.retryDelay now g.cfg.window g.allowance cost) .duty
  else if g.cfg.hourlyBudget ≠ 0 ∧
      g.cfg.hourlyBudget < g.airtimeWithin now g.cfg.hourlyBudgetWindow + cost then
    .defer (g.retryDelay now g.cfg.hourlyBudgetWindow g.cfg.hourlyBudget cost) .hourlyBudget
  else .send

/-- `check` for a frame of known cost. -/
def checkCost (g : Governor) (cost : ℕ) (now : ℕ) : TxDecision × Governor :=
  if g.cfg.enabled = false then (.send, g)
  else
    let g := g.trim now
    match g.coolingUntil with
    | some «until» =>
      if now < «until» then (.defer («until» - now) .cooldown, g)
      else
        let g := { g with coolingUntil := none, run := 0 }.endRun now
        (g.limits cost now, g)
    | none =>
      let g := g.endRun now
      (g.limits cost now, g)

def check (g : Governor) (octets : ℕ) (now : ℕ) : TxDecision × Governor :=
  g.checkCost (g.airtimeFor octets) now

/-- `record` for a frame of known cost; returns the key-down time the caller paces by. -/
def recordCost (g : Governor) (cost : ℕ) (now : ℕ) : ℕ × Governor :=
  if g.cfg.enabled = false then (0, g)
  else
    let stop := now + cost
    let g := g.endRun now
    let g := { g with
      run := g.run + cost
      total := g.total + cost
      lastEnd := some stop
      bursts := g.bursts ++ [Burst.mk stop cost] }
    let g := g.trim now
    if g.cfg.enabled ∧ g.cfg.maxContinuous ≤ g.run then
      (cost, { g with coolingUntil := some (stop + g.cfg.cooldown) })
    else (cost, g)

def record (g : Governor) (octets : ℕ) (now : ℕ) : ℕ × Governor :=
  g.recordCost (g.airtimeFor octets) now

/-- Time until a frame could be sent; the read-only query of admission control. -/
def timeUntilClear (g : Governor) (octets : ℕ) (now : ℕ) : ℕ :=
  if g.cfg.enabled = false then 0
  else
    let wait := (g.coolingUntil.map (· - now)).getD 0
    let cost := g.airtimeFor octets
    let run := if (g.lastEnd.map fun l => decide (runGap ≤ now - l)).getD true then 0 else g.run
    let wait := if 0 < run ∧ g.cfg.maxContinuous < run + cost then
      max wait ((g.lastEnd.getD now + runGap) - now) else wait
    let wait := if g.allowance < ((g.airtimeWithin now g.cfg.window + cost : ℕ) : ℚ) then
      max wait (g.retryDelay now g.cfg.window g.allowance cost) else wait
    let hour := g.cfg.hourlyBudgetWindow
    if g.cfg.hourlyBudget ≠ 0 ∧ g.cfg.hourlyBudget < g.airtimeWithin now hour + cost then
      max wait (g.retryDelay now hour g.cfg.hourlyBudget cost)
    else wait

/-! ### What a check and a record do -/

theorem trim_airtimeWithin (g : Governor) {now t : ℕ} {w : ℕ} (ht : now ≤ t)
    (hw : w ≤ g.retention) : (g.trim now).airtimeWithin t w = g.airtimeWithin t w :=
  spent_dropWhile g.bursts ht hw

@[simp] theorem trim_cfg (g : Governor) (now : ℕ) : (g.trim now).cfg = g.cfg := rfl
@[simp] theorem trim_run (g : Governor) (now : ℕ) : (g.trim now).run = g.run := rfl
@[simp] theorem trim_lastEnd (g : Governor) (now : ℕ) :
    (g.trim now).lastEnd = g.lastEnd := rfl
@[simp] theorem trim_coolingUntil (g : Governor) (now : ℕ) :
    (g.trim now).coolingUntil = g.coolingUntil := rfl

@[simp] theorem endRun_cfg (g : Governor) (now : ℕ) : (g.endRun now).cfg = g.cfg := by
  unfold endRun; split <;> (try split) <;> rfl
@[simp] theorem endRun_bursts (g : Governor) (now : ℕ) :
    (g.endRun now).bursts = g.bursts := by
  unfold endRun; split <;> (try split) <;> rfl
@[simp] theorem endRun_lastEnd (g : Governor) (now : ℕ) :
    (g.endRun now).lastEnd = g.lastEnd := by
  unfold endRun; split <;> (try split) <;> rfl
@[simp] theorem endRun_coolingUntil (g : Governor) (now : ℕ) :
    (g.endRun now).coolingUntil = g.coolingUntil := by
  unfold endRun; split <;> (try split) <;> rfl

@[simp] theorem endRun_airtimeWithin (g : Governor) (now t : ℕ) (w : ℕ) :
    (g.endRun now).airtimeWithin t w = g.airtimeWithin t w := by
  simp [airtimeWithin]

@[simp] theorem endRun_allowance (g : Governor) (now : ℕ) :
    (g.endRun now).allowance = g.allowance := by
  simp [allowance]

theorem endRun_run (g : Governor) {now : ℕ}
    (h : ∀ last ∈ g.lastEnd, now < last + runGap) : (g.endRun now).run = g.run := by
  unfold endRun
  split
  · rename_i last hl
    have := h last hl
    rw [if_neg (by unfold runGap secs at *; omega)]
  · rfl

/-- A check changes nothing that a later decision about airtime could see. -/
theorem checkCost_frame (g : Governor) (cost : ℕ) (now : ℕ) :
    (g.checkCost cost now).2.cfg = g.cfg ∧ (g.checkCost cost now).2.lastEnd = g.lastEnd ∧
    ∀ t w, now ≤ t → w ≤ g.retention →
      (g.checkCost cost now).2.airtimeWithin t w = g.airtimeWithin t w := by
  have trimmed : ∀ t w, now ≤ t → w ≤ g.retention →
      (g.trim now).airtimeWithin t w = g.airtimeWithin t w :=
    fun _ _ ht hw => trim_airtimeWithin g ht hw
  unfold checkCost
  split
  · exact ⟨rfl, rfl, fun _ _ _ _ => rfl⟩
  · simp only
    split
    · split
      · exact ⟨rfl, rfl, trimmed⟩
      · refine ⟨by simp, by simp, fun t w ht hw => ?_⟩
        rw [endRun_airtimeWithin]
        exact trimmed t w ht hw
    · refine ⟨by simp, by simp, fun t w ht hw => ?_⟩
      rw [endRun_airtimeWithin]
      exact trimmed t w ht hw

/-- While the last run is not over and the cooldown not expired, a check keeps the run. -/
theorem checkCost_run (g : Governor) (cost : ℕ) {now : ℕ}
    (hl : ∀ last ∈ g.lastEnd, now < last + runGap) (hc : ∀ u ∈ g.coolingUntil, now < u) :
    (g.checkCost cost now).2.run = g.run := by
  unfold checkCost
  split
  · rfl
  · simp only [trim_coolingUntil]
    split
    · rename_i u hu
      rw [if_pos (hc u hu)]
      rfl
    · exact endRun_run (g.trim now) hl

theorem checkCost_cooling (g : Governor) (cost : ℕ) (now : ℕ) {u : ℕ}
    (h : u ∈ (g.checkCost cost now).2.coolingUntil) : u ∈ g.coolingUntil := by
  revert h
  unfold checkCost
  split
  · exact id
  · simp only [trim_coolingUntil]
    split
    · split
      · exact id
      · simp
    · simp_all

theorem limits_send {g : Governor} {cost : ℕ} {now : ℕ}
    (h : g.limits cost now = .send) :
    (g.run + cost ≤ g.cfg.maxContinuous ∨ g.run = 0) ∧
    ((g.airtimeWithin now g.cfg.window + cost : ℕ) : ℚ) ≤ g.allowance ∧
    (g.cfg.hourlyBudget ≠ 0 →
      g.airtimeWithin now g.cfg.hourlyBudgetWindow + cost ≤ g.cfg.hourlyBudget) := by
  unfold limits at h
  split_ifs at h with hrun hduty hhour
  refine ⟨by omega, not_lt.mp hduty, fun hb => ?_⟩
  by_contra hlt
  exact hhour ⟨hb, by omega⟩

/-- What a check must have found to answer `send`. -/
theorem checkCost_send {g : Governor} {cost : ℕ} {now : ℕ}
    (he : g.cfg.enabled = true) (h : (g.checkCost cost now).1 = .send) :
    (g.checkCost cost now).2.coolingUntil = none ∧
    ((g.checkCost cost now).2.run + cost ≤ g.cfg.maxContinuous ∨
      (g.checkCost cost now).2.run = 0) ∧
    ((g.airtimeWithin now g.cfg.window + cost : ℕ) : ℚ) ≤ g.allowance ∧
    (g.cfg.hourlyBudget ≠ 0 →
      g.airtimeWithin now g.cfg.hourlyBudgetWindow + cost ≤ g.cfg.hourlyBudget) := by
  have hw := trim_airtimeWithin g (le_refl now) (le_max_left g.cfg.window _)
  have hh := trim_airtimeWithin g (le_refl now) (le_max_right g.cfg.window _)
  unfold checkCost at h ⊢
  simp only [he, Bool.true_eq_false, if_false, trim_coolingUntil] at h ⊢
  split at h
  · rename_i u hu
    split at h
    · cases h
    · rename_i hn
      have hl := limits_send h
      simp only [endRun_cfg, endRun_airtimeWithin, endRun_allowance, trim_cfg] at hl
      simp only [hn, if_false]
      refine ⟨by simp, hl.1, ?_, ?_⟩
      · rw [← hw]; exact hl.2.1
      · rw [← hh]; exact hl.2.2
  · rename_i hu
    have hl := limits_send h
    simp only [endRun_cfg, endRun_airtimeWithin, endRun_allowance, trim_cfg] at hl
    refine ⟨by simpa using hu, hl.1, ?_, ?_⟩
    · rw [← hw]; exact hl.2.1
    · rw [← hh]; exact hl.2.2

/-- Everything `record` leaves behind on an enabled governor. -/
theorem recordCost_spec {g : Governor} (cost : ℕ) (now : ℕ)
    (he : g.cfg.enabled = true) :
    let g' := (g.recordCost cost now).2
    g'.cfg = g.cfg ∧ g'.lastEnd = some (now + cost) ∧
    g'.run = (g.endRun now).run + cost ∧
    (∀ u ∈ g'.coolingUntil, u ∈ g.coolingUntil ∨ u = now + cost + g.cfg.cooldown) ∧
    ∀ t w, now ≤ t → w ≤ g.retention → g'.airtimeWithin t w =
      g.airtimeWithin t w + if t - (now + cost) ≤ w then cost else 0 := by
  have window : ∀ t w, now ≤ t → w ≤ g.retention →
      (({ g.endRun now with
          run := (g.endRun now).run + cost
          total := (g.endRun now).total + cost
          lastEnd := some (now + cost)
          bursts := (g.endRun now).bursts ++ [Burst.mk (now + cost) cost] } :
        Governor).trim now).airtimeWithin t w =
      g.airtimeWithin t w + if t - (now + cost) ≤ w then cost else 0 := by
    intro t w ht hw
    rw [trim_airtimeWithin _ ht (by simpa [retention] using hw)]
    simp only [airtimeWithin, endRun_bursts, spent_append, spent_cons, spent_nil, add_zero]
  intro g'
  by_cases hr : g.cfg.maxContinuous ≤ (g.endRun now).run + cost
  · have hg : g' = { (({ g.endRun now with
          run := (g.endRun now).run + cost
          total := (g.endRun now).total + cost
          lastEnd := some (now + cost)
          bursts := (g.endRun now).bursts ++ [Burst.mk (now + cost) cost] } :
        Governor).trim now) with coolingUntil := some (now + cost + g.cfg.cooldown) } := by
      simp [g', recordCost, he, hr]
    rw [hg]
    refine ⟨by simp, rfl, rfl, by simp, window⟩
  · have hg : g' = (({ g.endRun now with
          run := (g.endRun now).run + cost
          total := (g.endRun now).total + cost
          lastEnd := some (now + cost)
          bursts := (g.endRun now).bursts ++ [Burst.mk (now + cost) cost] } :
        Governor).trim now) := by
      simp [g', recordCost, he, hr]
    rw [hg]
    refine ⟨by simp, rfl, rfl, fun u hu => .inl (by simpa using hu), window⟩

end Governor

end AirtimeGovernor
