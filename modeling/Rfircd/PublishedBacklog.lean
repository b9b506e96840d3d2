import Rfircd.RadioOff

/-! The backlog that the pump publishes, against what is really queued.
The sweeps of the queues and the publication that follows them take the scheduler's lock one
after the other, so here they are two steps. A pop publishes nothing. -/
namespace PublishedBacklog

open Basics AirtimeGovernor Ax25 TransmitScheduler TransmitPump TransitionSystem

/-- `pending` is a sweep that has still to be published. `disturbed` is a ghost: a frame was
accepted while the pump had another one in hand. -/
structure Gauge where
  pump : Pump
  pending : Bool
  disturbed : Bool

namespace Gauge

/-- A sweep counts what it dropped, and publishes later. -/
def sweep (p : Pump) (out : List (Queued Ax25Frame)) (s : Scheduler Ax25Frame)
    (count : AirtimeShared → ℕ → AirtimeShared) : Pump × Bool :=
  if out = [] then ({ p with scheduler := s }, false)
  else ({ p with scheduler := s, shared := count p.shared out.length }, true)

def drainInhibited (p : Pump) : Pump × Bool :=
  let p := { p with phase := .drained }
  if p.shared.inhibit then
    let (out, s) := p.scheduler.drainExcept .id
    sweep p out s fun sh n => { sh with droppedInhibited := sh.droppedInhibited + n }
  else (p, false)

def expireStale (p : Pump) (now : ℕ) : Pump × Bool :=
  let (out, s) := p.scheduler.expire now
  sweep { p with phase := .expired now } out s
    fun sh n => { sh with droppedStale := sh.droppedStale + n }

/-- The task's own next step. -/
def step (g : Gauge) (written : Bool) : Gauge :=
  if g.pending then { g with pump := g.pump.publish, pending := false }
  else match g.pump.phase with
    | .top => { g with pump := (drainInhibited g.pump).1, pending := (drainInhibited g.pump).2 }
    | .clocked now =>
      { g with pump := (expireStale g.pump now).1, pending := (expireStale g.pump now).2 }
    | .timedOut => { g with pump := g.pump.takeFrame, disturbed := false }
    | _ => { g with pump := (g.pump.advancePhase written).1 }

def next (g : Gauge) : Event → Gauge
  | .step written => g.step written
  | e => { g with
      pump := (g.pump.next e).1
      disturbed := g.disturbed ||
        decide (RadioOff.acceptedBy g.pump e ≠ 0 ∧ g.pump.phase.inHand ≠ 0) }

end Gauge

def system (cfg : TncConfig) : System Gauge Event :=
  .ofNext (fun g => g = ⟨.new cfg, false, false⟩) (fun g => Enabled g.pump) Gauge.next

def everyStep (_ : Gauge) (_ : Event) : Prop := True

instance (g : Gauge) (e : Event) : Decidable (everyStep g e) := inferInstanceAs (Decidable True)

/-- Published at once, the sweeps are those of the pump. -/
theorem publish_sweep (p : Pump) (out : List (Queued Ax25Frame)) (s : Scheduler Ax25Frame)
    (count : AirtimeShared → ℕ → AirtimeShared) :
    (if (Gauge.sweep p out s count).2 then (Gauge.sweep p out s count).1.publish
      else (Gauge.sweep p out s count).1) = p.sweep out s count := by
  by_cases hout : out = []
  · simp only [Gauge.sweep, Pump.sweep, if_pos hout]
    rfl
  · simp only [Gauge.sweep, Pump.sweep, if_neg hout]
    rfl

theorem drainInhibited_refines (p : Pump) :
    (if (Gauge.drainInhibited p).2 then (Gauge.drainInhibited p).1.publish
      else (Gauge.drainInhibited p).1) = p.drainInhibited.1 := by
  by_cases hinhibit : p.shared.inhibit = true
  · simp only [Gauge.drainInhibited, Pump.drainInhibited, hinhibit, if_true]
    exact publish_sweep ..
  · simp only [Gauge.drainInhibited, Pump.drainInhibited, hinhibit]
    rfl

/-- A step of the pump is a step here, with the publication that it leaves. -/
theorem step_refines {g : Gauge} (h : g.pending = false) (written : Bool) :
    (if (g.step written).pending then (g.step written).pump.publish else (g.step written).pump) =
      (g.pump.next (.step written)).1 := by
  simp only [Gauge.step, h, Bool.false_eq_true, if_false, Pump.next, Pump.advancePhase]
  cases g.pump.phase with
  | top => exact drainInhibited_refines g.pump
  | clocked now => exact publish_sweep ..
  | _ => simp only [Bool.false_eq_true, if_false]

/-! ### What is published -/

/-- The numbers tell of these frames; the airtime is counted in whole milliseconds. -/
def Tells (sh : AirtimeShared) (m : Multiset (Queued Ax25Frame)) : Prop :=
  sh.queued = millis ((m.map Queued.cost).sum / millis 1) ∧ sh.queuedFrames = m.card

theorem publish_tells (p : Pump) : Tells p.publish.shared p.scheduler.waiting := by
  refine ⟨?_, p.scheduler.len_eq⟩
  rw [← Scheduler.queuedAirtime_eq]
  rfl

/-- The step puts the popped frame back into its queue. -/
def PutsBack (p : Pump) : Event → Prop
  | .step written => match p.phase with
    | .popped now item => ¬ (p.shared.inhibit = true ∧ item.cls ≠ .id) ∧
        item.payload.octets ≤ p.cfg.maxFrame ∧
        match (p.governor.check item.payload.octets now).1 with
        | .send => False
        | .defer delay _ => ¬ (item.cls ≠ .id ∧ item.cls ≠ .ack ∧
            p.cfg.airtime.maxHold < now - item.queuedAt + delay)
    | .cleared _ _ => p.shared.interlockFailed = true ∨ written = false
    | _ => False
  | _ => False

instance (p : Pump) (e : Event) : Decidable (PutsBack p e) := by
  induction e using Event.casesOn with
  | step written =>
    dsimp only [PutsBack]
    induction p.phase using Phase.casesOn with
    | popped now item =>
      dsimp only
      induction (p.governor.check item.payload.octets now).1 using TxDecision.casesOn <;>
        dsimp only <;> infer_instance
    | cleared now item =>
      dsimp only
      infer_instance
    | _ =>
      dsimp only
      infer_instance
  | _ =>
    dsimp only [PutsBack]
    infer_instance

/-- A popped frame is put back only when none was accepted since. -/
def Undisturbed (g : Gauge) (e : Event) : Prop :=
  g.pending = false → PutsBack g.pump e → g.disturbed = false

instance (g : Gauge) (e : Event) : Decidable (Undisturbed g e) :=
  inferInstanceAs (Decidable (_ → _ → _))

/-- While a frame is out, the numbers still count it, unless they were published since. -/
structure Sound (g : Gauge) : Prop where
  idle : g.pending = true → g.pump.phase = .drained ∨ ∃ now, g.pump.phase = .expired now
  told : g.pending = false → Tells g.pump.shared
    (g.pump.scheduler.waiting + if g.disturbed then 0 else g.pump.phase.inHand)

theorem tells_hand {sh : AirtimeShared} {m n : Multiset (Queued Ax25Frame)} {disturbed : Bool}
    (h : Tells sh (m + if disturbed then 0 else n)) (hn : n = 0) : Tells sh m := by
  rw [hn, ite_self, add_zero] at h
  exact h

/-- What a sweep leaves behind is as published, or will be. -/
theorem sweep_sound {p : Pump} {out : List (Queued Ax25Frame)} {s : Scheduler Ax25Frame}
    {count : AirtimeShared → ℕ → AirtimeShared} {disturbed : Bool}
    (hphase : p.phase = .drained ∨ ∃ now, p.phase = .expired now)
    (hsplit : (out : Multiset (Queued Ax25Frame)) + s.waiting = p.scheduler.waiting)
    (htold : Tells p.shared p.scheduler.waiting) :
    Sound ⟨(Gauge.sweep p out s count).1, (Gauge.sweep p out s count).2, disturbed⟩ := by
  unfold Gauge.sweep
  split_ifs with hout
  · refine ⟨fun h => absurd h Bool.false_ne_true, fun _ => ?_⟩
    have hhand : p.phase.inHand = 0 := by
      rcases hphase with h | ⟨now, h⟩ <;> rw [h] <;> rfl
    simp only [hhand, ite_self, add_zero]
    rw [← hsplit, hout, Multiset.coe_nil, zero_add] at htold
    exact htold
  · exact ⟨fun _ => hphase, fun h => by cases h⟩

variable {g : Gauge}

/-- A step that leaves the queues and the numbers alone, with no frame in hand. -/
theorem Sound.quiet (h : Sound g) (hpending : g.pending = false) (hhand : g.pump.phase.inHand = 0)
    {p : Pump} {disturbed : Bool} (hwaiting : p.scheduler.waiting = g.pump.scheduler.waiting)
    (hqueued : p.shared.queued = g.pump.shared.queued)
    (hframes : p.shared.queuedFrames = g.pump.shared.queuedFrames) (hp : p.phase.inHand = 0) :
    Sound ⟨p, false, disturbed⟩ := by
  refine ⟨fun hp => absurd hp Bool.false_ne_true, fun _ => ?_⟩
  simp only [hp, ite_self, add_zero, hwaiting]
  have htold := tells_hand (h.told hpending) hhand
  exact ⟨hqueued.trans htold.1, hframes.trans htold.2⟩

/-- After a publication the numbers tell of what is queued. -/
theorem published_sound {p : Pump} {disturbed : Bool} (hhand : p.phase.inHand = 0) :
    Sound ⟨p.publish, false, disturbed⟩ := by
  refine ⟨fun hp => absurd hp Bool.false_ne_true, fun _ => ?_⟩
  simp only [Pump.publish_scheduler, Pump.publish_phase, hhand, ite_self, add_zero]
  exact publish_tells p

/-- The numbers count the popped frame on. -/
theorem takeFrame_sound (h : Sound g) (hpending : g.pending = false)
    (hphase : g.pump.phase = .timedOut) : Sound ⟨g.pump.takeFrame, false, false⟩ := by
  have hhand : g.pump.phase.inHand = 0 := by rw [hphase]; rfl
  unfold Pump.takeFrame
  split_ifs
  · exact h.quiet hpending hhand rfl rfl rfl rfl
  · split
    · rcases hpop : g.pump.scheduler.pop g.pump.clock with ⟨- | item, s⟩
      · rw [Scheduler.pop_none hpop]
        exact h.quiet hpending hhand rfl rfl rfl rfl
      · refine ⟨fun hp => absurd hp Bool.false_ne_true, fun _ => ?_⟩
        have htold := tells_hand (h.told hpending) hhand
        rw [← Scheduler.pop_waiting hpop, ← Multiset.singleton_add, add_comm] at htold
        exact htold
    · exact h.quiet hpending hhand rfl rfl rfl rfl

/-- A frame put back is one that the numbers still count. -/
theorem requeue_sound (h : Sound g) (hpending : g.pending = false) (hdisturbed : g.disturbed = false)
    {item : Queued Ax25Frame} (hhand : g.pump.phase.inHand = {item}) {p : Pump}
    (hwaiting : p.scheduler.waiting = item ::ₘ g.pump.scheduler.waiting)
    (hqueued : p.shared.queued = g.pump.shared.queued)
    (hframes : p.shared.queuedFrames = g.pump.shared.queuedFrames) (hp : p.phase.inHand = 0) :
    Sound ⟨p, false, false⟩ := by
  refine ⟨fun hp => absurd hp Bool.false_ne_true, fun _ => ?_⟩
  have htold := h.told hpending
  rw [hdisturbed, hhand, if_neg Bool.false_ne_true, add_comm] at htold
  simp only [hp, ite_self, add_zero, hwaiting, ← Multiset.singleton_add]
  exact ⟨hqueued.trans htold.1, hframes.trans htold.2⟩

theorem drop_sound {p : Pump} {item : Queued Ax25Frame} {why : Drop} {disturbed : Bool} :
    Sound ⟨(p.drop item why).1, false, disturbed⟩ := published_sound rfl

theorem decide_sound (h : Sound g) (hpending : g.pending = false) {now : ℕ}
    {item : Queued Ax25Frame} (hphase : g.pump.phase = .popped now item) {written : Bool}
    (hback : PutsBack g.pump (.step written) → g.disturbed = false) :
    Sound ⟨(g.pump.decide now item).1, false, g.disturbed⟩ := by
  have hhand : g.pump.phase.inHand = {item} := by rw [hphase]; rfl
  simp only [PutsBack, hphase] at hback
  unfold Pump.decide
  split_ifs with hi ho
  · exact drop_sound
  · exact drop_sound
  · rcases hc : g.pump.governor.check item.payload.octets now with ⟨- | ⟨delay, reason⟩, gov⟩
    · refine ⟨fun hp => absurd hp Bool.false_ne_true, fun _ => ?_⟩
      have htold := h.told hpending
      rw [hhand] at htold
      exact htold
    · simp only
      split_ifs with hd
      · exact drop_sound
      · have hdisturbed : g.disturbed = false := hback ⟨hi, not_lt.mp ho, by rw [hc]; exact hd⟩
        rw [hdisturbed]
        exact requeue_sound h hpending hdisturbed hhand (g.pump.scheduler.requeue_waiting item now delay)
          rfl rfl rfl

theorem key_sound (h : Sound g) (hpending : g.pending = false) {now : ℕ}
    {item : Queued Ax25Frame} (hphase : g.pump.phase = .cleared now item) {written : Bool}
    (hback : PutsBack g.pump (.step written) → g.disturbed = false) :
    Sound ⟨(g.pump.key now item written).1, false, g.disturbed⟩ := by
  have hhand : g.pump.phase.inHand = {item} := by rw [hphase]; rfl
  simp only [PutsBack, hphase] at hback
  unfold Pump.key
  split_ifs with hi hw
  · have hdisturbed : g.disturbed = false := hback (.inl hi)
    rw [hdisturbed]
    exact requeue_sound h hpending hdisturbed hhand (g.pump.scheduler.requeue_waiting item now _)
      rfl rfl rfl
  · have hdisturbed : g.disturbed = false := hback (.inr (by simpa using hw))
    rw [hdisturbed]
    exact requeue_sound h hpending hdisturbed hhand (g.pump.scheduler.requeue_waiting item _ 0)
      rfl rfl rfl
  · exact published_sound rfl

theorem step_sound (h : Sound g) {written : Bool} (hg : Undisturbed g (.step written)) :
    Sound (g.step written) := by
  unfold Gauge.step
  split_ifs with hpending
  · refine published_sound ?_
    rcases h.idle hpending with hphase | ⟨now, hphase⟩ <;> rw [hphase] <;> rfl
  · rw [Bool.not_eq_true] at hpending
    have htold := h.told hpending
    have quiet : g.pump.phase.inHand = 0 → ∀ p : Pump, p.scheduler.waiting = g.pump.scheduler.waiting →
        p.shared = g.pump.shared → p.phase.inHand = 0 → Sound ⟨p, g.pending, g.disturbed⟩ := by
      intro hhand p hwaiting hshared hp
      rw [hpending]
      exact h.quiet hpending hhand hwaiting (hshared ▸ rfl) (hshared ▸ rfl) hp
    cases hphase : g.pump.phase with
    | top =>
      have hhand : g.pump.phase.inHand = 0 := by rw [hphase]; rfl
      simp only [Gauge.drainInhibited]
      split_ifs
      · exact sweep_sound (.inl rfl) (g.pump.scheduler.drainExcept_waiting .id) (tells_hand htold hhand)
      · exact h.quiet hpending hhand rfl rfl rfl rfl
    | clocked now =>
      have hhand : g.pump.phase.inHand = 0 := by rw [hphase]; rfl
      exact sweep_sound (.inr ⟨now, rfl⟩) (g.pump.scheduler.expire_waiting now) (tells_hand htold hhand)
    | timedOut =>
      simp only [hpending]
      exact takeFrame_sound h hpending hphase
    | popped now item =>
      simp only [Pump.advancePhase, hphase, hpending]
      exact decide_sound h hpending hphase (hg hpending)
    | cleared now item =>
      simp only [Pump.advancePhase, hphase, hpending]
      exact key_sound h hpending hphase (hg hpending)
    | waiting wake late poll held =>
      simp only [Pump.advancePhase, hphase]
      exact quiet (by rw [hphase]; rfl) _ rfl rfl (by rw [hphase]; rfl)
    | _ =>
      simp only [Pump.advancePhase, hphase]
      exact quiet (by rw [hphase]; rfl) _ rfl rfl rfl

/-- What the other tasks do to the queues is published. -/
theorem enqueue_sound (h : Sound g) (item : Queued Ax25Frame) :
    Sound (g.next (.enqueue item)) := by
  simp only [Gauge.next, Pump.next, RadioOff.acceptedBy]
  unfold Scheduler.push
  split_ifs
  · simpa using ⟨h.idle, h.told⟩
  · refine ⟨h.idle, fun _ => ?_⟩
    simp only [Pump.publish_scheduler, Pump.publish_phase]
    by_cases hhand : g.pump.phase.inHand = 0
    · simp only [hhand, ite_self, add_zero]
      exact publish_tells _
    · simp only [hhand, ne_eq, Multiset.singleton_ne_zero, not_false_eq_true, and_self, decide_true,
        Bool.or_true, if_true, add_zero]
      exact publish_tells _

theorem notifyWaiters_sound {p : Pump} {pending disturbed : Bool}
    (h : Sound ⟨p, pending, disturbed⟩) : Sound ⟨p.notifyWaiters, pending, disturbed⟩ := by
  unfold Pump.notifyWaiters
  split
  · exact ⟨h.idle, h.told⟩
  · exact h

/-- The other events accept nothing. -/
theorem next_other {e : Event} (hstep : ∀ written, e ≠ .step written)
    (henqueue : ∀ item, e ≠ .enqueue item) :
    g.next e = ⟨(g.pump.next e).1, g.pending, g.disturbed⟩ := by
  have hnone : RadioOff.acceptedBy g.pump e = 0 := by
    cases e with
    | enqueue item => exact absurd rfl (henqueue item)
    | _ => rfl
  cases e with
  | step written => exact absurd rfl (hstep written)
  | _ => simp [Gauge.next, hnone]

theorem next_sound {e : Event} (h : Sound g) (hg : Undisturbed g e) (he : Enabled g.pump e) :
    Sound (g.next e) := by
  have hresting : g.pump.phase.isWaiting = true → g.pending = false ∧ g.pump.phase.inHand = 0 := by
    intro hwaits
    constructor
    · by_contra hpending
      rw [Bool.not_eq_false] at hpending
      rcases h.idle hpending with hphase | ⟨now, hphase⟩ <;> rw [hphase] at hwaits <;> cases hwaits
    · cases hphase : g.pump.phase <;> rw [hphase] at hwaits <;> first | rfl | cases hwaits
  have quiet : ∀ p : Pump, g.pending = false ∧ g.pump.phase.inHand = 0 →
      p.scheduler.waiting = g.pump.scheduler.waiting → p.shared = g.pump.shared →
      p.phase.inHand = 0 → Sound ⟨p, g.pending, g.disturbed⟩ := by
    rintro p ⟨hpending, hhand⟩ hwaiting hshared hp
    rw [hpending]
    exact h.quiet hpending hhand hwaiting (hshared ▸ rfl) (hshared ▸ rfl) hp
  cases e with
  | step written => exact step_sound h hg
  | enqueue item => exact enqueue_sound h item
  | woken =>
    rw [next_other (by simp) (by simp)]
    exact quiet _ (hresting he.1) rfl rfl rfl
  | timer =>
    rw [next_other (by simp) (by simp)]
    exact quiet _ (hresting he.1) rfl rfl rfl
  | read =>
    rw [next_other (by simp) (by simp)]
    exact quiet _ (hresting he) rfl rfl rfl
  | linkDown =>
    rw [next_other (by simp) (by simp)]
    refine quiet _ ?_ rfl rfl rfl
    rcases he with hwaits | hphase
    · exact hresting hwaits
    · refine ⟨?_, by rw [hphase]; rfl⟩
      by_contra hpending
      rw [Bool.not_eq_false] at hpending
      rcases h.idle hpending with hidle | ⟨now, hidle⟩ <;> rw [hphase] at hidle <;> cases hidle
  | unlock =>
    rw [next_other (by simp) (by simp)]
    exact notifyWaiters_sound ⟨h.idle, h.told⟩
  | notify =>
    rw [next_other (by simp) (by simp)]
    exact notifyWaiters_sound h
  | _ =>
    rw [next_other (by simp) (by simp)]
    exact ⟨h.idle, h.told⟩

theorem sound_inductive {cfg : TncConfig} : Inductive (system cfg) Undisturbed Sound := by
  refine .ofNext ?_ fun g e h hg he => next_sound h hg he
  rintro _ rfl
  have hempty : (Pump.new cfg).scheduler.waiting = 0 := Scheduler.isEmpty_iff.mp rfl
  refine ⟨fun h => absurd h Bool.false_ne_true, fun _ => ?_⟩
  rw [hempty]
  change Tells AirtimeShared.new (0 + 0)
  simp [Tells, AirtimeShared.new, millis]

/-- With no frame in hand and nothing left to publish, the numbers are those of the scheduler. -/
def Current (g : Gauge) : Prop :=
  g.pending = false → g.pump.phase.inHand = 0 →
    g.pump.shared.queued = millis (g.pump.scheduler.queuedAirtime / millis 1) ∧
      g.pump.shared.queuedFrames = g.pump.scheduler.len

theorem backlog_current {cfg : TncConfig} (h : Reachable (system cfg) Undisturbed g) : Current g := by
  intro hpending hhand
  have htold := tells_hand ((sound_inductive.reachable h).told hpending) hhand
  rw [Scheduler.queuedAirtime_eq, Scheduler.len_eq]
  exact htold

/-! ### A link that dies -/

def chat : Queued Ax25Frame where
  payload := ⟨.new ⟨"M7GRW", 0⟩, .new ⟨"GATE", 0⟩, [], controlUi, some pidNoL3, List.replicate 40 0⟩
  cls := .chat
  account := "M7GRW"
  cost := (Governor.new .default).airtimeFor 56
  queuedAt := 0
  expectsReply := false

/-- A frame is queued, and the task goes once around its loop, to the frame. -/
def poppedFrame : List Event :=
  [.enqueue chat, .unlock] ++ List.replicate 7 (.step true) ++ [.timer, .step true]

def run (es : List Event) : Gauge := es.foldl Gauge.next ⟨.new .default, false, false⟩

/-- Another frame comes in before the link fails. -/
def staleBacklog : List Event := poppedFrame ++ [.enqueue chat, .unlock, .step true, .step false]

theorem backlog_stale :
    Reachable (system .default) everyStep (run staleBacklog) ∧
      (run staleBacklog).pending = false ∧ (run staleBacklog).pump.phase = .reconnecting ∧
      (run staleBacklog).pump.shared.queuedFrames = 1 ∧
      (run staleBacklog).pump.scheduler.len = 2 ∧ ¬ Current (run staleBacklog) := by
  have hphase : (run staleBacklog).pump.phase = .reconnecting := by decide +kernel
  have hpending : (run staleBacklog).pending = false := by decide +kernel
  have hframes : (run staleBacklog).pump.shared.queuedFrames = 1 := by decide +kernel
  have hlen : (run staleBacklog).pump.scheduler.len = 2 := by decide +kernel
  refine ⟨(Reachable.initial rfl).run (by decide +kernel), hpending, hphase, hframes, hlen,
    fun h => ?_⟩
  have := (h hpending (by rw [hphase]; rfl)).2
  omega

/-- The link fails, and the next frame comes in after it. -/
def keptBacklog : List Event := poppedFrame ++ [.step true, .step false, .enqueue chat, .unlock]

theorem backlog_kept : Current (run keptBacklog) :=
  backlog_current ((Reachable.initial rfl).run (by decide +kernel))

end PublishedBacklog
