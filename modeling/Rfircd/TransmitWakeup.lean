import Rfircd.TransitionSystem
import Rfircd.TransmitPump

/-! When the pump sleeps, and for how long.
A wake time is chosen from one look at the scheduler. It stays right while the pump waits
because other tasks only ever add frames, and because whoever adds one wakes the pump. -/
namespace TransmitWakeup

open Basics TransmitScheduler TransmitPump TransitionSystem

def system (cfg : TncConfig) : System Pump Event :=
  .ofNext (· = Pump.new cfg) Enabled fun p e => (p.next e).1

/-- The queue was found empty and the wait is still to be created. -/
def foundIdle : Phase → Bool
  | .polled _ .idle | .looked _ .idle _ | .decided _ _ .idle _ => true
  | _ => false

/-- No notification of a push is issued between a look at an empty queue and the wait. -/
def NoNotificationMissed (p : Pump) : Event → Prop
  | .unlock => foundIdle p.phase = false
  | _ => True

/-- In addition the clock stands still between the two readings a wake time is computed from. -/
def SteadyClock (p : Pump) (e : Event) : Prop :=
  NoNotificationMissed p e ∧
    match p.phase, e with
    | .looked now _ _, .step _ => p.clock = now
    | _, _ => True

instance (p : Pump) (e : Event) : Decidable (NoNotificationMissed p e) := by
  -- not by `cases`, which would leave equations in what is evaluated
  induction e using Event.casesOn <;> dsimp only [NoNotificationMissed] <;> infer_instance

instance (p : Pump) (e : Event) : Decidable (SteadyClock p e) := by
  dsimp only [SteadyClock]
  induction p.phase using Phase.casesOn with
  | looked now poll interlock => induction e using Event.casesOn <;> dsimp only <;> infer_instance
  | _ =>
    dsimp only
    infer_instance

/-- What was found of the scheduler at `now` and is still so. -/
def Found (p : Pump) (now : ℕ) : Poll → Prop
  | .idle => p.scheduler.waiting = 0 ∨ p.locked = true
  | .wait d => p.scheduler.blockedUntil = some (now + d)
  | .ready => True

/-- Why a wake time is early enough; `heard` is whether the wait has been notified. -/
def Justified (p : Pump) (heard : Bool) (wake late : ℕ) (held : Bool) : Poll → Prop
  | .idle => p.scheduler.waiting = 0 ∨ p.locked = true ∨ heard = true
  | .wait _ => ∃ u ∈ p.scheduler.blockedUntil, wake ≤ u + late
  | .ready => wake ≤ p.clock + if held then interlockRepoll else 0

def Vigilant (p : Pump) : Prop :=
  match p.phase with
  | .clocked now | .expired now => now ≤ p.clock
  | .polled now poll | .looked now poll _ => now ≤ p.clock ∧ Found p now poll
  | .decided wake late poll held => Justified p false wake late held poll
  | .waiting wake late poll held => Justified p p.notified wake late held poll
  | _ => True

/-- The other tasks add frames, let time pass and change flags. -/
structure Later (p q : Pump) : Prop where
  phase : q.phase = p.phase
  clock : p.clock ≤ q.clock
  blocked : q.scheduler.blockedUntil = p.scheduler.blockedUntil
  queue : p.scheduler.waiting = 0 ∨ p.locked = true → q.scheduler.waiting = 0 ∨ q.locked = true
  notified : q.notified = p.notified

theorem Found.later {p q : Pump} {now : ℕ} {poll : Poll} (h : Found p now poll)
    (hq : Later p q) : Found q now poll := by
  cases poll with
  | idle => exact hq.queue h
  | wait d => exact hq.blocked.trans h
  | ready => trivial

theorem Justified.later {p q : Pump} {heard : Bool} {wake late : ℕ} {held : Bool} {poll : Poll}
    (h : Justified p heard wake late held poll) (hq : Later p q) :
    Justified q heard wake late held poll := by
  cases poll with
  | idle =>
    rcases h with h | h | h
    · exact or_assoc.mp (.inl (hq.queue (.inl h)))
    · exact or_assoc.mp (.inl (hq.queue (.inr h)))
    · exact .inr (.inr h)
  | wait d =>
    obtain ⟨u, hu, hw⟩ := h
    exact ⟨u, by rw [hq.blocked]; exact hu, hw⟩
  | ready => exact h.trans (Nat.add_le_add_right hq.clock _)

theorem Vigilant.later {p q : Pump} (h : Vigilant p) (hq : Later p q) : Vigilant q := by
  unfold Vigilant at h ⊢
  rw [hq.phase, hq.notified]
  have hc := hq.clock
  cases hp : p.phase <;> simp only [hp] at h ⊢
  · exact h.trans hc
  · exact h.trans hc
  · exact ⟨h.1.trans hc, h.2.later hq⟩
  · exact ⟨h.1.trans hc, h.2.later hq⟩
  · exact h.later hq
  · exact h.later hq

theorem push_blockedUntil {α : Type*} (s : Scheduler α) (item : Queued α) :
    (s.push item).2.blockedUntil = s.blockedUntil := by
  unfold Scheduler.push
  split_ifs <;> rfl

theorem enqueue_later (p : Pump) (item : Queued Ax25.Ax25Frame) :
    Later p (p.next (.enqueue item)).1 := by
  have hb := push_blockedUntil p.scheduler item
  simp only [Pump.next]
  unfold Scheduler.push at hb ⊢
  split_ifs at hb ⊢
  · exact ⟨rfl, le_rfl, rfl, id, rfl⟩
  · exact ⟨rfl, le_rfl, hb, fun _ => .inr rfl, rfl⟩

/-- A notification is lost on every phase but the wait. -/
theorem notifyWaiters_vigilant {p : Pump} (h : Vigilant p) : Vigilant p.notifyWaiters := by
  rcases p with ⟨cfg, scheduler, governor, shared, clock, phase, notified, locked⟩
  cases phase
  case waiting wake late poll held =>
    cases poll with
    | idle => exact .inr (.inr rfl)
    | wait d => exact h
    | ready => exact h
  all_goals exact h

/-- The unlock after a push: the wait hears of it, or the push came before the look. -/
theorem unlock_vigilant {p : Pump} (h : Vigilant p) (hg : foundIdle p.phase = false) :
    Vigilant (p.next .unlock).1 := by
  rcases p with ⟨cfg, scheduler, governor, shared, clock, phase, notified, locked⟩
  cases phase
  case polled now poll => cases poll <;> first | exact h | cases hg
  case looked now poll interlock => cases poll <;> first | exact h | cases hg
  case decided wake late poll held => cases poll <;> first | exact h | cases hg
  case waiting wake late poll held =>
    cases poll with
    | idle => exact .inr (.inr rfl)
    | wait d => exact h
    | ready => exact h
  all_goals exact h

/-! ### The steps of the task -/

/-- The phases in which nothing found of the scheduler is remembered. -/
def blank : Phase → Bool
  | .clocked _ | .expired _ | .polled _ _ | .looked _ _ _ | .decided _ _ _ _ | .waiting _ _ _ _ =>
    false
  | _ => true

theorem vigilant_of_blank {p : Pump} (h : blank p.phase = true) : Vigilant p := by
  unfold Vigilant
  cases hp : p.phase <;> first | trivial | simp [hp, blank] at h

theorem drainInhibited_blank (p : Pump) : blank p.drainInhibited.1.phase = true := by
  unfold Pump.drainInhibited
  simp only
  split_ifs
  · rw [Pump.sweep_phase]
    rfl
  · rfl

theorem takeFrame_blank (p : Pump) : blank p.takeFrame.phase = true := by
  unfold Pump.takeFrame
  split_ifs
  · rfl
  · split
    · split <;> rfl
    · rfl

theorem decide_blank (p : Pump) (now : ℕ) (item : Queued Ax25.Ax25Frame) :
    blank (p.decide now item).1.phase = true := by
  unfold Pump.decide
  split_ifs
  · rfl
  · rfl
  · split
    · rfl
    · split_ifs <;> rfl

theorem key_blank (p : Pump) (now : ℕ) (item : Queued Ax25.Ax25Frame) (written : Bool) :
    blank (p.key now item written).1.phase = true := by
  unfold Pump.key
  split_ifs <;> rfl

theorem found_poll (p : Pump) (now : ℕ) : Found p now (p.scheduler.poll now) := by
  cases hp : p.scheduler.poll now with
  | idle => exact .inl (Scheduler.poll_idle_iff.mp hp)
  | wait d => exact Scheduler.poll_wait hp
  | ready => trivial

theorem chooseWake_justified {p : Pump} {now : ℕ} {poll : Poll} (hnow : now ≤ p.clock)
    (h : Found p now poll) (interlock : Bool) : Vigilant (p.chooseWake now poll interlock) := by
  cases poll with
  | idle =>
    rcases h with h | h
    · exact .inl h
    · exact .inr (.inl h)
  | wait d =>
    refine ⟨now + d, h, ?_⟩
    change p.clock + d ≤ now + d + (p.clock - now)
    omega
  | ready => cases interlock <;> exact le_rfl

theorem advancePhase_vigilant {p : Pump} (written : Bool) (h : Vigilant p) :
    Vigilant (p.advancePhase written).1 := by
  unfold Pump.advancePhase
  cases hp : p.phase <;> simp only [Vigilant, hp] at h
  case top => exact vigilant_of_blank (drainInhibited_blank p)
  case drained => exact le_refl p.clock
  case clocked now =>
    simp only [Vigilant, Pump.expireStale, Pump.sweep_phase, Pump.sweep_clock]
    exact h
  case expired now => exact ⟨h, found_poll p now⟩
  case polled now poll => exact h
  case looked now poll interlock => exact chooseWake_justified h.1 h.2 interlock
  case decided wake late poll held => exact h
  case waiting wake late poll held => simpa only [Vigilant, hp] using h
  case timedOut => exact vigilant_of_blank (takeFrame_blank p)
  case popped now item => exact vigilant_of_blank (decide_blank p now item)
  case cleared now item => exact vigilant_of_blank (key_blank p now item written)
  all_goals exact vigilant_of_blank rfl

theorem vigilant_step {p : Pump} {e : Event} (h : Vigilant p) (hg : NoNotificationMissed p e)
    (he : Enabled p e) : Vigilant (p.next e).1 := by
  cases e with
  | step written => exact advancePhase_vigilant written h
  | woken => exact vigilant_of_blank rfl
  | timer => exact vigilant_of_blank rfl
  | read => exact vigilant_of_blank rfl
  | heard => exact vigilant_of_blank (by simp [Pump.next, he.1, blank])
  | linkDown => exact vigilant_of_blank rfl
  | enqueue item => exact h.later (enqueue_later p item)
  | unlock => exact unlock_vigilant h hg
  | setInhibit b => exact h.later ⟨rfl, le_rfl, rfl, id, rfl⟩
  | setInterlock ok => exact h.later ⟨rfl, le_rfl, rfl, id, rfl⟩
  | setDutyOverride percent => exact h.later ⟨rfl, le_rfl, rfl, id, rfl⟩
  | setPacingOverride ms => exact h.later ⟨rfl, le_rfl, rfl, id, rfl⟩
  | notify => exact notifyWaiters_vigilant h
  | advance d => exact h.later ⟨rfl, Nat.le_add_right _ _, rfl, id, rfl⟩

/-- The ghost of a steady clock. -/
def OnTime (p : Pump) : Prop :=
  match p.phase with
  | .decided _ late _ _ | .waiting _ late _ _ => late = 0
  | _ => True

theorem onTime_of_blank {p : Pump} (h : blank p.phase = true) : OnTime p := by
  unfold OnTime
  cases hp : p.phase <;> first | trivial | simp [hp, blank] at h

theorem onTime_step {p : Pump} {e : Event} (h : OnTime p) (hg : SteadyClock p e)
    (he : Enabled p e) : OnTime (p.next e).1 := by
  cases e with
  | step written =>
    have steady := hg.2
    simp only [Pump.next, Pump.advancePhase]
    cases hp : p.phase <;> simp only [OnTime, hp] at h steady
    case top => exact onTime_of_blank (drainInhibited_blank p)
    case clocked now => simp only [OnTime, Pump.expireStale, Pump.sweep_phase]
    case looked now poll interlock =>
      change p.clock - now = 0
      omega
    case decided wake late poll held => exact h
    case waiting wake late poll held => simpa only [OnTime, hp] using h
    case timedOut => exact onTime_of_blank (takeFrame_blank p)
    case popped now item => exact onTime_of_blank (decide_blank p now item)
    case cleared now item => exact onTime_of_blank (key_blank p now item written)
    all_goals trivial
  | enqueue item =>
    unfold OnTime at h ⊢
    rw [(enqueue_later p item).phase]
    exact h
  | unlock =>
    rcases p with ⟨cfg, scheduler, governor, shared, clock, phase, notified, locked⟩
    cases phase <;> exact h
  | notify =>
    rcases p with ⟨cfg, scheduler, governor, shared, clock, phase, notified, locked⟩
    cases phase <;> exact h
  | heard => exact onTime_of_blank (by simp [Pump.next, he.1, blank])
  | woken | timer | read | linkDown => trivial
  | setInhibit b => exact h
  | setInterlock ok => exact h
  | setDutyOverride percent => exact h
  | setPacingOverride ms => exact h
  | advance d => exact h

theorem reachable_vigilant {cfg : TncConfig} {p : Pump}
    (h : Reachable (system cfg) NoNotificationMissed p) : Vigilant p := by
  refine (Inductive.ofNext ?_ ?_).reachable h
  · rintro p rfl
    trivial
  · intro p e hp hg he
    exact vigilant_step hp hg he

theorem reachable_onTime {cfg : TncConfig} {p : Pump}
    (h : Reachable (system cfg) SteadyClock p) : OnTime p := by
  refine (Inductive.ofNext ?_ ?_).reachable h
  · rintro p rfl
    trivial
  · intro p e hp hg he
    exact onTime_step hp hg he

/-- A pump that nobody is about to wake wakes by itself before the scheduler can be ready. -/
theorem Vigilant.wake_le {p : Pump} (h : Vigilant p) {wake late : ℕ} {poll : Poll} {held : Bool}
    (hp : p.phase = .waiting wake late poll held) (hl : p.locked = false)
    (hn : p.notified = false) (hh : poll = .ready → held = false) {t : ℕ} (ht : p.clock ≤ t)
    (hr : p.scheduler.poll t = .ready) : wake ≤ t + late := by
  obtain ⟨hne, hu⟩ := Scheduler.poll_ready_iff.mp hr
  simp only [Vigilant, hp] at h
  cases poll with
  | idle =>
    rcases h with h | h | h
    · exact absurd h hne
    · simp [hl] at h
    · simp [hn] at h
  | wait d =>
    obtain ⟨u, hb, hw⟩ := h
    have := hu u hb
    omega
  | ready =>
    rw [hh rfl] at h
    change wake ≤ p.clock + 0 at h
    omega

theorem Vigilant.repoll_le {p : Pump} (h : Vigilant p) {wake late : ℕ}
    (hp : p.phase = .waiting wake late .ready true) : wake ≤ p.clock + interlockRepoll := by
  simpa only [Vigilant, hp, Justified, if_true] using h

/-- A wait with nothing to be notified of ends by the first instant at which the scheduler as
it stands would be ready, or within one look at the interlock. Without a steady clock it ends
later by no more than the time between the two readings. -/
theorem wakes_in_time (cfg : TncConfig) :
    (∀ p, Reachable (system cfg) SteadyClock p → ∀ wake late poll held,
      p.phase = .waiting wake late poll held → p.locked = false → p.notified = false →
      (∀ t, p.clock ≤ t → p.scheduler.poll t = .ready → wake ≤ t) ∨
      poll = .ready ∧ held = true ∧ wake ≤ p.clock + interlockRepoll) ∧
    (∀ p, Reachable (system cfg) NoNotificationMissed p → ∀ wake late poll held,
      p.phase = .waiting wake late poll held → p.locked = false → p.notified = false →
      (∀ t, p.clock ≤ t → p.scheduler.poll t = .ready → wake ≤ t + late) ∨
      poll = .ready ∧ held = true ∧ wake ≤ p.clock + interlockRepoll) := by
  have slack : ∀ p, Reachable (system cfg) NoNotificationMissed p → ∀ wake late poll held,
      p.phase = .waiting wake late poll held → p.locked = false → p.notified = false →
      (∀ t, p.clock ≤ t → p.scheduler.poll t = .ready → wake ≤ t + late) ∨
      poll = .ready ∧ held = true ∧ wake ≤ p.clock + interlockRepoll := by
    intro p h wake late poll held hp hl hn
    have hv := reachable_vigilant h
    by_cases hh : poll = .ready ∧ held = true
    · obtain ⟨rfl, rfl⟩ := hh
      exact .inr ⟨rfl, rfl, hv.repoll_le hp⟩
    · refine .inl fun t ht hr => hv.wake_le hp hl hn ?_ ht hr
      intro hready
      simpa [hready] using hh
  refine ⟨?_, slack⟩
  intro p h wake late poll held hp hl hn
  have hlate : late = 0 := by
    have := reachable_onTime h
    simpa only [OnTime, hp] using this
  subst hlate
  exact slack p (h.mono fun _ _ hg => hg.1) wake 0 poll held hp hl hn

def after (events : List Event) : Pump := events.foldl (fun p e => (p.next e).1) (.new .default)

/-- The loop from its start up to the look at the queue, and from there to the wait. -/
def look : List Event := [.step true, .step true, .step true, .step true]
def sleep : List Event := [.step true, .step true, .step true]

def idFrame : Queued Ax25.Ax25Frame :=
  ⟨⟨.new ⟨"ID", 0⟩, .new ⟨"SM0ABC", 7⟩, [], Ax25.controlUi, some Ax25.pidNoL3, []⟩,
    .id, "id", secs 1, 0, false⟩

/-- A frame pushed while the channel is busy: the pump sleeps until it may be clear. -/
theorem wakes_in_time_heard :
    (after (look ++ sleep ++ [.read, .heard, .step true, .enqueue idFrame, .unlock] ++ look ++
      sleep)).phase = .waiting (millis 480) 0 (.wait (millis 480)) false ∧
    ∀ t, (after (look ++ sleep ++ [.read, .heard, .step true, .enqueue idFrame, .unlock] ++ look ++
      sleep)).scheduler.poll t = .ready → millis 480 ≤ t := by
  have hp : (after (look ++ sleep ++ [.read, .heard, .step true, .enqueue idFrame, .unlock] ++
      look ++ sleep)).phase = .waiting (millis 480) 0 (.wait (millis 480)) false := by
    decide +kernel
  refine ⟨hp, fun t ht => ?_⟩
  have h : Reachable (system .default) SteadyClock
      (after (look ++ sleep ++ [.read, .heard, .step true, .enqueue idFrame, .unlock] ++ look ++
        sleep)) :=
    (Reachable.initial rfl).run (by decide +kernel)
  rcases (wakes_in_time .default).1 _ h _ _ _ _ hp (by decide +kernel) (by decide +kernel) with
    hw | ⟨hw, -⟩
  · exact hw t (Nat.zero_le t) ht
  · cases hw

/-- A frame pushed just after the look at an empty queue, its notification issued just before
the wait is created: it is ready at once and waits for an hour. -/
theorem push_left_for_an_hour :
    ∃ p, Reachable (system .default) (fun _ _ => True) p ∧
      p.phase = .waiting (secs 3600) 0 .idle false ∧ p.locked = false ∧ p.notified = false ∧
      p.clock = 0 ∧ p.scheduler.poll 0 = .ready :=
  ⟨after (look ++ [.enqueue idFrame, .unlock] ++ sleep),
    (Reachable.initial rfl).run (by decide +kernel), by decide +kernel, by decide +kernel,
    by decide +kernel, by decide +kernel, by decide +kernel⟩

end TransmitWakeup
