import Rfircd.AirtimeGovernor
import Rfircd.Ax25
import Rfircd.TransmitScheduler

/-! The TNC task: the loop that takes frames from the scheduler to the transmitter.
One step is one access to what the task shares with others. The scheduler's lock is held by
`enqueue` until its notification is issued. The link is one that reconnects; the test
loopback, which drains the queue when it closes, is not modelled. -/
namespace TransmitPump

open Basics AirtimeGovernor Ax25 TransmitScheduler

/-- The idle sleep. -/
def idleSleep : ℕ := secs 3600
/-- A held frame looks at the interlock again after this long. -/
def interlockRepoll : ℕ := millis 500
def interlockRequeue : ℕ := millis 200

structure TncConfig where
  maxFrame : ℕ
  txPacing : ℕ
  txQueueDepth : ℕ
  airtime : AirtimeConfig

def TncConfig.default : TncConfig := ⟨512, millis 1500, 64, .default⟩

def schedulerFromTnc (config : TncConfig) : SchedulerConfig :=
  { SchedulerConfig.default with
    maxHold := config.airtime.maxHold
    minGap := config.txPacing
    replyWindow := if config.txPacing = 0 then millis 20
      else (Governor.new config.airtime).airtimeFor 40 + millis 200
    rxGuard := if config.txPacing = 0 then millis 20 else config.airtime.txdelay + millis 80
    depth
      | .chat => max config.txQueueDepth 1
      | .id => 4
      | c => SchedulerConfig.default.depth c }

/-- The flags and counters shared with the server, less the gauges only operators read. -/
structure AirtimeShared where
  inhibit : Bool
  interlockOk : Bool
  dutyPctOverride : ℕ
  pacingMsOverride : ℕ
  queued : ℕ
  queuedFrames : ℕ
  deferred : ℕ
  droppedStale : ℕ
  droppedInhibited : ℕ

namespace AirtimeShared

def new : AirtimeShared := ⟨false, true, 0, 0, 0, 0, 0, 0, 0⟩

def interlockFailed (sh : AirtimeShared) : Bool := !sh.interlockOk

def dutyLimit (sh : AirtimeShared) (configured : ℚ) : ℚ :=
  max 0 (min (if sh.dutyPctOverride = 0 then configured else sh.dutyPctOverride / 100) hardMaxDuty)

def pacing (sh : AirtimeShared) (configured : ℕ) : ℕ :=
  if sh.pacingMsOverride = 0 then configured else max (millis sh.pacingMsOverride) configured

def setDutyOverride (sh : AirtimeShared) (percent : Option ℕ) : AirtimeShared :=
  { sh with dutyPctOverride := min (percent.getD 0) 50 }

def setPacingOverride (sh : AirtimeShared) (ms : Option ℕ) : AirtimeShared :=
  { sh with pacingMsOverride := ms.getD 0 }

/-- `publish_queue`; the gauge counts whole milliseconds. -/
def publishQueue (sh : AirtimeShared) (s : Scheduler Ax25Frame) : AirtimeShared :=
  { sh with queued := millis (s.queuedAirtime / millis 1)
            queuedFrames := (TransmitScheduler.Class.all.map fun c => (s.queues c).length).sum }

end AirtimeShared

/-- Where the task is in its loop, with what it holds in local variables. `held` marks the
wake time of a frame that the interlock holds back; `late` is a ghost, the time between the
two readings of the clock that the wake time was computed from. -/
inductive Phase where
  | top
  | drained
  | clocked (now : ℕ)
  | expired (now : ℕ)
  | polled (now : ℕ) (poll : Poll)
  | looked (now : ℕ) (poll : Poll) (interlock : Bool)
  | decided (wake late : ℕ) (poll : Poll) (held : Bool)
  | waiting (wake late : ℕ) (poll : Poll) (held : Bool)
  | receiving
  | timedOut
  | popped (now : ℕ) (item : Queued Ax25Frame)
  | cleared (now : ℕ) (item : Queued Ax25Frame)
  | reconnecting
  deriving DecidableEq

/-- `notified` belongs to the wait that has been created, `locked` is an `enqueue` that still
has to issue its notification. -/
structure Pump where
  cfg : TncConfig
  scheduler : Scheduler Ax25Frame
  governor : Governor
  shared : AirtimeShared
  clock : ℕ
  phase : Phase
  notified : Bool
  locked : Bool

def Pump.new (cfg : TncConfig) : Pump :=
  ⟨cfg, .new (schedulerFromTnc cfg), .new cfg.airtime, .new, 0, .top, false, false⟩

inductive Drop where
  | inhibited
  | stale
  | deferred
  | oversized
  deriving DecidableEq

/-- How a frame leaves the transmit path. -/
inductive Fate where
  | keyed (item : Queued Ax25Frame)
  | dropped (item : Queued Ax25Frame) (why : Drop)
  deriving DecidableEq

def Fate.item : Fate → Queued Ax25Frame
  | .keyed item => item
  | .dropped item _ => item

inductive Event where
  /-- The task's own next step; `written` is whether the link took the frame. -/
  | step (written : Bool)
  /-- The branches of the `select!`. -/
  | woken
  | timer
  | read
  | heard
  | linkDown
  /-- The other tasks. -/
  | enqueue (item : Queued Ax25Frame)
  | unlock
  | setInhibit (b : Bool)
  | setInterlock (ok : Bool)
  | setDutyOverride (percent : Option ℕ)
  | setPacingOverride (ms : Option ℕ)
  | notify
  | advance (d : ℕ)

namespace Pump

/-- `notify_waiters`: only a wait that exists hears it. -/
def notifyWaiters (p : Pump) : Pump :=
  match p.phase with
  | .waiting _ _ _ _ => { p with notified := true }
  | _ => p

def publish (p : Pump) : Pump := { p with shared := p.shared.publishQueue p.scheduler }

/-- A sweep of the queues is published only if it found something. -/
def sweep (p : Pump) (out : List (Queued Ax25Frame)) (s : Scheduler Ax25Frame)
    (count : AirtimeShared → ℕ → AirtimeShared) : Pump :=
  if out = [] then { p with scheduler := s }
  else { p with scheduler := s, shared := count p.shared out.length }.publish

/-- `RADIO OFF` discards everything but the sign-off. -/
def drainInhibited (p : Pump) : Pump × List Fate :=
  let p := { p with phase := .drained }
  if p.shared.inhibit then
    let (out, s) := p.scheduler.drainExcept .id
    (p.sweep out s fun sh n => { sh with droppedInhibited := sh.droppedInhibited + n },
      out.map (.dropped · .inhibited))
  else (p, [])

def applyOverrides (p : Pump) : Pump :=
  { p with
    governor := p.governor.setDuty (p.shared.dutyLimit p.cfg.airtime.maxDuty)
    scheduler := p.scheduler.setMinGap (p.shared.pacing p.cfg.txPacing)
    phase := .clocked p.clock }

def expireStale (p : Pump) (now : ℕ) : Pump × List Fate :=
  let (out, s) := p.scheduler.expire now
  ({ p with phase := .expired now }.sweep out s
      fun sh n => { sh with droppedStale := sh.droppedStale + n },
    out.map (.dropped · .stale))

/-- The time this turn sleeps until, counted from a second reading of the clock. -/
def chooseWake (p : Pump) (now : ℕ) (poll : Poll) (interlock : Bool) : Pump :=
  let wake := match poll with
    | .idle => p.clock + idleSleep
    | .wait d => p.clock + d
    | .ready => if interlock then p.clock + interlockRepoll else p.clock
  { p with phase := .decided wake (p.clock - now) poll (poll = .ready && interlock) }

/-- The timer fired: a frame is taken unless the interlock or the guards hold it back. -/
def takeFrame (p : Pump) : Pump :=
  if p.shared.interlockFailed then { p with phase := .top }
  else match p.scheduler.poll p.clock with
    | .ready =>
      match p.scheduler.pop p.clock with
      | (some item, s) => { p with scheduler := s, phase := .popped p.clock item }
      | (none, s) => { p with scheduler := s, phase := .top }
    | _ => { p with phase := .top }

def drop (p : Pump) (item : Queued Ax25Frame) (why : Drop) : Pump × List Fate :=
  let sh := match why with
    | .inhibited => { p.shared with droppedInhibited := p.shared.droppedInhibited + 1 }
    | .deferred => { p.shared with droppedStale := p.shared.droppedStale + 1 }
    | _ => p.shared
  ({ p with shared := sh, phase := .top }.publish, [.dropped item why])

/-- The decision about a frame in hand. -/
def decide (p : Pump) (now : ℕ) (item : Queued Ax25Frame) : Pump × List Fate :=
  if p.shared.inhibit ∧ item.cls ≠ .id then p.drop item .inhibited
  else if p.cfg.maxFrame < item.payload.octets then p.drop item .oversized
  else match p.governor.check item.payload.octets now with
    | (.send, g) => ({ p with governor := g, phase := .cleared now item }, [])
    | (.defer delay _, g) =>
      if item.cls ≠ .id ∧ item.cls ≠ .ack ∧ p.cfg.airtime.maxHold < now - item.queuedAt + delay then
        { p with governor := g }.drop item .deferred
      else
        ({ p with
            governor := g
            scheduler := p.scheduler.requeue item now delay
            shared := { p.shared with deferred := p.shared.deferred + 1 }
            phase := .top }, [])

/-- The interlock is read once more immediately before keying. -/
def key (p : Pump) (now : ℕ) (item : Queued Ax25Frame) (written : Bool) : Pump × List Fate :=
  if p.shared.interlockFailed then
    ({ p with scheduler := p.scheduler.requeue item now interlockRequeue, phase := .top }, [])
  else if !written then
    ({ p with scheduler := p.scheduler.requeue item p.clock 0, phase := .reconnecting }, [])
  else
    let (recorded, g) := p.governor.record item.payload.octets now
    ({ p with
        governor := g
        scheduler := p.scheduler.onKeyed now item.account recorded item.expectsReply
        phase := .top }.publish,
      [.keyed item])

def advancePhase (p : Pump) (written : Bool) : Pump × List Fate :=
  match p.phase with
  | .top => p.drainInhibited
  | .drained => (p.applyOverrides, [])
  | .clocked now => p.expireStale now
  | .expired now => ({ p with phase := .polled now (p.scheduler.poll now) }, [])
  | .polled now poll => ({ p with phase := .looked now poll p.shared.interlockFailed }, [])
  | .looked now poll interlock => (p.chooseWake now poll interlock, [])
  | .decided wake late poll held =>
    ({ p with phase := .waiting wake late poll held, notified := false }, [])
  | .waiting _ _ _ _ => (p, [])
  | .receiving => ({ p with phase := .top }, [])
  | .timedOut => (p.takeFrame, [])
  | .popped now item => p.decide now item
  | .cleared now item => p.key now item written
  | .reconnecting => ({ p with phase := .top }, [])

end Pump

/-- The steps of the task that take the scheduler's lock. -/
def Phase.locks : Phase → Bool
  | .top | .drained | .clocked _ | .expired _ | .timedOut | .popped _ _ | .cleared _ _ => true
  | _ => false

def Phase.isWaiting : Phase → Bool
  | .waiting _ _ _ _ => true
  | _ => false

def Phase.wake : Phase → ℕ
  | .waiting wake _ _ _ => wake
  | _ => 0

def Enabled (p : Pump) : Event → Prop
  | .step _ => p.phase.isWaiting = false ∧ (p.phase.locks = true → p.locked = false)
  | .woken => p.phase.isWaiting = true ∧ p.notified = true
  | .timer => p.phase.isWaiting = true ∧ p.phase.wake ≤ p.clock
  | .read => p.phase.isWaiting = true
  | .heard => p.phase = .receiving ∧ p.locked = false
  | .linkDown => p.phase.isWaiting = true ∨ p.phase = .receiving
  | .enqueue _ => p.locked = false
  | .unlock => p.locked = true
  | .setInhibit _ | .setInterlock _ | .setDutyOverride _ | .setPacingOverride _ | .notify => True
  | .advance _ => True

instance (p : Pump) (e : Event) : Decidable (Enabled p e) := by
  cases e <;> simp only [Enabled] <;> infer_instance

def Pump.next (p : Pump) : Event → Pump × List Fate
  | .step written => p.advancePhase written
  | .woken => ({ p with phase := .top }, [])
  | .timer => ({ p with phase := .timedOut }, [])
  | .read => ({ p with phase := .receiving }, [])
  | .heard => ({ p with scheduler := p.scheduler.onHeard p.clock }, [])
  | .linkDown => ({ p with phase := .reconnecting }, [])
  | .enqueue item =>
    match p.scheduler.push item with
    | (.ok (), s) => ({ p with scheduler := s, locked := true }.publish, [])
    | (.error _, s) => ({ p with scheduler := s }, [])
  | .unlock => ({ p with locked := false }.notifyWaiters, [])
  | .setInhibit b => ({ p with shared := { p.shared with inhibit := b } }, [])
  | .setInterlock ok => ({ p with shared := { p.shared with interlockOk := ok } }, [])
  | .setDutyOverride percent => ({ p with shared := p.shared.setDutyOverride percent }, [])
  | .setPacingOverride ms => ({ p with shared := p.shared.setPacingOverride ms }, [])
  | .notify => (p.notifyWaiters, [])
  | .advance d => ({ p with clock := p.clock + d }, [])

/-! ### Every frame is accounted for -/

def Phase.inHand : Phase → Multiset (Queued Ax25Frame)
  | .popped _ item => {item}
  | .cleared _ item => {item}
  | _ => 0

/-- The frames that are queued or in the task's hands. -/
def Pump.held (p : Pump) : Multiset (Queued Ax25Frame) := p.scheduler.waiting + p.phase.inHand

def items (fates : List Fate) : Multiset (Queued Ax25Frame) := fates.map Fate.item

@[simp] theorem items_nil : items [] = 0 := rfl
@[simp] theorem items_singleton (f : Fate) : items [f] = {f.item} := rfl

@[simp] theorem items_dropped (out : List (Queued Ax25Frame)) (why : Drop) :
    items (out.map (.dropped · why)) = out := by
  simp [items, Function.comp_def, Fate.item]

namespace Pump

@[simp] theorem publish_scheduler (p : Pump) : p.publish.scheduler = p.scheduler := rfl
@[simp] theorem publish_phase (p : Pump) : p.publish.phase = p.phase := rfl

@[simp] theorem sweep_scheduler (p : Pump) (out : List (Queued Ax25Frame))
    (s : Scheduler Ax25Frame) (count : AirtimeShared → ℕ → AirtimeShared) :
    (p.sweep out s count).scheduler = s := by
  unfold sweep
  split_ifs <;> rfl

@[simp] theorem sweep_phase (p : Pump) (out : List (Queued Ax25Frame))
    (s : Scheduler Ax25Frame) (count : AirtimeShared → ℕ → AirtimeShared) :
    (p.sweep out s count).phase = p.phase := by
  unfold sweep
  split_ifs <;> rfl

@[simp] theorem sweep_clock (p : Pump) (out : List (Queued Ax25Frame))
    (s : Scheduler Ax25Frame) (count : AirtimeShared → ℕ → AirtimeShared) :
    (p.sweep out s count).clock = p.clock := by
  unfold sweep
  split_ifs <;> rfl

theorem notifyWaiters_held (p : Pump) : p.notifyWaiters.held = p.held := by
  rcases p with ⟨_, _, _, _, _, _ | _, _, _⟩ <;> rfl

theorem drop_held (p : Pump) (item : Queued Ax25Frame) (why : Drop) :
    (p.drop item why).1.held = p.scheduler.waiting := add_zero _

theorem drainInhibited_held {p : Pump} (h : p.phase = .top) :
    p.drainInhibited.1.held + items p.drainInhibited.2 = p.held := by
  unfold drainInhibited
  simp only [held, h, Phase.inHand, add_zero]
  split_ifs
  · simp only [sweep_scheduler, sweep_phase, items_dropped, add_zero]
    rw [add_comm]
    exact p.scheduler.drainExcept_waiting .id
  · simp

theorem expireStale_held {p : Pump} {now : ℕ} (h : p.phase = .clocked now) :
    (p.expireStale now).1.held + items (p.expireStale now).2 = p.held := by
  simp only [expireStale, held, h, Phase.inHand, sweep_scheduler, sweep_phase, items_dropped,
    add_zero]
  rw [add_comm]
  exact p.scheduler.expire_waiting now

theorem takeFrame_held {p : Pump} (h : p.phase = .timedOut) : p.takeFrame.held = p.held := by
  unfold takeFrame
  simp only [held, h, Phase.inHand, add_zero]
  split_ifs
  · exact add_zero _
  · split
    · rcases hp : p.scheduler.pop p.clock with ⟨- | item, s⟩
      · rw [Scheduler.pop_none hp]
        exact add_zero _
      · rw [← Scheduler.pop_waiting hp, ← Multiset.singleton_add, add_comm]
    · exact add_zero _

theorem decide_held {p : Pump} {now : ℕ} {item : Queued Ax25Frame}
    (h : p.phase = .popped now item) :
    (p.decide now item).1.held + items (p.decide now item).2 = p.held := by
  have hp : p.held = p.scheduler.waiting + {item} := by simp [held, h, Phase.inHand]
  rw [hp]
  unfold decide
  split_ifs
  · rw [drop_held]
    rfl
  · rw [drop_held]
    rfl
  · split
    · exact add_zero _
    · split_ifs
      · rw [drop_held]
        rfl
      · simp only [held, Phase.inHand, Scheduler.requeue_waiting, items_nil, add_zero]
        rw [← Multiset.singleton_add, add_comm]

theorem key_held {p : Pump} {now : ℕ} {item : Queued Ax25Frame} (written : Bool)
    (h : p.phase = .cleared now item) :
    (p.key now item written).1.held + items (p.key now item written).2 = p.held := by
  have hp : p.held = p.scheduler.waiting + {item} := by simp [held, h, Phase.inHand]
  rw [hp]
  unfold key
  split_ifs
  · simp only [held, Phase.inHand, Scheduler.requeue_waiting, items_nil, add_zero]
    rw [← Multiset.singleton_add, add_comm]
  · simp only [held, Phase.inHand, Scheduler.requeue_waiting, items_nil, add_zero]
    rw [← Multiset.singleton_add, add_comm]
  · exact congrArg (· + {item}) (add_zero p.scheduler.waiting)

/-- A step of the task loses no frame and makes none. -/
theorem advancePhase_held (p : Pump) (written : Bool) :
    (p.advancePhase written).1.held + items (p.advancePhase written).2 = p.held := by
  unfold advancePhase
  split <;> rename_i h
  · exact drainInhibited_held h
  · simp [applyOverrides, held, h, Phase.inHand]
  · exact expireStale_held h
  all_goals try (simp [chooseWake, held, h, Phase.inHand]; done)
  · rw [takeFrame_held h, items_nil, add_zero]
  · exact decide_held h
  · exact key_held written h

end Pump

/-- What the path holds grows by an accepted frame only, and shrinks by those that are keyed
or dropped. -/
theorem next_held {p : Pump} {e : Event} (he : Enabled p e) :
    (p.next e).1.held + items (p.next e).2 = p.held ∨
    ∃ item, e = .enqueue item ∧ (p.next e).1.held = item ::ₘ p.held ∧ (p.next e).2 = [] := by
  have resting : p.phase.isWaiting = true → p.scheduler.waiting + 0 = p.held := by
    intro hw
    cases hp : p.phase <;> simp [hp, Phase.isWaiting] at hw
    simp [Pump.held, hp, Phase.inHand]
  have quiet : ∀ q : Pump, q.held = p.held → q.held + items [] = p.held :=
    fun q h => (add_zero _).trans h
  cases e with
  | step written => exact .inl (p.advancePhase_held written)
  | woken => exact .inl (quiet _ (resting he.1))
  | timer => exact .inl (quiet _ (resting he.1))
  | read => exact .inl (quiet _ (resting he))
  | heard => exact .inl (quiet _ rfl)
  | linkDown =>
    rcases he with hw | hr
    · exact .inl (quiet _ (resting hw))
    · exact .inl (quiet _ (by simp [Pump.next, Pump.held, hr, Phase.inHand]))
  | enqueue item =>
    have hw := p.scheduler.push_waiting item
    simp only [Pump.next]
    unfold Scheduler.push at hw ⊢
    split_ifs at hw ⊢ with hfull
    · exact .inl (quiet _ rfl)
    · exact .inr ⟨item, rfl, by simp [Pump.held, hw], rfl⟩
  | unlock => exact .inl (quiet _ (Pump.notifyWaiters_held _))
  | notify => exact .inl (quiet _ p.notifyWaiters_held)
  | setInhibit b => exact .inl (quiet _ rfl)
  | setInterlock ok => exact .inl (quiet _ rfl)
  | setDutyOverride percent => exact .inl (quiet _ rfl)
  | setPacingOverride ms => exact .inl (quiet _ rfl)
  | advance d => exact .inl (quiet _ rfl)

/-! ### How a frame leaves -/

/-- Why a frame in hand is given up. -/
def Pump.Condemned (p : Pump) (now : ℕ) (item : Queued Ax25Frame) : Drop → Prop
  | .inhibited => p.shared.inhibit = true ∧ item.cls ≠ .id
  | .oversized => p.cfg.maxFrame < item.payload.octets
  | .deferred => item.cls ≠ .id ∧ item.cls ≠ .ack ∧ ∃ delay reason,
      (p.governor.check item.payload.octets now).1 = .defer delay reason ∧
        p.cfg.airtime.maxHold < now - item.queuedAt + delay
  | .stale => False

instance (p : Pump) (now : ℕ) (item : Queued Ax25Frame) (why : Drop) :
    Decidable (p.Condemned now item why) :=
  match why with
  | .inhibited => inferInstanceAs (Decidable (_ ∧ _))
  | .oversized => inferInstanceAs (Decidable (_ < _))
  | .deferred =>
    match hc : (p.governor.check item.payload.octets now).1 with
    | .send => isFalse (by simp [Pump.Condemned, hc])
    | .defer delay _ =>
      decidable_of_iff (item.cls ≠ .id ∧ item.cls ≠ .ack ∧
        p.cfg.airtime.maxHold < now - item.queuedAt + delay) (by simp [Pump.Condemned, hc])
  | .stale => inferInstanceAs (Decidable False)

instance (p : Pump) (now : ℕ) (item : Queued Ax25Frame) :
    Decidable (∃ why, p.Condemned now item why) :=
  decidable_of_iff (∃ why ∈ [Drop.inhibited, .oversized, .deferred], p.Condemned now item why) (by
    constructor
    · rintro ⟨why, -, h⟩
      exact ⟨why, h⟩
    · rintro ⟨why, h⟩
      exact ⟨why, by cases why <;> simp_all [Pump.Condemned], h⟩)

theorem Pump.decide_cases (p : Pump) (now : ℕ) (item : Queued Ax25Frame) :
    (p.decide now item).2 = [] ∨
    ∃ why, p.Condemned now item why ∧ (p.decide now item).2 = [.dropped item why] := by
  unfold decide
  split_ifs with hi ho
  · exact .inr ⟨.inhibited, hi, rfl⟩
  · exact .inr ⟨.oversized, ho, rfl⟩
  · rcases hc : p.governor.check item.payload.octets now with ⟨- | ⟨delay, reason⟩, g⟩
    · exact .inl rfl
    · simp only
      split_ifs with hd
      · exact .inr ⟨.deferred, ⟨hd.1, hd.2.1, delay, reason, by rw [hc], hd.2.2⟩, rfl⟩
      · exact .inl rfl

/-- A frame leaves when it is keyed, given up in hand, swept off or grown stale. -/
theorem next_fates (p : Pump) (e : Event) :
    (p.next e).2 = [] ∨
    (∃ now item, p.phase = .cleared now item ∧ e = .step true ∧
      p.shared.interlockFailed = false ∧ (p.next e).2 = [.keyed item]) ∨
    (∃ now item why written, p.phase = .popped now item ∧ e = .step written ∧
      p.Condemned now item why ∧ (p.next e).2 = [.dropped item why]) ∨
    (∃ written, p.phase = .top ∧ e = .step written ∧ p.shared.inhibit = true ∧
      (p.next e).2 = (p.scheduler.drainExcept .id).1.map (.dropped · .inhibited)) ∨
    ∃ now written, p.phase = .clocked now ∧ e = .step written ∧
      (p.next e).2 = (p.scheduler.expire now).1.map (.dropped · .stale) := by
  cases e with
  | step written =>
    simp only [Pump.next, Pump.advancePhase]
    split <;> rename_i h
    · by_cases hi : p.shared.inhibit = true
      · refine .inr (.inr (.inr (.inl ⟨written, h, rfl, hi, ?_⟩)))
        simp [Pump.drainInhibited, hi]
      · exact .inl (by simp [Pump.drainInhibited, hi])
    · exact .inl rfl
    · exact .inr (.inr (.inr (.inr ⟨_, written, h, rfl, rfl⟩)))
    · exact .inl rfl
    · exact .inl rfl
    · exact .inl rfl
    · exact .inl rfl
    · exact .inl rfl
    · exact .inl rfl
    · exact .inl rfl
    · rename_i now item
      rcases p.decide_cases now item with hd | ⟨why, hwhy, hd⟩
      · exact .inl hd
      · exact .inr (.inr (.inl ⟨now, item, why, written, h, rfl, hwhy, hd⟩))
    · rename_i now item
      unfold Pump.key
      split_ifs with hi hw
      · exact .inl rfl
      · exact .inl rfl
      · refine .inr (.inl ⟨now, item, h, ?_, by simpa using hi, rfl⟩)
        cases written <;> simp_all
    · exact .inl rfl
  | enqueue item =>
    refine .inl ?_
    simp only [Pump.next]
    split <;> rfl
  | _ => exact .inl rfl

theorem Pump.notifyWaiters_scheduler (p : Pump) : p.notifyWaiters.scheduler = p.scheduler := by
  unfold notifyWaiters
  split <;> rfl

/-- Frames stay in the queue of their class. -/
theorem next_classified {p : Pump} (h : p.scheduler.Classified) (e : Event) :
    (p.next e).1.scheduler.Classified := by
  cases e with
  | step written =>
    simp only [Pump.next, Pump.advancePhase]
    split
    · unfold Pump.drainInhibited
      simp only
      split_ifs
      · simp only [Pump.sweep_scheduler]
        exact h.drainExcept .id
      · exact h
    · exact h
    · simp only [Pump.expireStale, Pump.sweep_scheduler]
      exact h.expire _
    · exact h
    · exact h
    · exact h
    · exact h
    · exact h
    · exact h
    · unfold Pump.takeFrame
      split_ifs
      · exact h
      · split
        · have hpop := h.pop p.clock
          split <;> rename_i hp <;> rwa [hp] at hpop
        · exact h
    · unfold Pump.decide
      split_ifs
      · exact h
      · exact h
      · split
        · exact h
        · split_ifs
          · exact h
          · exact h.requeue _ _ _
    · unfold Pump.key
      split_ifs
      · exact h.requeue _ _ _
      · exact h.requeue _ _ _
      · exact h
    · exact h
  | heard => exact h
  | enqueue item =>
    have hpush := h.push item
    simp only [Pump.next]
    split <;> rename_i hp <;> rwa [hp] at hpush
  | unlock => exact (Pump.notifyWaiters_scheduler _).symm ▸ h
  | notify => exact (Pump.notifyWaiters_scheduler _).symm ▸ h
  | _ => exact h

end TransmitPump
