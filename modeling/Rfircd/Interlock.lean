import Rfircd.HostKey
import Rfircd.IrcMessage
import Rfircd.TransitionSystem
import Rfircd.TransmitPump

/-! The external transmit interlock: the task that runs the operator's command and publishes whether
it passed, beside the TNC task that reads what is published. The log is a ghost, newest first. -/
namespace Interlock

open Basics HostKey IrcMessage MessageText TransitionSystem TransmitPump TransmitScheduler Ax25

/-! ### One check -/

structure InterlockConfig where
  command : Text
  intervalSecs : ℕ
  timeoutSecs : ℕ

/-- What became of the command. -/
inductive Ending where
  | exited (success : Bool) (code : Option ℤ) (stdout stderr : List UInt8)
  | error (message : Text)
  | late
  deriving DecidableEq

inductive Check where
  | pass
  | fail (reason : Text)
  | unavailable (reason : Text)
  deriving DecidableEq

def Check.isPass : Check → Bool
  | pass => true
  | _ => false

def Check.reason : Check → Text
  | pass => "ok"
  | fail r | unavailable r => r

/-- `str::lines`; `line` is what has been read of the current one, backwards. -/
def textLinesFrom (line : Text) : Text → List Text
  | [] => if line = [] then [] else [line.reverse]
  | c :: rest =>
    if c = '\n' then
      (if line.head? = some '\r' then line.tail else line).reverse :: textLinesFrom [] rest
    else textLinesFrom (c :: line) rest

def textLines (t : Text) : List Text := textLinesFrom [] t

def intText (n : ℤ) : Text := (toString n).toList

/-- The last line that the command printed, on its error output if there is any there. -/
def detail (stdout stderr : List UInt8) : Text :=
  let text := fromUtf8Lossy stderr
  let text := if trim text = [] then fromUtf8Lossy stdout else text
  let line := ((textLines text).reverse.find? fun l => trim l ≠ []).getD "no output"
  (line.filter fun c => !isControl c).take 120

def timeout (config : InterlockConfig) : ℕ := max config.timeoutSecs 1

def runOnce (config : InterlockConfig) : Ending → Check
  | .error message => .unavailable ("cannot run " ++ config.command ++ ": " ++ message)
  | .late => .unavailable
      (config.command ++ " did not answer within " ++ natText (timeout config) ++ "s")
  | .exited true _ _ _ => .pass
  | .exited false code stdout stderr =>
    .fail (config.command ++ " exited " ++ intText (code.getD (-1)) ++ ": " ++ detail stdout stderr)

/-! ### The task -/

/-- Where the task is. It is spawned once the TNC task runs, before there is a server. -/
inductive Stage where
  | unspawned
  | inhibited
  | checking
  | checked (ok : Bool)
  | published (ok : Bool)
  | sleeping (deadline : ℕ)
  deriving DecidableEq

inductive Entry where
  | ran (ending : Ending)
  | published (ok : Bool)
  | notified
  | keyed (item : Queued Ax25Frame)
  deriving DecidableEq

structure Watch where
  config : InterlockConfig
  pump : Pump
  stage : Stage
  lastOk : Option Bool
  log : List Entry

namespace Watch

def interval (w : Watch) : ℕ := secs (max w.config.intervalSecs 1)

/-- `interlock_ok.store`. -/
def store (w : Watch) (ok : Bool) : Watch :=
  { w with
    pump := { w.pump with shared := { w.pump.shared with interlockOk := ok } }
    log := .published ok :: w.log }

/-- `wake.notify_waiters`. -/
def notify (w : Watch) : Watch := { w with pump := w.pump.notifyWaiters, log := .notified :: w.log }

def keyedItem : Fate → Option (Queued Ax25Frame)
  | .keyed item => some item
  | .dropped _ _ => none

/-- The task's own next step; `ending` is what its command comes to, if that is what it waits for. -/
def task (w : Watch) (ending : Ending) : Watch :=
  match w.stage with
  | .unspawned => { w.store false with stage := .inhibited }
  | .inhibited => { w.notify with stage := .checking }
  | .checking =>
    { w with stage := .checked (runOnce w.config ending).isPass, log := .ran ending :: w.log }
  | .checked ok => { w.store ok with stage := .published ok }
  | .published ok =>
    let w := if w.lastOk = some ok then w else { w.notify with lastOk := some ok }
    { w with stage := .sleeping (w.pump.clock + w.interval) }
  | .sleeping _ => { w with stage := .checking }

end Watch

inductive Event where
  | task (ending : Ending)
  | pump (e : TransmitPump.Event)

/-- The other tasks write no frame before there is a server, and the flag belongs to this one. -/
def Allowed (w : Watch) : TransmitPump.Event → Prop
  | .setInterlock _ => False
  | .enqueue _ => w.stage ≠ .unspawned
  | _ => True

def Enabled (w : Watch) : Event → Prop
  | .task _ => ∀ u, w.stage = .sleeping u → u ≤ w.pump.clock
  | .pump e => TransmitPump.Enabled w.pump e ∧ Allowed w e

def Watch.next (w : Watch) : Event → Watch
  | .task ending => w.task ending
  | .pump e =>
    { w with
      pump := (w.pump.next e).1
      log := (((w.pump.next e).2.filterMap Watch.keyedItem).map Entry.keyed) ++ w.log }

def start (config : InterlockConfig) (tnc : TncConfig) : Watch :=
  ⟨config, .new tnc, .unspawned, none, []⟩

def system (config : InterlockConfig) (tnc : TncConfig) : System Watch Event :=
  .ofNext (· = start config tnc) Enabled Watch.next

/-! ### What a frame on the air says about the checks -/

variable {w : Watch} {log : List Entry} {config : InterlockConfig} {tnc : TncConfig}

/-- The command has succeeded, and its result is not published yet. -/
def Passed (log : List Entry) : Prop :=
  ∃ mid code stdout stderr earlier, log = mid ++ .ran (.exited true code stdout stderr) :: earlier ∧
    ∀ ok, .published ok ∉ mid

/-- The last result that was published is that of a command that succeeded. -/
def Licensed (log : List Entry) : Prop :=
  ∃ mid code stdout stderr earlier, log = mid ++ .ran (.exited true code stdout stderr) :: earlier ∧
    .published true ∈ mid ∧ .published false ∉ mid

theorem Licensed.cons (h : Licensed log) {e : Entry} (he : e ≠ .published false) :
    Licensed (e :: log) := by
  obtain ⟨mid, code, stdout, stderr, earlier, rfl, htrue, hfalse⟩ := h
  refine ⟨e :: mid, code, stdout, stderr, earlier, rfl, List.mem_cons_of_mem e htrue, ?_⟩
  rw [List.mem_cons, not_or]
  exact ⟨Ne.symm he, hfalse⟩

theorem Passed.published (h : Passed log) : Licensed (.published true :: log) := by
  obtain ⟨mid, code, stdout, stderr, earlier, rfl, hnone⟩ := h
  refine ⟨.published true :: mid, code, stdout, stderr, earlier, rfl, List.mem_cons_self, ?_⟩
  rw [List.mem_cons, not_or]
  exact ⟨fun h => (by cases h), hnone false⟩

theorem Passed.cons (h : Passed log) {e : Entry} (he : ∀ ok, e ≠ .published ok) :
    Passed (e :: log) := by
  obtain ⟨mid, code, stdout, stderr, earlier, rfl, hnone⟩ := h
  refine ⟨e :: mid, code, stdout, stderr, earlier, rfl, fun ok => ?_⟩
  rw [List.mem_cons, not_or]
  exact ⟨Ne.symm (he ok), hnone ok⟩

/-- Every frame on the air was licensed when it went out. -/
def FailedClosed (log : List Entry) : Prop :=
  ∀ later item before, log = later ++ .keyed item :: before → Licensed before

theorem FailedClosed.cons (h : FailedClosed log) {e : Entry}
    (he : ∀ item, e = .keyed item → Licensed log) : FailedClosed (e :: log) := by
  intro later item before hlog
  cases later with
  | nil =>
    obtain ⟨rfl, rfl⟩ := List.cons.inj hlog
    exact he item rfl
  | cons x later =>
    obtain ⟨-, hrest⟩ := List.cons.inj hlog
    exact h later item before hrest

structure Invariant (w : Watch) : Prop where
  idle : w.stage = .unspawned → w.pump.held = 0
  licensed : w.stage ≠ .unspawned → w.pump.shared.interlockOk = true → Licensed w.log
  passed : w.stage = .checked true → Passed w.log
  closed : FailedClosed w.log

/-! ### The TNC task leaves the flag alone -/

section

variable (p : Pump)

theorem sweep_interlockOk (out : List (Queued Ax25Frame)) (s : Scheduler Ax25Frame)
    {count : AirtimeShared → ℕ → AirtimeShared}
    (h : ∀ sh n, (count sh n).interlockOk = sh.interlockOk) :
    (p.sweep out s count).shared.interlockOk = p.shared.interlockOk := by
  unfold Pump.sweep
  split_ifs
  · rfl
  · exact h p.shared out.length

theorem drop_interlockOk (item : Queued Ax25Frame) (why : Drop) :
    (p.drop item why).1.shared.interlockOk = p.shared.interlockOk := by
  cases why <;> rfl

theorem notifyWaiters_interlockOk : p.notifyWaiters.shared.interlockOk = p.shared.interlockOk := by
  unfold Pump.notifyWaiters
  split <;> rfl

theorem advancePhase_interlockOk (written : Bool) :
    (p.advancePhase written).1.shared.interlockOk = p.shared.interlockOk := by
  unfold Pump.advancePhase
  split
  · unfold Pump.drainInhibited
    dsimp only
    split_ifs
    · exact sweep_interlockOk _ _ _ fun _ _ => rfl
    · rfl
  · rfl
  · exact sweep_interlockOk _ _ _ fun _ _ => rfl
  · rfl
  · rfl
  · rfl
  · rfl
  · rfl
  · rfl
  · unfold Pump.takeFrame
    split_ifs
    · rfl
    · split
      · split <;> rfl
      · rfl
  · unfold Pump.decide
    split_ifs
    · exact drop_interlockOk ..
    · exact drop_interlockOk ..
    · split
      · rfl
      · split_ifs
        · exact drop_interlockOk ..
        · rfl
  · unfold Pump.key
    split_ifs <;> rfl
  · rfl

theorem next_interlockOk {e : TransmitPump.Event} (h : ∀ ok, e ≠ .setInterlock ok) :
    (p.next e).1.shared.interlockOk = p.shared.interlockOk := by
  cases e with
  | step written => exact advancePhase_interlockOk p written
  | setInterlock ok => exact absurd rfl (h ok)
  | enqueue item =>
    unfold Pump.next
    dsimp only
    split <;> rfl
  | unlock => exact notifyWaiters_interlockOk _
  | notify => exact notifyWaiters_interlockOk p
  | _ => rfl

/-- At most one frame is keyed in a step, and only under a flag that says pass. -/
theorem keyed_cases (e : TransmitPump.Event) : (p.next e).2.filterMap Watch.keyedItem = [] ∨
    ∃ item, (p.next e).2.filterMap Watch.keyedItem = [item] ∧ p.shared.interlockOk = true := by
  have hdropped : ∀ (out : List (Queued Ax25Frame)) (why : Drop),
      (out.map (Fate.dropped · why)).filterMap Watch.keyedItem = [] := by
    intro out why
    rw [List.filterMap_eq_nil_iff]
    intro fate hfate
    obtain ⟨item, -, rfl⟩ := List.mem_map.mp hfate
    rfl
  rcases next_fates p e with h | ⟨now, item, -, -, hok, h⟩ | ⟨now, item, why, -, -, -, -, h⟩ |
    ⟨-, -, -, -, h⟩ | ⟨now, -, -, -, h⟩
  · exact .inl (by rw [h]; rfl)
  · exact .inr ⟨item, by rw [h]; rfl, by simpa [AirtimeShared.interlockFailed] using hok⟩
  · exact .inl (by rw [h]; rfl)
  · exact .inl (by rw [h, hdropped])
  · exact .inl (by rw [h, hdropped])

end

/-! ### Every step -/

theorem invariant_start (config : InterlockConfig) (tnc : TncConfig) :
    Invariant (start config tnc) where
  idle _ := by
    have hwaiting : (Scheduler.new (schedulerFromTnc tnc) : Scheduler Ax25Frame).waiting = 0 := rfl
    simp [start, Pump.held, Pump.new, Phase.inHand, hwaiting]
  licensed h := absurd rfl h
  passed h := by cases h
  closed later item before h := by
    cases later <;> cases h

theorem runOnce_pass {ending : Ending} (h : (runOnce config ending).isPass = true) :
    ∃ code stdout stderr, ending = .exited true code stdout stderr := by
  cases ending with
  | exited success code stdout stderr =>
    cases success with
    | true => exact ⟨code, stdout, stderr, rfl⟩
    | false => cases h
  | error message => cases h
  | late => cases h

theorem task_invariant (h : Invariant w) (ending : Ending) : Invariant (w.task ending) := by
  have hnot : ∀ {e : Entry}, (∀ item, e ≠ .keyed item) → FailedClosed (e :: w.log) :=
    fun he => h.closed.cons fun item heq => absurd heq (he item)
  unfold Watch.task
  split
  · rename_i hstage
    exact ⟨fun hs => (by cases hs), fun _ hok => (by cases hok), fun hs => (by cases hs),
      hnot fun item => by simp⟩
  · rename_i hstage
    refine ⟨fun hs => (by cases hs), fun _ hok => ?_, fun hs => (by cases hs),
      hnot fun item => by simp⟩
    have hold : w.pump.shared.interlockOk = true := (notifyWaiters_interlockOk w.pump).symm.trans hok
    exact (h.licensed (by rw [hstage]; simp) hold).cons (by simp)
  · rename_i hstage
    refine ⟨fun hs => (by cases hs), fun _ hok => ?_, fun hs => ?_, hnot fun item => by simp⟩
    · exact (h.licensed (by rw [hstage]; simp) hok).cons (by simp)
    · obtain ⟨code, stdout, stderr, rfl⟩ := runOnce_pass (Stage.checked.inj hs)
      exact ⟨[], code, stdout, stderr, w.log, rfl, fun ok => List.not_mem_nil⟩
  · rename_i ok hstage
    refine ⟨fun hs => (by cases hs), fun _ hok => ?_, fun hs => (by cases hs),
      hnot fun item => by simp⟩
    obtain rfl : ok = true := hok
    exact (h.passed hstage).published
  · rename_i ok hstage
    have hlicensed := h.licensed (by rw [hstage]; simp)
    dsimp only
    split_ifs
    · exact ⟨fun hs => (by cases hs), fun _ hok => hlicensed hok, fun hs => (by cases hs), h.closed⟩
    · refine ⟨fun hs => (by cases hs), fun _ hok => ?_, fun hs => (by cases hs),
        hnot fun item => by simp⟩
      have hold : w.pump.shared.interlockOk = true :=
        (notifyWaiters_interlockOk w.pump).symm.trans hok
      exact (hlicensed hold).cons (by simp)
  · rename_i deadline hstage
    exact ⟨fun hs => (by cases hs), fun _ hok => h.licensed (by rw [hstage]; simp) hok,
      fun hs => (by cases hs), h.closed⟩

theorem pump_invariant (h : Invariant w) {e : TransmitPump.Event}
    (he : TransmitPump.Enabled w.pump e) (ha : Allowed w e) : Invariant (w.next (.pump e)) := by
  have hflag : (w.pump.next e).1.shared.interlockOk = w.pump.shared.interlockOk :=
    next_interlockOk w.pump fun ok heq => by rw [heq] at ha; exact ha
  -- before the task is spawned the path is empty, and stays so
  have hidle : w.stage = .unspawned → (w.pump.next e).1.held = 0 ∧ (w.pump.next e).2 = [] := by
    intro hstage
    have hempty := h.idle hstage
    rcases next_held he with hheld | ⟨item, rfl, -, -⟩
    · rw [hempty] at hheld
      refine ⟨Multiset.le_zero.mp (hheld ▸ Multiset.le_add_right _ _), ?_⟩
      have hitems : items (w.pump.next e).2 = 0 :=
        Multiset.le_zero.mp (hheld ▸ Multiset.le_add_left _ _)
      unfold items at hitems
      simpa using hitems
    · exact absurd hstage ha
  unfold Watch.next
  dsimp only
  rcases keyed_cases w.pump e with hkeyed | ⟨item, hkeyed, hok⟩
  · rw [hkeyed]
    exact ⟨fun hs => (hidle hs).1, fun hs hok => h.licensed hs (hflag ▸ hok), h.passed, h.closed⟩
  · have hspawned : w.stage ≠ .unspawned := by
      intro hstage
      rw [(hidle hstage).2] at hkeyed
      cases hkeyed
    have hlicensed := h.licensed hspawned hok
    rw [hkeyed]
    refine ⟨fun hs => absurd hs hspawned, fun _ _ => hlicensed.cons (by simp), fun hs => ?_, ?_⟩
    · exact (h.passed hs).cons fun ok => by simp
    · exact h.closed.cons fun _ _ => hlicensed

theorem invariant_reachable (config : InterlockConfig) (tnc : TncConfig) :
    Inductive (system config tnc) (fun _ _ => True) Invariant := by
  refine Inductive.ofNext ?_ ?_
  · rintro w rfl
    exact invariant_start config tnc
  · intro w e h _ he
    cases e with
    | task ending => exact task_invariant h ending
    | pump e => exact pump_invariant h he.1 he.2

def checkSwr : InterlockConfig := ⟨"check-swr", 30, 5⟩

def beacon : Queued Ax25Frame :=
  ⟨⟨.new ⟨"ID", 0⟩, .new ⟨"SK0MT", 1⟩, [], 3, some 0xF0, [1, 2, 3]⟩, .id, "gateway", secs 1, 0, false⟩

/-- The first check fails, the second passes, and then the frame that waited goes out. -/
def recovery : List Event :=
  [.task .late, .task .late, .pump (.enqueue beacon), .pump .unlock, .task .late, .task .late,
    .task .late, .pump (.advance (secs 30)), .task .late,
    .task (.exited true (some 0) [] []), .task .late, .task .late] ++
  List.replicate 7 (.pump (.step true)) ++ [.pump .timer] ++ List.replicate 3 (.pump (.step true))

instance (w : Watch) (e : TransmitPump.Event) : Decidable (Allowed w e) := by
  induction e using TransmitPump.Event.casesOn <;> dsimp only [Allowed] <;> infer_instance

instance (w : Watch) (e : Event) : Decidable (Enabled w e) := by
  induction e using Event.casesOn with
  | pump e => dsimp only [Enabled]; infer_instance
  | task ending =>
    dsimp only [Enabled]
    induction w.stage using Stage.casesOn with
    | sleeping deadline =>
      exact decidable_of_iff (deadline ≤ w.pump.clock)
        ⟨fun h u hu => Stage.sleeping.inj hu ▸ h, fun h => h deadline rfl⟩
    | _ => exact .isTrue fun u hu => by cases hu

def recovered : Watch := recovery.foldl Watch.next (start checkSwr .default)

end Interlock
