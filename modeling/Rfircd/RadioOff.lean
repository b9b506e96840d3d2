import Rfircd.TransmitWakeup

/-! Switching the transmitter off.
The command raises a flag, which the pump looks at in two places of its loop. What was queued is
discarded when the pump comes to the top of its loop with the flag still up. -/
namespace RadioOff

open Basics Ax25 TransmitScheduler TransmitPump TransitionSystem

/-! ### Frames that are no identification -/

def data (m : Multiset (Queued Ax25Frame)) : Multiset (Queued Ax25Frame) :=
  m.filter fun x => x.cls ≠ .id

@[simp] theorem data_zero : data 0 = 0 := rfl

@[simp] theorem data_add (m n : Multiset (Queued Ax25Frame)) : data (m + n) = data m + data n :=
  Multiset.filter_add ..

theorem data_mono {m n : Multiset (Queued Ax25Frame)} (h : m ≤ n) : data m ≤ data n :=
  Multiset.filter_le_filter _ h

theorem data_singleton_id {x : Queued Ax25Frame} (h : x.cls = .id) : data {x} = 0 := by
  rw [data, Multiset.filter_singleton, if_neg (by simpa using h)]
  rfl

/-- The frames that were keyed. -/
def keyedItems (fates : List Fate) : Multiset (Queued Ax25Frame) :=
  fates.filterMap fun
    | .keyed item => some item
    | .dropped _ _ => none

theorem keyedItems_le (fates : List Fate) : keyedItems fates ≤ items fates := by
  induction fates with
  | nil => exact le_refl _
  | cons f fates ih =>
    have hitems : items (f :: fates) = f.item ::ₘ items fates := rfl
    rw [hitems]
    cases f with
    | keyed item => exact (Multiset.cons_le_cons_iff item).mpr ih
    | dropped item why => exact ih.trans (Multiset.le_cons_self _ _)

/-! ### Watching from a command on -/

/-- What an `OFF` that was carried out is watched with: the frame that the pump had popped, whether
it is still in hand, whether the path has been without a backlog since, and what was accepted and
keyed since. -/
structure Watch where
  pump : Pump
  popped : Multiset (Queued Ax25Frame)
  spared : Bool
  purged : Bool
  accepted : Multiset (Queued Ax25Frame)
  keyed : Multiset (Queued Ax25Frame)

/-- What waits, or was taken from the queues after the command. -/
def backlog (p : Pump) (spared : Bool) : Multiset (Queued Ax25Frame) :=
  data p.scheduler.waiting + if spared then 0 else data p.phase.inHand

/-- The command is carried out. -/
def switchOff (p : Pump) : Watch :=
  let q := (p.next (.setInhibit true)).1
  let spared := decide (q.phase.inHand ≠ 0)
  ⟨q, data q.phase.inHand, spared, decide (backlog q spared = 0), 0, 0⟩

def acceptedBy (p : Pump) : Event → Multiset (Queued Ax25Frame)
  | .enqueue item =>
    match p.scheduler.push item with
    | (.ok (), _) => {item}
    | (.error _, _) => 0
  | _ => 0

def Watch.next (w : Watch) (e : Event) : Watch :=
  let (p, fates) := w.pump.next e
  let spared := w.spared && decide (p.phase.inHand ≠ 0)
  { pump := p
    popped := w.popped
    spared := spared
    purged := w.purged || decide (backlog p spared = 0)
    accepted := w.accepted + data (acceptedBy w.pump e)
    keyed := w.keyed + data (keyedItems fates) }

/-- The pump from any `OFF` on. -/
def system (cfg : TncConfig) : System Watch Event :=
  .ofNext (fun w => ∃ p, Reachable (TransmitWakeup.system cfg) (fun _ _ => True) p ∧ w = switchOff p)
    (fun w => Enabled w.pump) Watch.next

/-- An `ON` comes when the backlog is gone. -/
def OnAfterPurge (w : Watch) (e : Event) : Prop :=
  match e with
  | .setInhibit false => w.purged = true
  | _ => True

instance (w : Watch) (e : Event) : Decidable (OnAfterPurge w e) := by
  unfold OnAfterPurge
  split <;> infer_instance

/-! ### What one step does -/

theorem reachable_classified {cfg : TncConfig} {p : Pump}
    (h : Reachable (TransmitWakeup.system cfg) (fun _ _ => True) p) : p.scheduler.Classified := by
  have hind : Inductive (TransmitWakeup.system cfg) (fun _ _ => True)
      fun p : Pump => p.scheduler.Classified := by
    refine .ofNext ?_ fun p e hp _ _ => next_classified hp e
    rintro p rfl
    exact Scheduler.classified_new _
  exact hind.reachable h

theorem next_held_eq {p : Pump} {e : Event} (he : Enabled p e) :
    (p.next e).1.held + items (p.next e).2 = p.held + acceptedBy p e := by
  cases e with
  | enqueue item =>
    have hgrown := p.scheduler.push_waiting item
    simp only [Pump.next, acceptedBy]
    unfold Scheduler.push at hgrown ⊢
    split_ifs at hgrown ⊢
    · rfl
    · simp only [Pump.held, Pump.publish_scheduler, Pump.publish_phase, hgrown, items_nil, add_zero]
      rw [← Multiset.singleton_add, add_assoc, add_comm]
  | _ =>
    rcases next_held he with heq | ⟨item, hitem, -, -⟩
    · exact heq.trans (add_zero _).symm
    · cases hitem

/-- Nothing is keyed that was not held, and only accepted frames come in. -/
theorem next_data {p : Pump} {e : Event} (he : Enabled p e) :
    data (p.next e).1.held + data (keyedItems (p.next e).2) ≤ data p.held + data (acceptedBy p e) :=
  calc data (p.next e).1.held + data (keyedItems (p.next e).2)
      ≤ data (p.next e).1.held + data (items (p.next e).2) :=
        add_le_add_right (data_mono (keyedItems_le _)) _
    _ = data p.held + data (acceptedBy p e) := by rw [← data_add, next_held_eq he, data_add]

@[simp] theorem sweep_inhibit (p : Pump) (out : List (Queued Ax25Frame))
    (s : Scheduler Ax25Frame) (count : AirtimeShared → ℕ → AirtimeShared)
    (h : (count p.shared out.length).inhibit = p.shared.inhibit) :
    (p.sweep out s count).shared.inhibit = p.shared.inhibit := by
  unfold Pump.sweep
  split_ifs
  · rfl
  · exact h

/-- Only the command raises the flag and lowers it. -/
theorem next_inhibit (p : Pump) {e : Event} (he : ∀ b, e ≠ .setInhibit b) :
    (p.next e).1.shared.inhibit = p.shared.inhibit := by
  have hdrop : ∀ (p : Pump) (item : Queued Ax25Frame) (why : Drop),
      (p.drop item why).1.shared.inhibit = p.shared.inhibit := by
    intro p item why
    cases why <;> rfl
  cases e with
  | step written =>
    simp only [Pump.next, Pump.advancePhase]
    split
    · unfold Pump.drainInhibited
      dsimp only
      split_ifs
      · exact sweep_inhibit _ _ _ _ rfl
      · rfl
    · rfl
    · exact sweep_inhibit _ _ _ _ rfl
    · rfl
    · rfl
    · rfl
    · rfl
    · rfl
    · rfl
    · unfold Pump.takeFrame
      split_ifs
      · rfl
      · split
        · split <;> rfl
        · rfl
    · unfold Pump.decide
      split_ifs
      · exact hdrop ..
      · exact hdrop ..
      · split
        · rfl
        · split_ifs
          · exact hdrop ..
          · rfl
    · unfold Pump.key
      split_ifs <;> rfl
    · rfl
  | setInhibit b => exact absurd rfl (he b)
  | enqueue item =>
    simp only [Pump.next]
    split <;> rfl
  | unlock =>
    simp only [Pump.next, Pump.notifyWaiters]
    split <;> rfl
  | notify =>
    simp only [Pump.next, Pump.notifyWaiters]
    split <;> rfl
  | _ => rfl

/-- The frame in hand stays, or the hands are empty before or after. -/
theorem next_inHand {p : Pump} {e : Event} (he : Enabled p e) :
    (p.next e).1.phase.inHand = p.phase.inHand ∨ (p.next e).1.phase.inHand = 0 ∨
      p.phase.inHand = 0 := by
  have hnotify : ∀ p : Pump, p.notifyWaiters.phase = p.phase := by
    intro p
    unfold Pump.notifyWaiters
    split <;> rfl
  cases e with
  | step written =>
    simp only [Pump.next, Pump.advancePhase]
    split <;> rename_i h
    case h_11 now item =>
      unfold Pump.decide
      split_ifs
      · exact .inr (.inl rfl)
      · exact .inr (.inl rfl)
      · split
        · exact .inl (by rw [h]; rfl)
        · split_ifs <;> exact .inr (.inl rfl)
    case h_12 now item =>
      unfold Pump.key
      split_ifs <;> exact .inr (.inl rfl)
    all_goals exact .inr (.inr (by rw [h]; rfl))
  | enqueue item =>
    left
    simp only [Pump.next]
    split <;> rfl
  | unlock => exact .inl (congrArg Phase.inHand (hnotify _))
  | notify => exact .inl (congrArg Phase.inHand (hnotify _))
  | linkDown => exact .inr (.inl rfl)
  | woken | timer | read => exact .inr (.inl rfl)
  | _ => exact .inl rfl

theorem takeFrame_uncleared (p : Pump) (now : ℕ) (item : Queued Ax25Frame) :
    p.takeFrame.phase ≠ .cleared now item := by
  unfold Pump.takeFrame
  split_ifs
  · exact fun h => by cases h
  · split
    · split
      · exact fun h => by cases h
      · exact fun h => by cases h
    · exact fun h => by cases h

/-- While the flag is up, only an identification passes the decision. -/
theorem next_cleared {p : Pump} {e : Event} (hoff : p.shared.inhibit = true) {now : ℕ}
    {item : Queued Ax25Frame} (h : (p.next e).1.phase = .cleared now item) :
    p.phase = .cleared now item ∨ item.cls = .id := by
  have hnotify : ∀ p : Pump, p.notifyWaiters.phase = p.phase := by
    intro p
    unfold Pump.notifyWaiters
    split <;> rfl
  cases e with
  | step written =>
    right
    simp only [Pump.next, Pump.advancePhase] at h
    split at h
    case h_1 =>
      unfold Pump.drainInhibited at h
      dsimp only at h
      split_ifs at h
      rw [Pump.sweep_phase] at h
      cases h
    case h_3 =>
      rw [Pump.expireStale, Pump.sweep_phase] at h
      cases h
    case h_8 hwait =>
      rw [hwait] at h
      cases h
    case h_10 => exact absurd h (takeFrame_uncleared p now item)
    case h_11 =>
      unfold Pump.decide at h
      split_ifs at h with hpassed
      · cases h
      · cases h
      · split at h
        · cases h
          by_contra hdata
          exact hpassed ⟨hoff, hdata⟩
        · split_ifs at h
          all_goals cases h
    case h_12 =>
      unfold Pump.key at h
      split_ifs at h
      all_goals cases h
    all_goals cases h
  | enqueue item =>
    left
    simp only [Pump.next] at h
    split at h <;> exact h
  | unlock => exact .inl ((hnotify { p with locked := false }).symm.trans h)
  | notify => exact .inl ((hnotify _).symm.trans h)
  | woken | timer | read | linkDown => cases h
  | _ => exact .inl h

/-! ### What stays true from the command on -/

/-- Until the backlog is gone the flag is up, and nothing but the spared frame can be keyed. From
then on all that is in the path was accepted since, or spared. -/
structure Purging (w : Watch) : Prop where
  classified : w.pump.scheduler.Classified
  raised : w.purged = false → w.pump.shared.inhibit = true
  bounded : w.purged = false →
    w.keyed + (if w.spared then data w.pump.phase.inHand else 0) ≤ w.popped
  hand : w.spared = true → w.pump.phase.inHand ≠ 0
  caught : w.purged = false → w.spared = false →
    ∀ now item, w.pump.phase = .cleared now item → item.cls = .id
  accounted : w.purged = true → w.keyed + data w.pump.held ≤ w.popped + w.accepted

theorem ite_le (b : Bool) (m : Multiset (Queued Ax25Frame)) : (if b then m else 0) ≤ m := by
  cases b with
  | true => exact le_refl m
  | false => exact Multiset.zero_le m

theorem held_of_purged {p : Pump} {spared : Bool} (h : backlog p spared = 0) :
    data p.held = if spared then data p.phase.inHand else 0 := by
  have hwaiting : data p.scheduler.waiting = 0 :=
    Multiset.le_zero.mp (h ▸ Multiset.le_add_right _ _)
  have hhand : (if spared then 0 else data p.phase.inHand) = 0 := by
    rwa [backlog, hwaiting, zero_add] at h
  rw [Pump.held, data_add, hwaiting, zero_add]
  cases spared with
  | true => rfl
  | false => exact hhand

theorem switchOff_purging {p : Pump} (h : p.scheduler.Classified) : Purging (switchOff p) where
  classified := h
  raised := fun _ => rfl
  bounded := by
    intro _
    simp only [switchOff, zero_add]
    exact ite_le _ _
  hand := fun hspared => of_decide_eq_true hspared
  caught := by
    intro _ hspared now item hphase
    have hhand : (switchOff p).pump.phase.inHand ≠ 0 := by
      rw [hphase]
      exact Multiset.singleton_ne_zero item
    exact absurd hspared (by simpa [switchOff] using hhand)
  accounted := by
    intro hpurged
    have hempty := held_of_purged (of_decide_eq_true hpurged)
    simp only [switchOff, zero_add, add_zero] at hempty ⊢
    rw [hempty]
    exact ite_le _ _

/-- Before the backlog is gone, only the spared frame leaves the hands for the air. -/
theorem Purging.bounded_step {w : Watch} {e : Event} (h : Purging w) (hpurged : w.purged = false)
    (he : Enabled w.pump e) :
    (w.next e).keyed + (if (w.next e).spared then data (w.next e).pump.phase.inHand else 0) ≤
      w.popped := by
  have hbound := h.bounded hpurged
  have hless : w.keyed ≤ w.popped := (Multiset.le_add_right _ _).trans hbound
  by_cases hkeyed : ∃ item, Fate.keyed item ∈ (w.pump.next e).2
  · rcases next_fates w.pump e with hf | ⟨now, item, hphase, rfl, -, hf⟩ | ⟨_, _, _, _, _, _, _, hf⟩ |
      ⟨_, _, _, _, hf⟩ | ⟨_, _, _, _, hf⟩
    · simp [hf] at hkeyed
    · -- the frame that the decision let through
      have hone : (w.next (.step true)).keyed = w.keyed + data {item} := by
        simp only [Watch.next, hf]
        rfl
      have hempty : (w.next (.step true)).spared = false := by
        have hhand : (w.pump.next (.step true)).1.phase.inHand = 0 := by
          simp only [Pump.next, Pump.advancePhase, hphase, Pump.key]
          split_ifs <;> rfl
        simp [Watch.next, hhand]
      rw [hone, hempty]
      simp only [Bool.false_eq_true, if_false, add_zero]
      cases hspared : w.spared with
      | true =>
        rw [hspared, hphase] at hbound
        exact hbound
      | false =>
        rw [data_singleton_id (h.caught hpurged hspared now item hphase), add_zero]
        exact hless
    all_goals simp [hf] at hkeyed
  · have hnone : keyedItems (w.pump.next e).2 = 0 := by
      simp only [keyedItems, Multiset.coe_eq_zero, List.filterMap_eq_nil_iff]
      intro f hf
      cases f with
      | keyed item => exact absurd ⟨item, hf⟩ hkeyed
      | dropped item why => rfl
    have hsame : (w.next e).keyed = w.keyed := by
      simp only [Watch.next, hnone, data_zero, add_zero]
    rw [hsame]
    by_cases hspared : (w.next e).spared = true
    · obtain ⟨hold, hfull⟩ := Bool.and_eq_true .. |>.mp hspared
      rw [if_pos hspared]
      rw [if_pos hold] at hbound
      rcases next_inHand he with hstay | hempty | hempty
      · exact hstay ▸ hbound
      · exact absurd hempty (of_decide_eq_true hfull)
      · exact absurd hempty (h.hand hold)
    · rw [if_neg hspared, add_zero]
      exact hless

theorem Purging.step {w : Watch} {e : Event} (h : Purging w) (hg : OnAfterPurge w e)
    (he : Enabled w.pump e) : Purging (w.next e) := by
  have hinhibit : w.purged = false → (w.next e).pump.shared.inhibit = true := by
    intro hpurged
    have hraised := h.raised hpurged
    by_cases hset : ∃ b, e = .setInhibit b
    · obtain ⟨b, rfl⟩ := hset
      cases b with
      | true => rfl
      | false =>
        have hpurged' : w.purged = true := hg
        rw [hpurged] at hpurged'
        cases hpurged'
    · exact (next_inhibit w.pump fun b hb => hset ⟨b, hb⟩).trans hraised
  have hbefore : (w.next e).purged = false → w.purged = false := fun hpurged => by
    have hboth := Bool.or_eq_false_iff.mp hpurged
    exact hboth.1
  refine ⟨next_classified h.classified e, fun hp => hinhibit (hbefore hp),
    fun hp => h.bounded_step (hbefore hp) he, ?_, ?_, ?_⟩
  · intro hspared
    exact of_decide_eq_true (Bool.and_eq_true .. |>.mp hspared).2
  · intro hp hspared now item hphase
    rcases next_cleared (h.raised (hbefore hp)) hphase with hold | hid
    · have hin : (w.pump.next e).1.phase.inHand ≠ 0 := by
        have hphase' : (w.pump.next e).1.phase = .cleared now item := hphase
        rw [hphase']
        exact Multiset.singleton_ne_zero item
      have hnot : w.spared = false := by
        simpa [Watch.next, hin] using hspared
      exact h.caught (hbefore hp) hnot now item hold
    · exact hid
  · intro hp
    have hnext := next_data he
    cases hpurged : w.purged with
    | true =>
      have haccounted := h.accounted hpurged
      calc (w.next e).keyed + data (w.next e).pump.held
          = w.keyed + (data (w.pump.next e).1.held + data (keyedItems (w.pump.next e).2)) := by
            simp only [Watch.next]
            rw [add_assoc, add_comm (data (keyedItems _))]
        _ ≤ w.keyed + (data w.pump.held + data (acceptedBy w.pump e)) := add_le_add_right hnext _
        _ = w.keyed + data w.pump.held + data (acceptedBy w.pump e) := (add_assoc ..).symm
        _ ≤ w.popped + w.accepted + data (acceptedBy w.pump e) := add_le_add_left haccounted _
        _ = (w.next e).popped + (w.next e).accepted := add_assoc ..
    | false =>
      have hempty : backlog (w.next e).pump (w.next e).spared = 0 := by
        rcases Bool.or_eq_true .. |>.mp hp with hold | hnow
        · rw [hpurged] at hold
          cases hold
        · exact of_decide_eq_true hnow
      rw [held_of_purged hempty]
      exact (h.bounded_step hpurged he).trans (Multiset.le_add_right _ _)

theorem reachable_purging {cfg : TncConfig} {w : Watch}
    (h : Reachable (system cfg) OnAfterPurge w) : Purging w := by
  have hind : Inductive (system cfg) OnAfterPurge Purging := by
    refine .ofNext ?_ fun w e hw hg he => hw.step hg he
    rintro _ ⟨p, hp, rfl⟩
    exact switchOff_purging (reachable_classified hp)
  exact hind.reachable h

/-- The pump gets rid of the backlog at the top of its loop. -/
theorem top_purges {w : Watch} (h : w.pump.scheduler.Classified) (htop : w.pump.phase = .top)
    (hraised : w.pump.shared.inhibit = true) (written : Bool) :
    (w.next (.step written)).purged = true := by
  have hempty : backlog (w.pump.next (.step written)).1 (w.next (.step written)).spared = 0 := by
    have hphase : (w.pump.next (.step written)).1.phase = .drained := by
      simp only [Pump.next, Pump.advancePhase, htop, Pump.drainInhibited, hraised, if_true]
      exact Pump.sweep_phase ..
    have hwaiting : data (w.pump.next (.step written)).1.scheduler.waiting = 0 := by
      simp only [Pump.next, Pump.advancePhase, htop, Pump.drainInhibited, hraised, if_true,
        Pump.sweep_scheduler]
      rw [data, Multiset.filter_eq_nil]
      intro x hx hid
      obtain ⟨c, hc⟩ := Scheduler.mem_waiting.mp hx
      have hc' : c = .id := by
        by_contra hne
        simp only [Scheduler.drainExcept, if_neg hne] at hc
        exact List.not_mem_nil hc
      exact hid (((h.drainExcept .id) c x hc).trans hc')
    rw [backlog, hwaiting, hphase]
    simp [Phase.inHand]
  exact Bool.or_eq_true .. |>.mpr (.inr (decide_eq_true hempty))

/-- In every run that follows an `OFF`, as long as each `ON` waits until the backlog is gone: nothing
but identifications is keyed save what was in hand then and what was accepted since, and whatever is
keyed while some of the backlog is left is the frame that was in hand. -/
theorem off_discards_backlog {cfg : TncConfig} {w : Watch}
    (h : Reachable (system cfg) OnAfterPurge w) : w.keyed ≤ w.popped + w.accepted ∧
    ∀ e item, Enabled w.pump e → .keyed item ∈ (w.pump.next e).2 → item.cls ≠ .id →
      w.purged = true ∨ w.spared = true := by
  have hpurging := reachable_purging h
  constructor
  · cases hpurged : w.purged with
    | true => exact (Multiset.le_add_right _ _).trans (hpurging.accounted hpurged)
    | false =>
      have hbound := (Multiset.le_add_right _ _).trans (hpurging.bounded hpurged)
      exact hbound.trans (Multiset.le_add_right _ _)
  · intro e item he hkeyed hdata
    by_contra hnone
    simp only [not_or, Bool.not_eq_true] at hnone
    rcases next_fates w.pump e with hf | ⟨now, x, hphase, -, -, hf⟩ | ⟨_, _, _, _, _, _, _, hf⟩ |
      ⟨_, _, _, _, hf⟩ | ⟨_, _, _, _, hf⟩
    · simp [hf] at hkeyed
    · simp only [hf, List.mem_singleton, Fate.keyed.injEq] at hkeyed
      exact hdata (hpurging.caught hnone.1 hnone.2 now item (hkeyed ▸ hphase))
    all_goals simp [hf] at hkeyed

/-! ### An `ON` that comes soon -/

/-- One frame of chat. -/
def chatFrame : Queued Ax25Frame :=
  ⟨⟨.new ⟨"AIRC", 0⟩, .new ⟨"SK0MT", 1⟩, [], controlUi, some pidNoL3, []⟩, .chat, "SM0ABC", millis 500, 0, false⟩

/-- The pump with one frame queued. -/
def loaded : Pump := [Event.enqueue chatFrame, .unlock].foldl (fun p e => (p.next e).1) (Pump.new .default)

theorem loaded_reachable : Reachable (TransmitWakeup.system .default) (fun _ _ => True) loaded :=
  have hstart : Reachable (TransmitWakeup.system .default) (fun _ _ => True) (Pump.new .default) :=
    .initial rfl
  hstart.run (by decide +kernel)

/-- One turn of the loop. -/
def turn : List Event :=
  List.replicate 7 (.step true) ++ [.timer] ++ List.replicate 3 (.step true)

/-- The pump comes to the top of its loop first; then a frame is queued and keyed. -/
def patient : List Event :=
  [.step true, .setInhibit false, .enqueue chatFrame, .unlock] ++ turn.tail

theorem off_then_patient_on :
    (patient.foldl Watch.next (switchOff loaded)).keyed = {chatFrame} ∧
    (patient.foldl Watch.next (switchOff loaded)).keyed ≤
      (patient.foldl Watch.next (switchOff loaded)).popped +
        (patient.foldl Watch.next (switchOff loaded)).accepted := by
  have hoff : (system .default).Initial (switchOff loaded) := ⟨loaded, loaded_reachable, rfl⟩
  exact ⟨by decide +kernel,
    (off_discards_backlog ((Reachable.initial hoff).run (by decide +kernel))).1⟩

/-- With an `ON` right after the `OFF`, the frame that was queued is keyed. -/
theorem frame_keyed_after_off :
    Reachable (system .default) (fun _ _ => True)
      ((.setInhibit false :: turn).foldl Watch.next (switchOff loaded)) ∧
    ¬ ((.setInhibit false :: turn).foldl Watch.next (switchOff loaded)).keyed ≤
      ((.setInhibit false :: turn).foldl Watch.next (switchOff loaded)).popped +
        ((.setInhibit false :: turn).foldl Watch.next (switchOff loaded)).accepted := by
  have hoff : (system .default).Initial (switchOff loaded) := ⟨loaded, loaded_reachable, rfl⟩
  exact ⟨(Reachable.initial hoff).run (by decide +kernel), by decide +kernel⟩

end RadioOff
