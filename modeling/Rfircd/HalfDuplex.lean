import Rfircd.SchedulerRuns

/-! Half duplex: when the scheduler lets the transmitter key.
A run keeps a log of what was heard and keyed, the last entry first. A frame is keyed at the
instant of a poll that answered ready, and nothing was heard or keyed since that answer. -/
namespace HalfDuplex

open Basics TransmitScheduler TransitionSystem SchedulerRuns

variable {α : Type*}

/-- A transmission, with the gap and the reply window in force when it was keyed. -/
structure Transmission where
  start : ℕ
  stop : ℕ
  gap : ℕ
  window : Option ℕ

inductive Entry where
  | heard (time : ℕ)
  | keyed (k : Transmission)

def Entry.isHeard : Entry → Bool
  | .heard _ => true
  | .keyed _ => false

structure Station (α : Type*) where
  scheduler : Scheduler α
  clock : ℕ
  answered : Option ℕ
  log : List Entry

inductive Event (α : Type*) where
  | poll (now : ℕ)
  | call (op : Op α)

def Event.time : Event α → Option ℕ
  | .poll now => some now
  | .call op => op.time

def transmission (s : Scheduler α) (now keyed : ℕ) (expectsReply : Bool) : Transmission :=
  ⟨now, now + keyed, s.cfg.minGap, if expectsReply then some s.cfg.replyWindow else none⟩

def Station.next (a : Station α) (e : Event α) : Station α :=
  let clock := e.time.getD a.clock
  match e with
  | .poll now =>
    { a with clock := clock, answered := if a.scheduler.poll now = .ready then some now else none }
  | .call op =>
    let a' := { a with scheduler := perform a.scheduler op, clock := clock }
    match op with
    | .onHeard now => { a' with answered := none, log := .heard now :: a.log }
    | .onKeyed now _ keyed expectsReply =>
      { a' with answered := none
                log := .keyed (transmission a.scheduler now keyed expectsReply) :: a.log }
    | _ => a'

/-- The clock does not go back, and a frame is keyed on the answer of a poll. -/
def Enabled (a : Station α) (e : Event α) : Prop :=
  (∀ t ∈ e.time, a.clock ≤ t) ∧ match e with
    | .call (.onKeyed now _ _ _) => a.answered = some now
    | _ => True

instance (a : Station α) (e : Event α) : Decidable (Enabled a e) := by
  rcases e with _ | _ | _ | _ | _ | _ | _ | _ | _ | _ | _ <;> simp only [Enabled] <;>
    infer_instance

def system (α : Type*) : System (Station α) (Event α) :=
  .ofNext (fun a => ∃ cfg, a = ⟨.new cfg, 0, none, []⟩) Enabled Station.next

def everyStep (_ : Station α) (_ : Event α) : Prop := True

instance (a : Station α) (e : Event α) : Decidable (everyStep a e) :=
  inferInstanceAs (Decidable True)

/-! ### The discipline -/

/-- What has happened so far allows a transmission to start at that time. -/
structure Clear (rxGuard start : ℕ) (log : List Entry) : Prop where
  gap : ∀ k, .keyed k ∈ log → k.stop + k.gap ≤ start
  heard : ∀ t, .heard t ∈ log → t + rxGuard ≤ start
  /-- Nothing was heard since a frame that expects a reply. -/
  reply : ∀ k, .keyed k ∈ log.takeWhile (!·.isHeard) → ∀ w ∈ k.window, k.stop + w ≤ start

/-- Every transmission of the log started when those before it allowed it. -/
def Disciplined (rxGuard : ℕ) : List Entry → Prop
  | [] => True
  | .heard _ :: log => Disciplined rxGuard log
  | .keyed k :: log => Clear rxGuard k.start log ∧ Disciplined rxGuard log

theorem Clear.later {rxGuard t u : ℕ} {log : List Entry} (h : Clear rxGuard t log) (hle : t ≤ u) :
    Clear rxGuard u log :=
  ⟨fun k hk => (h.gap k hk).trans hle, fun k hk => (h.heard k hk).trans hle,
    fun k hk w hw => (h.reply k hk w hw).trans hle⟩

/-- The holds of the scheduler reach as far as the log asks for. -/
structure Holds (s : Scheduler α) (log : List Entry) : Prop where
  gap : ∀ k, .keyed k ∈ log → ∃ u ∈ s.paceUntil, k.stop + k.gap ≤ u
  heard : ∀ t, .heard t ∈ log → ∃ u ∈ s.lastHeard, t ≤ u
  reply : ∀ k, .keyed k ∈ log.takeWhile (!·.isHeard) → ∀ w ∈ k.window,
    (∃ u ∈ s.paceUntil, k.stop + w ≤ u) ∨ ∃ u ∈ s.replyUntil, k.stop + w ≤ u

/-- A poll answers ready only when all holds are over. -/
theorem Holds.clear {s : Scheduler α} {log : List Entry} (h : Holds s log) {now : ℕ}
    (hready : s.poll now = .ready) : Clear s.cfg.rxGuard now log := by
  obtain ⟨hpace, hreply, hguard⟩ :=
    (s.blockedUntil_le_iff now).mp (Scheduler.poll_ready_iff.mp hready).2
  refine ⟨fun k hk => ?_, fun t ht => ?_, fun k hk w hw => ?_⟩
  · obtain ⟨u, hu, hle⟩ := h.gap k hk
    exact hle.trans (hpace u hu)
  · obtain ⟨u, hu, hle⟩ := h.heard t ht
    have := hguard u hu
    omega
  · rcases h.reply k hk w hw with ⟨u, hu, hle⟩ | ⟨u, hu, hle⟩
    · exact hle.trans (hpace u hu)
    · exact hle.trans (hreply u hu)

/-- The holds are only put off by all calls but these two. -/
structure PutsOff (s t : Scheduler α) : Prop where
  pace : ∀ u ∈ s.paceUntil, ∃ v ∈ t.paceUntil, u ≤ v
  reply : t.replyUntil = s.replyUntil
  heard : t.lastHeard = s.lastHeard
  rxGuard : t.cfg.rxGuard = s.cfg.rxGuard

theorem PutsOff.of_same {s t : Scheduler α} (hpace : t.paceUntil = s.paceUntil)
    (hreply : t.replyUntil = s.replyUntil) (hheard : t.lastHeard = s.lastHeard)
    (hguard : t.cfg.rxGuard = s.cfg.rxGuard) : PutsOff s t :=
  ⟨fun u hu => ⟨u, hpace ▸ hu, le_rfl⟩, hreply, hheard, hguard⟩

theorem perform_putsOff (s : Scheduler α) {op : Op α} (hheard : ∀ now, op ≠ .onHeard now)
    (hkeyed : ∀ now account keyed expectsReply, op ≠ .onKeyed now account keyed expectsReply) :
    PutsOff s (perform s op) := by
  cases op with
  | push item =>
    simp only [perform, Scheduler.push]
    split_ifs <;> exact .of_same rfl rfl rfl rfl
  | pop now =>
    simp only [perform]
    rcases hpop : s.pop now with ⟨- | x, t⟩
    · rw [Scheduler.pop_none hpop]
      exact .of_same rfl rfl rfl rfl
    · obtain ⟨c, i, -, rfl⟩ := Scheduler.pop_some hpop
      exact .of_same rfl rfl rfl rfl
  | requeue item now delay =>
    refine ⟨fun u hu => ⟨max u (now + delay), ?_, le_max_left _ _⟩, rfl, rfl, rfl⟩
    simp only [perform, Scheduler.requeue, Option.mem_def.mp hu]
    rfl
  | onHeard now => exact absurd rfl (hheard now)
  | onKeyed now account keyed expectsReply => exact absurd rfl (hkeyed _ _ _ _)
  | _ => exact .of_same rfl rfl rfl rfl

theorem Holds.putsOff {s t : Scheduler α} {log : List Entry} (h : Holds s log)
    (hoff : PutsOff s t) : Holds t log := by
  have hpace : ∀ n, (∃ u ∈ s.paceUntil, n ≤ u) → ∃ u ∈ t.paceUntil, n ≤ u := by
    rintro n ⟨u, hu, hle⟩
    obtain ⟨v, hv, huv⟩ := hoff.pace u hu
    exact ⟨v, hv, hle.trans huv⟩
  refine ⟨fun k hk => hpace _ (h.gap k hk), hoff.heard ▸ h.heard, fun k hk w hw => ?_⟩
  rcases h.reply k hk w hw with hp | hr
  · exact .inl (hpace _ hp)
  · exact .inr (hoff.reply ▸ hr)

/-! ### Runs -/

variable {a : Station α} {now : ℕ}

structure Sound (a : Station α) : Prop where
  holds : Holds a.scheduler a.log
  past : ∀ u ∈ a.scheduler.lastHeard, u ≤ a.clock
  answer : ∀ t ∈ a.answered, Clear a.scheduler.cfg.rxGuard t a.log
  disciplined : Disciplined a.scheduler.cfg.rxGuard a.log

theorem poll_sound (h : Sound a) (hnow : a.clock ≤ now) : Sound (a.next (.poll now)) := by
  refine ⟨h.holds, fun u hu => (h.past u hu).trans hnow, fun t ht => ?_, h.disciplined⟩
  simp only [Station.next] at ht
  split_ifs at ht with hready
  · obtain rfl := Option.some.inj ht
    exact h.holds.clear hready
  · cases ht

/-- What is heard ends the reply window, and begins the guard. -/
theorem heard_sound (h : Sound a) (hnow : a.clock ≤ now) :
    Sound (a.next (.call (.onHeard now))) := by
  refine ⟨⟨fun k hk => ?_, fun t ht => ⟨now, rfl, ?_⟩, fun k hk => ?_⟩, ?_, ?_, h.disciplined⟩
  · rcases List.mem_cons.mp hk with heq | hk
    · cases heq
    · exact h.holds.gap k hk
  · rcases List.mem_cons.mp ht with heq | ht
    · exact (Entry.heard.inj heq).le
    · obtain ⟨u, hu, hle⟩ := h.holds.heard t ht
      exact hle.trans ((h.past u hu).trans hnow)
  · simp [Station.next, Entry.isHeard] at hk
  · rintro u ⟨rfl⟩
    exact le_rfl
  · rintro t ⟨⟩

/-- The next hold reaches beyond all earlier ones: they were over when the frame was keyed. -/
theorem keyed_sound (h : Sound a) (hanswer : a.answered = some now) (hnow : a.clock ≤ now)
    (account : String) (keyed : ℕ) (expectsReply : Bool) :
    Sound (a.next (.call (.onKeyed now account keyed expectsReply))) := by
  have hclear : Clear a.scheduler.cfg.rxGuard now a.log := h.answer now hanswer
  have hover : ∀ n ≤ now, ∃ u ∈ some (now + keyed + a.scheduler.cfg.minGap), n ≤ u :=
    fun n hn => ⟨_, rfl, by omega⟩
  refine ⟨⟨fun k hk => ?_, fun t ht => ?_, fun k hk w hw => ?_⟩,
    fun u hu => (h.past u hu).trans hnow, ?_, hclear, h.disciplined⟩
  · rcases List.mem_cons.mp hk with heq | hk
    · obtain rfl := Entry.keyed.inj heq
      exact ⟨_, rfl, le_rfl⟩
    · exact hover _ (hclear.gap k hk)
  · rcases List.mem_cons.mp ht with heq | ht
    · cases heq
    · exact h.holds.heard t ht
  · rcases List.mem_cons.mp hk with heq | hk
    · obtain rfl := Entry.keyed.inj heq
      cases expectsReply with
      | true =>
        obtain rfl := Option.some.inj hw
        exact .inr ⟨_, rfl, le_rfl⟩
      | false => cases hw
    · exact .inl (hover _ (hclear.reply k hk w hw))
  · rintro t ⟨⟩

theorem next_sound {e : Event α} (h : Sound a) (he : Enabled a e) : Sound (a.next e) := by
  cases e with
  | poll now => exact poll_sound h (he.1 now rfl)
  | call op =>
    by_cases hheard : ∃ now, op = .onHeard now
    · obtain ⟨now, rfl⟩ := hheard
      exact heard_sound h (he.1 now rfl)
    by_cases hkeyed : ∃ now account keyed expectsReply, op = .onKeyed now account keyed expectsReply
    · obtain ⟨now, account, keyed, expectsReply, rfl⟩ := hkeyed
      exact keyed_sound h he.2 (he.1 now rfl) account keyed expectsReply
    push Not at hheard hkeyed
    have hoff := perform_putsOff a.scheduler hheard hkeyed
    have hclock : a.clock ≤ op.time.getD a.clock := by
      cases htime : op.time with
      | none => exact le_rfl
      | some t => exact he.1 t htime
    have hnext : a.next (.call op) =
        { a with scheduler := perform a.scheduler op, clock := op.time.getD a.clock } := by
      cases op with
      | onHeard now => exact absurd rfl (hheard now)
      | onKeyed now account keyed expectsReply => exact absurd rfl (hkeyed _ _ _ _)
      | _ => rfl
    rw [hnext]
    refine ⟨h.holds.putsOff hoff, fun u hu => ?_, fun t ht => ?_, ?_⟩
    · exact (h.past u (hoff.heard ▸ hu)).trans hclock
    · exact hoff.rxGuard ▸ h.answer t ht
    · exact hoff.rxGuard ▸ h.disciplined

theorem sound_inductive {guard : Station α → Event α → Prop} :
    Inductive (system α) guard Sound := by
  refine .ofNext ?_ fun a e h _ he => next_sound h he
  rintro _ ⟨cfg, rfl⟩
  refine ⟨⟨?_, ?_, ?_⟩, ?_, ?_, trivial⟩
  · exact fun k hk => absurd hk List.not_mem_nil
  · exact fun t ht => absurd ht List.not_mem_nil
  · exact fun k hk => absurd hk List.not_mem_nil
  · rintro u ⟨⟩
  · rintro t ⟨⟩

/-- No transmission starts before the gap, the receive guard and the reply window are over. -/
theorem half_duplex (h : Reachable (system α) everyStep a) :
    Disciplined a.scheduler.cfg.rxGuard a.log := (sound_inductive.reachable h).disciplined

/-- Two frames, of which the first one is answered. -/
def exchange : List (Event Unit) :=
  [.call (.push ⟨(), .direct, "SM0ABC-7", secs 2, 0, true⟩),
    .call (.push ⟨(), .ack, "SM0XYZ-9", secs 1, 0, false⟩),
    .poll 0, .call (.pop 0), .call (.onKeyed 0 "SM0XYZ-9" (secs 1) false),
    .poll (secs 3), .call (.pop (secs 3)), .call (.onKeyed (secs 3) "SM0ABC-7" (secs 2) true),
    .call (.push ⟨(), .ack, "SM0ABC-7", secs 1, secs 6, false⟩), .call (.onHeard (secs 6)),
    .poll (secs 7), .call (.pop (secs 7)), .call (.onKeyed (secs 7) "SM0ABC-7" (secs 1) false)]

def exchanged : Station Unit := exchange.foldl Station.next ⟨.new .default, 0, none, []⟩

theorem exchange_disciplined : Disciplined exchanged.scheduler.cfg.rxGuard exchanged.log :=
  half_duplex (Reachable.run (.initial ⟨.default, rfl⟩) (by decide +kernel))

end HalfDuplex
