import Rfircd.TransitionSystem
import Rfircd.TransmitScheduler

/-! Runs of the transmit scheduler: its operations in any order, at any times, and the ledger
of the frames that went through them. A frame carries the number of its push. -/
namespace SchedulerRuns

open TransmitScheduler TransitionSystem

variable {α : Type*}

inductive Op (α : Type*) where
  | push (item : Queued α)
  | pop (now : ℕ)
  | requeue (item : Queued α) (now delay : ℕ)
  | expire (now : ℕ)
  | drain
  | drainExcept (keep : TransmitScheduler.Class)
  | onHeard (now : ℕ)
  | onKeyed (now : ℕ) (account : String) (keyed : ℕ) (expectsReply : Bool)
  | setMinGap (gap : ℕ)
  | expireAccounts (now idle : ℕ)

def perform (s : Scheduler α) : Op α → Scheduler α
  | .push item => (s.push item).2
  | .pop now => (s.pop now).2
  | .requeue item now delay => s.requeue item now delay
  | .expire now => (s.expire now).2
  | .drain => s.drain.2
  | .drainExcept keep => (s.drainExcept keep).2
  | .onHeard now => s.onHeard now
  | .onKeyed now account keyed expectsReply => s.onKeyed now account keyed expectsReply
  | .setMinGap gap => s.setMinGap gap
  | .expireAccounts now idle => s.expireAccounts now idle

/-- The reading of the clock that a call is given. -/
def Op.time : Op α → Option ℕ
  | .pop now | .requeue _ now _ | .expire now | .onHeard now | .onKeyed now _ _ _ |
    .expireAccounts now _ => some now
  | _ => none

/-! ### The ledger -/

abbrev Frame (α : Type*) := Queued (ℕ × α)

def number (x : Frame α) : ℕ := x.payload.1

/-- The frames of a list but the one of that number. -/
def without (x : Frame α) (l : List (Frame α)) : List (Frame α) := l.filter (number · ≠ number x)

/-- `popped` are the frames popped and not put back, in the order in which they were popped.
`held` are those that the caller still has in hand, `mostHeld` is how many these have been. -/
structure Run (α : Type*) where
  scheduler : Scheduler (ℕ × α)
  accepted : List (Frame α)
  popped : List (Frame α)
  held : List (Frame α)
  mostHeld : ℕ
  expired : List (Frame α)
  drained : List (Frame α)

inductive Event (α : Type*) where
  | call (op : Op (ℕ × α))
  /-- The caller has keyed the frame, or given it up. -/
  | settle (x : Frame α)

namespace Run

def start (cfg : SchedulerConfig) : Run α := ⟨.new cfg, [], [], [], 0, [], []⟩

/-- What a call adds to the ledger. -/
def record (r : Run α) : Op (ℕ × α) → Run α
  | .push item => match (r.scheduler.push item).1 with
    | .ok () => { r with accepted := r.accepted ++ [item] }
    | .error _ => r
  | .pop now => match (r.scheduler.pop now).1 with
    | some x => { r with popped := r.popped ++ [x], held := r.held ++ [x],
                         mostHeld := max r.mostHeld (r.held.length + 1) }
    | none => r
  | .requeue x _ _ => { r with popped := without x r.popped, held := without x r.held }
  | .expire now => { r with expired := r.expired ++ (r.scheduler.expire now).1 }
  | .drain => { r with drained := r.drained ++ r.scheduler.drain.1 }
  | .drainExcept keep => { r with drained := r.drained ++ (r.scheduler.drainExcept keep).1 }
  | _ => r

def next (r : Run α) : Event α → Run α
  | .call op => { r.record op with scheduler := perform r.scheduler op }
  | .settle x => { r with held := without x r.held }

section

variable (r : Run α)

theorem next_push (item : Frame α) : r.next (.call (.push item)) =
    { (match (r.scheduler.push item).1 with
      | .ok () => { r with accepted := r.accepted ++ [item] }
      | .error _ => r) with scheduler := (r.scheduler.push item).2 } := rfl

theorem next_pop (now : ℕ) : r.next (.call (.pop now)) =
    { (match (r.scheduler.pop now).1 with
      | some x => { r with popped := r.popped ++ [x], held := r.held ++ [x],
                           mostHeld := max r.mostHeld (r.held.length + 1) }
      | none => r) with scheduler := (r.scheduler.pop now).2 } := rfl

theorem next_requeue (x : Frame α) (now delay : ℕ) : r.next (.call (.requeue x now delay)) =
    { r with
      popped := without x r.popped
      held := without x r.held
      scheduler := r.scheduler.requeue x now delay } := rfl

theorem next_expire (now : ℕ) : r.next (.call (.expire now)) =
    { r with
      expired := r.expired ++ (r.scheduler.expire now).1
      scheduler := (r.scheduler.expire now).2 } := rfl

theorem next_drain : r.next (.call .drain) =
    { r with
      drained := r.drained ++ r.scheduler.drain.1
      scheduler := r.scheduler.drain.2 } := rfl

theorem next_drainExcept (keep : TransmitScheduler.Class) :
    r.next (.call (.drainExcept keep)) =
      { r with
        drained := r.drained ++ (r.scheduler.drainExcept keep).1
        scheduler := (r.scheduler.drainExcept keep).2 } := rfl

end

end Run

/-- Only a frame in hand is put back, and pushes are numbered. -/
def Enabled (r : Run α) : Event α → Prop
  | .call (.push item) => number item = r.accepted.length
  | .call (.requeue x _ _) => x ∈ r.held
  | .settle x => x ∈ r.held
  | _ => True

instance [DecidableEq α] (r : Run α) (e : Event α) : Decidable (Enabled r e) := by
  rcases e with (_ | _ | _ | _ | _ | _ | _ | _ | _ | _) | _ <;> simp only [Enabled] <;>
    infer_instance

def system (α : Type*) : System (Run α) (Event α) :=
  .ofNext (fun r => ∃ cfg, r = .start cfg) Enabled Run.next

def everyStep (_ : Run α) (_ : Event α) : Prop := True

instance (r : Run α) (e : Event α) : Decidable (everyStep r e) := inferInstanceAs (Decidable True)

/-! ### Every frame is in one place -/

theorem without_perm {x : Frame α} {l : List (Frame α)} (h : (l.map number).Nodup) (hx : x ∈ l) :
    l.Perm (x :: without x l) := by
  induction l with
  | nil => exact absurd hx List.not_mem_nil
  | cons y l ih =>
    obtain ⟨hy, hl⟩ := List.nodup_cons.mp h
    rcases List.mem_cons.mp hx with rfl | hx
    · have hsame : without x l = l := by
        refine List.filter_eq_self.mpr fun z hz => ?_
        have : number z ≠ number x := fun heq => hy (heq ▸ List.mem_map_of_mem hz)
        simpa using this
      rw [without, List.filter_cons_of_neg (by simp), ← without, hsame]
    · have hne : number y ≠ number x := fun heq => hy (heq ▸ List.mem_map_of_mem hx)
      rw [without, List.filter_cons_of_pos (by simpa using hne), ← without]
      exact ((ih hl hx).cons y).trans (.swap x y _)

structure Accounted (r : Run α) : Prop where
  ledger : (r.accepted : Multiset (Frame α)) =
    r.scheduler.waiting + r.popped + r.expired + r.drained
  numbers : r.accepted.map number = List.range r.accepted.length
  held : r.held.Sublist r.popped
  classified : r.scheduler.Classified

/-- The frames of the ledger, wherever they are, differ in their numbers. -/
theorem Accounted.distinct {r : Run α} (h : Accounted r) :
    ((r.scheduler.waiting + r.popped + r.expired + r.drained).map number).Nodup := by
  rw [← h.ledger, Multiset.map_coe, h.numbers, Multiset.coe_nodup]
  exact List.nodup_range

theorem Accounted.popped_distinct {r : Run α} (h : Accounted r) :
    (r.popped.map number).Nodup := by
  have hle : (r.popped : Multiset (Frame α)) ≤
      r.scheduler.waiting + r.popped + r.expired + r.drained := by
    rw [add_assoc, add_assoc, add_left_comm]
    exact Multiset.le_add_right _ _
  have := Multiset.nodup_of_le (Multiset.map_le_map hle) h.distinct
  rwa [Multiset.map_coe, Multiset.coe_nodup] at this

theorem Accounted.lt_accepted {r : Run α} (h : Accounted r) {x : Frame α}
    (hx : x ∈ r.scheduler.waiting + r.popped + r.expired + r.drained) :
    number x < r.accepted.length := by
  rw [← h.ledger, Multiset.mem_coe] at hx
  have := List.mem_map_of_mem (f := number) hx
  rwa [h.numbers, List.mem_range] at this

theorem start_accounted (cfg : SchedulerConfig) : Accounted (.start cfg : Run α) where
  ledger := by simp [Run.start, Scheduler.waiting_eq, Scheduler.new]
  numbers := rfl
  held := .slnil
  classified := Scheduler.classified_new cfg

theorem push_accounted {r : Run α} (h : Accounted r) {item : Frame α}
    (hnumber : number item = r.accepted.length) : Accounted (r.next (.call (.push item))) := by
  have hclassified := h.classified.push item
  have hwaiting := r.scheduler.push_waiting item
  rw [Run.next_push]
  unfold Scheduler.push at hwaiting hclassified ⊢
  split_ifs at hwaiting hclassified ⊢
  · exact ⟨h.ledger, h.numbers, h.held, hclassified⟩
  · refine ⟨?_, ?_, h.held, hclassified⟩
    · simp only [hwaiting, ← Multiset.coe_add, Multiset.coe_singleton, h.ledger,
        ← Multiset.singleton_add]
      abel
    · simp only [List.map_append, List.map_cons, List.map_nil, h.numbers, hnumber,
        List.length_append, List.length_singleton, List.range_succ]

theorem pop_accounted {r : Run α} (h : Accounted r) (now : ℕ) :
    Accounted (r.next (.call (.pop now))) := by
  have hclassified := h.classified.pop now
  rw [Run.next_pop]
  rcases hpop : r.scheduler.pop now with ⟨- | x, s⟩ <;> rw [hpop] at hclassified
  · rw [Scheduler.pop_none hpop]
    exact ⟨h.ledger, h.numbers, h.held, h.classified⟩
  · refine ⟨?_, h.numbers, h.held.append (.refl _), hclassified⟩
    rw [h.ledger, ← Scheduler.pop_waiting hpop, ← Multiset.coe_add, Multiset.coe_singleton,
      ← Multiset.singleton_add]
    abel

theorem requeue_accounted {r : Run α} (h : Accounted r) {x : Frame α} (hx : x ∈ r.held)
    (now delay : ℕ) : Accounted (r.next (.call (.requeue x now delay))) := by
  refine ⟨?_, h.numbers, h.held.filter _, h.classified.requeue x now delay⟩
  have hperm : (r.popped : Multiset (Frame α)) = x ::ₘ without x r.popped :=
    Multiset.coe_eq_coe.mpr (without_perm h.popped_distinct (h.held.subset hx))
  simp only [Run.next_requeue, Scheduler.requeue_waiting, h.ledger, hperm,
    ← Multiset.singleton_add]
  abel

theorem expire_accounted {r : Run α} (h : Accounted r) (now : ℕ) :
    Accounted (r.next (.call (.expire now))) := by
  refine ⟨?_, h.numbers, h.held, h.classified.expire now⟩
  simp only [Run.next_expire, ← Multiset.coe_add]
  rw [h.ledger, ← r.scheduler.expire_waiting now]
  abel

theorem drain_accounted {r : Run α} (h : Accounted r) : Accounted (r.next (.call .drain)) := by
  refine ⟨?_, h.numbers, h.held, r.scheduler.classified_drain⟩
  simp only [Run.next_drain, ← Multiset.coe_add]
  rw [h.ledger, ← r.scheduler.drain_waiting]
  abel

theorem drainExcept_accounted {r : Run α} (h : Accounted r) (keep : TransmitScheduler.Class) :
    Accounted (r.next (.call (.drainExcept keep))) := by
  refine ⟨?_, h.numbers, h.held, h.classified.drainExcept keep⟩
  simp only [Run.next_drainExcept, ← Multiset.coe_add]
  rw [h.ledger, ← r.scheduler.drainExcept_waiting keep]
  abel

theorem next_accounted {r : Run α} {e : Event α} (h : Accounted r) (he : Enabled r e) :
    Accounted (r.next e) := by
  cases e with
  | settle x => exact ⟨h.ledger, h.numbers, List.filter_sublist.trans h.held, h.classified⟩
  | call op =>
    cases op with
    | push item => exact push_accounted h he
    | pop now => exact pop_accounted h now
    | requeue x now delay => exact requeue_accounted h he now delay
    | expire now => exact expire_accounted h now
    | drain => exact drain_accounted h
    | drainExcept keep => exact drainExcept_accounted h keep
    | _ => exact ⟨h.ledger, h.numbers, h.held, h.classified⟩

theorem accounted_inductive {guard : Run α → Event α → Prop} :
    Inductive (system α) guard Accounted := by
  refine .ofNext ?_ fun r e h _ he => next_accounted h he
  rintro _ ⟨cfg, rfl⟩
  exact start_accounted cfg

/-! ### Room -/

def heldIn (r : Run α) (c : TransmitScheduler.Class) : List (Frame α) := r.held.filter (·.cls = c)

/-- A class holds its depth, and one more for each frame that was in hand at one time. -/
structure Roomy (r : Run α) : Prop where
  most : r.held.length ≤ r.mostHeld
  room : ∀ c, (r.scheduler.queues c).length + (heldIn r c).length ≤
    r.scheduler.cfg.depth c + r.mostHeld

theorem without_shorter {x : Frame α} {l : List (Frame α)} (hx : x ∈ l) :
    (without x l).length + 1 ≤ l.length :=
  List.length_filter_lt_length_iff_exists.mpr ⟨x, hx, by simp⟩

theorem push_roomy {r : Run α} (h : Roomy r) (item : Frame α) :
    Roomy (r.next (.call (.push item))) := by
  rw [Run.next_push]
  unfold Scheduler.push
  split_ifs with hfull
  · exact ⟨h.most, h.room⟩
  · refine ⟨h.most, fun c => ?_⟩
    have hin : (heldIn r c).length ≤ r.mostHeld := (List.length_filter_le _ _).trans h.most
    have hroom := h.room c
    change (Function.update r.scheduler.queues item.cls _ c).length + (heldIn r c).length ≤ _
    by_cases hc : c = item.cls
    · subst hc
      rw [Function.update_self, List.length_append, List.length_singleton]
      simp only
      omega
    · rw [Function.update_of_ne hc]
      exact hroom

theorem pop_roomy {r : Run α} (h : Roomy r) (hclassified : r.scheduler.Classified) (now : ℕ) :
    Roomy (r.next (.call (.pop now))) := by
  rw [Run.next_pop]
  rcases hpop : r.scheduler.pop now with ⟨- | x, s⟩
  · rw [Scheduler.pop_none hpop]
    exact ⟨h.most, h.room⟩
  · obtain ⟨c, i, hi, rfl⟩ := Scheduler.pop_some hpop
    have hmost := h.most
    have hcls : x.cls = c := hclassified c x (List.mem_of_getElem? hi)
    refine ⟨?_, fun d => ?_⟩
    · simp only [List.length_append, List.length_singleton]
      omega
    · have hroom := h.room d
      change (Function.update r.scheduler.queues c _ d).length +
        ((r.held ++ [x]).filter (·.cls = d)).length ≤ _
      simp only [List.filter_append, List.length_append, heldIn] at hroom ⊢
      by_cases hd : d = c
      · subst hd
        have hlt := (List.getElem?_eq_some_iff.mp hi).1
        rw [Function.update_self, List.length_eraseIdx_of_lt hlt,
          List.filter_cons_of_pos (by simpa using hcls), List.filter_nil, List.length_singleton]
        omega
      · rw [Function.update_of_ne hd, List.filter_cons_of_neg (by simpa [hcls] using Ne.symm hd),
          List.filter_nil, List.length_nil]
        omega

theorem requeue_roomy {r : Run α} (h : Roomy r) {x : Frame α} (hx : x ∈ r.held)
    (now delay : ℕ) : Roomy (r.next (.call (.requeue x now delay))) := by
  have hless := without_shorter hx
  have hmost := h.most
  refine ⟨?_, fun c => ?_⟩
  · change (without x r.held).length ≤ r.mostHeld
    omega
  · have hroom := h.room c
    change (Function.update r.scheduler.queues x.cls _ c).length +
      ((without x r.held).filter (·.cls = c)).length ≤ r.scheduler.cfg.depth c + r.mostHeld
    by_cases hc : c = x.cls
    · subst hc
      have hin : x ∈ heldIn r x.cls := List.mem_filter.mpr ⟨hx, by simp⟩
      have hfewer := without_shorter hin
      rw [heldIn, without, List.filter_comm, ← without, ← heldIn] at hfewer
      rw [Function.update_self, List.length_cons]
      omega
    · have hfewer : ((without x r.held).filter (·.cls = c)).length ≤ (heldIn r c).length :=
        (List.filter_sublist.filter _).length_le
      rw [Function.update_of_ne hc]
      omega

/-- Where no queue grows and no frame is taken in hand, the room stays. -/
theorem Roomy.fewer {r t : Run α} (h : Roomy r) (hcfg : t.scheduler.cfg.depth = r.scheduler.cfg.depth)
    (hheld : t.held.Sublist r.held) (hmost : t.mostHeld = r.mostHeld)
    (hqueues : ∀ c, (t.scheduler.queues c).length ≤ (r.scheduler.queues c).length) : Roomy t := by
  refine ⟨hmost ▸ hheld.length_le.trans h.most, fun c => ?_⟩
  have hroom := h.room c
  have hqueue := hqueues c
  have hin : (heldIn t c).length ≤ (heldIn r c).length := (hheld.filter _).length_le
  rw [hcfg, hmost]
  omega

theorem next_roomy {r : Run α} {e : Event α} (h : Roomy r) (hclassified : r.scheduler.Classified)
    (he : Enabled r e) : Roomy (r.next e) := by
  cases e with
  | settle x => exact h.fewer rfl List.filter_sublist rfl fun _ => le_rfl
  | call op =>
    cases op with
    | push item => exact push_roomy h item
    | pop now => exact pop_roomy h hclassified now
    | requeue x now delay => exact requeue_roomy h he now delay
    | expire now =>
      refine h.fewer rfl (.refl _) rfl fun c => ?_
      simp only [Run.next_expire, Scheduler.expire]
      split_ifs
      · exact List.length_filter_le _ _
      · exact le_rfl
    | drain => exact h.fewer rfl (.refl _) rfl fun _ => Nat.zero_le _
    | drainExcept keep =>
      refine h.fewer rfl (.refl _) rfl fun c => ?_
      simp only [Run.next_drainExcept, Scheduler.drainExcept]
      split_ifs
      · exact le_rfl
      · exact Nat.zero_le _
    | _ => exact h.fewer rfl (.refl _) rfl fun _ => le_rfl

theorem roomy_inductive {guard : Run α → Event α → Prop} :
    Inductive (system α) guard fun r => Accounted r ∧ Roomy r := by
  refine .ofNext ?_ fun r e h _ he => ⟨next_accounted h.1 he, next_roomy h.2 h.1.classified he⟩
  rintro _ ⟨cfg, rfl⟩
  exact ⟨start_accounted cfg, le_rfl, fun c => Nat.zero_le _⟩

/-! ### Conservation -/

/-- Chat, private messages and control are dropped when they have been held for too long. -/
def Overdue (s : Scheduler α) (now : ℕ) (x : Queued α) : Prop :=
  x.cls ≠ .ack ∧ x.cls ≠ .id ∧ s.cfg.maxHold < now - x.queuedAt

instance (s : Scheduler α) (now : ℕ) (x : Queued α) : Decidable (Overdue s now x) :=
  inferInstanceAs (Decidable (_ ∧ _ ∧ _))

theorem expires_iff (c : TransmitScheduler.Class) :
    Scheduler.expires c = true ↔ c ≠ .ack ∧ c ≠ .id := by
  cases c <;> simp [Scheduler.expires]

theorem expire_out_iff {s : Scheduler α} (h : s.Classified) {now : ℕ} {x : Queued α} :
    x ∈ (s.expire now).1 ↔ x ∈ s.waiting ∧ Overdue s now x := by
  rw [Scheduler.mem_waiting]
  constructor
  · intro hx
    obtain ⟨hack, hid⟩ := (expires_iff _).mp (h.expire_out hx)
    have hstale := Scheduler.expire_stale hx
    obtain ⟨c, -, hx⟩ := List.mem_flatMap.mp hx
    exact ⟨⟨c, (List.mem_filter.mp hx).1⟩, hack, hid, by simpa [Scheduler.stale] using hstale⟩
  · rintro ⟨⟨c, hx⟩, hack, hid, hstale⟩
    obtain rfl := h c x hx
    refine List.mem_flatMap.mpr ⟨x.cls, ?_, List.mem_filter.mpr ⟨hx, ?_⟩⟩
    · cases hc : x.cls <;> simp_all
    · simpa [Scheduler.stale] using hstale

theorem expire_queue {s : Scheduler α} (h : s.Classified) (now : ℕ) (c : TransmitScheduler.Class) :
    (s.expire now).2.queues c = (s.queues c).filter fun x => ¬ Overdue s now x := by
  simp only [Scheduler.expire]
  split_ifs with hc
  · refine List.filter_congr fun x hx => ?_
    obtain rfl := h c x hx
    obtain ⟨hack, hid⟩ := (expires_iff _).mp hc
    by_cases ho : s.cfg.maxHold < now - x.queuedAt <;>
      simp [Overdue, hack, hid, Scheduler.stale, ho]
  · refine (List.filter_eq_self.mpr fun x hx => ?_).symm
    obtain rfl := h c x hx
    have : ¬ Overdue s now x := fun ho => hc ((expires_iff _).mpr ⟨ho.1, ho.2.1⟩)
    simpa using this

structure Conserved (r : Run α) : Prop where
  ledger : (r.accepted : Multiset (Frame α)) =
    r.scheduler.waiting + r.popped + r.expired + r.drained
  once : (r.scheduler.waiting + r.popped + r.expired + r.drained).Nodup
  refused : ∀ item back, (r.scheduler.push item).1 = .error back →
    back = item ∧ (r.scheduler.push item).2.queues = r.scheduler.queues
  stale : ∀ now x, x ∈ (r.scheduler.expire now).1 ↔
    x ∈ r.scheduler.waiting ∧ Overdue r.scheduler now x
  kept : ∀ now c, (r.scheduler.expire now).2.queues c =
    (r.scheduler.queues c).filter fun x => ¬ Overdue r.scheduler now x
  room : ∀ c, (r.scheduler.queues c).length ≤ r.scheduler.cfg.depth c + r.mostHeld
  airtime : r.scheduler.queuedAirtime = (r.scheduler.waiting.map Queued.cost).sum

/-- Every accepted frame is queued, popped, stale or drained, and it is so once. -/
theorem frames_conserved {r : Run α} (h : Reachable (system α) everyStep r) : Conserved r := by
  obtain ⟨haccounted, hroomy⟩ := roomy_inductive.reachable h
  refine ⟨haccounted.ledger, haccounted.distinct.of_map number, ?_,
    fun now x => expire_out_iff haccounted.classified,
    fun now c => expire_queue haccounted.classified now c,
    fun c => (Nat.le_add_right _ _).trans (hroomy.room c), r.scheduler.queuedAirtime_eq⟩
  intro item back hback
  unfold Scheduler.push at hback ⊢
  split_ifs at hback ⊢
  exact ⟨(Except.error.inj hback).symm, rfl⟩

/-- A frame of so many seconds. -/
def chatFrame (n : ℕ) (account : String) (seconds queuedAt : ℕ) : Frame Unit :=
  ⟨(n, ()), .chat, account, Basics.secs seconds, queuedAt, false⟩

def events : List (Event Unit) :=
  [.call (.push (chatFrame 0 "#rf" 2 0)), .call (.push (chatFrame 1 "#rf" 3 1)), .call (.pop 1),
    .call (.requeue (chatFrame 0 "#rf" 2 0) 1 10), .call (.pop 11),
    .settle (chatFrame 0 "#rf" 2 0), .call (.expire (Basics.secs 121)), .call .drain]

theorem events_conserved : Conserved (events.foldl Run.next (.start .default)) :=
  frames_conserved (Reachable.run (.initial ⟨_, rfl⟩) (by decide +kernel))

end SchedulerRuns
