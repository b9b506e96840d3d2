import Rfircd.Basics
import Mathlib.Algebra.BigOperators.Group.Multiset.Basic
import Mathlib.Algebra.Order.Field.Rat
import Mathlib.Algebra.Order.Group.Multiset
import Mathlib.Data.List.MinMax
import Mathlib.Logic.Function.Basic
import Mathlib.Tactic.Abel

/-! The transmit scheduler: five classes, ageing, airtime buckets and half-duplex guards.
Scores and tokens are exact rationals of seconds. -/
namespace TransmitScheduler

open Basics

inductive Class where
  | chat
  | direct
  | control
  | ack
  | id
  deriving DecidableEq, Repr

namespace Class

/-- Highest first. -/
def all : List Class := [.id, .ack, .control, .direct, .chat]

def rank : Class → ℕ
  | chat => 0
  | direct => 1
  | control => 2
  | ack => 3
  | id => 4

def asStr : Class → String
  | chat => "chat"
  | direct => "direct"
  | control => "control"
  | ack => "ack"
  | id => "id"

theorem mem_all (c : Class) : c ∈ all := by cases c <;> simp [all]

end Class

structure Queued (α : Type*) where
  payload : α
  cls : Class
  account : String
  cost : ℕ
  queuedAt : ℕ
  expectsReply : Bool
  deriving DecidableEq

structure SchedulerConfig where
  maxHold : ℕ
  minGap : ℕ
  replyWindow : ℕ
  rxGuard : ℕ
  aging : ℕ
  unfundedPenalty : ℚ
  stationRate : ℚ
  stationBurst : ℕ
  maxDeficit : ℚ
  maxAccounts : ℕ
  depth : Class → ℕ

def SchedulerConfig.default : SchedulerConfig where
  maxHold := secs 120
  minGap := millis 1500
  replyWindow := millis 3500
  rxGuard := millis 600
  aging := secs 20
  unfundedPenalty := 3 / 2
  stationRate := 1 / 50
  stationBurst := secs 12
  maxDeficit := 3
  maxAccounts := 256
  depth
    | .chat => 16
    | .direct => 16
    | .control => 8
    | .ack => 32
    | .id => 2

inductive Poll where
  | ready
  | wait (d : ℕ)
  | idle
  deriving DecidableEq, Repr

structure Bucket where
  tokens : ℚ
  last : ℕ
  deriving DecidableEq

/-- Every queue is oldest first. -/
structure Scheduler (α : Type*) where
  cfg : SchedulerConfig
  queues : Class → List (Queued α)
  buckets : List (String × Bucket)
  paceUntil : Option ℕ
  replyUntil : Option ℕ
  lastHeard : Option ℕ
  refused : ℕ
  expired : ℕ

variable {α : Type*}

/-- `Duration::as_secs_f64`. -/
def seconds (d : ℕ) : ℚ := d / secs 1

namespace Scheduler

def new (cfg : SchedulerConfig) : Scheduler α := ⟨cfg, fun _ => [], [], none, none, none, 0, 0⟩

def push (s : Scheduler α) (item : Queued α) : Except (Queued α) Unit × Scheduler α :=
  if s.cfg.depth item.cls ≤ (s.queues item.cls).length then
    (.error item, { s with refused := s.refused + 1 })
  else
    (.ok (), { s with queues := Function.update s.queues item.cls (s.queues item.cls ++ [item]) })

/-- Acknowledgements and identification are never stale. -/
def expires : Class → Bool
  | .chat | .direct | .control => true
  | .ack | .id => false

def stale (s : Scheduler α) (now : ℕ) (item : Queued α) : Bool :=
  s.cfg.maxHold < now - item.queuedAt

def expire (s : Scheduler α) (now : ℕ) : List (Queued α) × Scheduler α :=
  let out := [Class.chat, .direct, .control].flatMap fun c => (s.queues c).filter (s.stale now)
  (out, { s with
    queues := fun c =>
      if expires c then (s.queues c).filter (fun item => !s.stale now item) else s.queues c
    expired := s.expired + out.length })

def onHeard (s : Scheduler α) (now : ℕ) : Scheduler α :=
  { s with lastHeard := some now, replyUntil := none }

def tokens (s : Scheduler α) (account : String) (now : ℕ) : ℚ :=
  match s.buckets.lookup account with
  | none => seconds s.cfg.stationBurst
  | some b =>
    min (b.tokens + seconds (now - b.last) * s.cfg.stationRate) (seconds s.cfg.stationBurst)

def funded (s : Scheduler α) (account : String) (cost now : ℕ) : Bool :=
  seconds cost ≤ s.tokens account now

/-- Room for one more account: the one idle for longest makes way. -/
def evictOldest (s : Scheduler α) (account : String) : List (String × Bucket) :=
  if (s.buckets.lookup account).isNone ∧ s.cfg.maxAccounts ≤ s.buckets.length then
    match s.buckets.argmin (fun b => b.2.last) with
    | none => s.buckets
    | some oldest => s.buckets.filter (fun b => b.1 ≠ oldest.1)
  else s.buckets

def debit (s : Scheduler α) (account : String) (now cost : ℕ) : Scheduler α :=
  let floor := -seconds s.cfg.stationBurst * max s.cfg.maxDeficit 0
  let entry : Bucket := ⟨max (s.tokens account now - seconds cost) floor, now⟩
  { s with buckets := (account, entry) :: (s.evictOldest account).filter (fun b => b.1 ≠ account) }

def onKeyed (s : Scheduler α) (now : ℕ) (account : String) (keyed : ℕ) (expectsReply : Bool) :
    Scheduler α :=
  let stop := now + keyed
  { s.debit account now keyed with
    paceUntil := some (stop + s.cfg.minGap)
    replyUntil := if expectsReply then some (stop + s.cfg.replyWindow) else none }

def requeue (s : Scheduler α) (item : Queued α) (now delay : ℕ) : Scheduler α :=
  { s with
    paceUntil := some (match s.paceUntil with
      | some t => max t (now + delay)
      | none => now + delay)
    queues := Function.update s.queues item.cls (item :: s.queues item.cls) }

def blockedUntil (s : Scheduler α) : Option ℕ :=
  ([s.paceUntil, s.replyUntil, s.lastHeard.map (· + s.cfg.rxGuard)].filterMap (fun t => t)).max?

def isEmpty (s : Scheduler α) : Bool := Class.all.all fun c => (s.queues c).isEmpty

def poll (s : Scheduler α) (now : ℕ) : Poll :=
  if s.isEmpty then .idle
  else match s.blockedUntil with
    | some t => if now < t then .wait (t - now) else .ready
    | none => .ready

def score (s : Scheduler α) (item : Queued α) (now : ℕ) : ℚ :=
  item.cls.rank + seconds (now - item.queuedAt) / max (seconds s.cfg.aging) (1 / 1000) -
    if s.funded item.account item.cost now then 0 else s.cfg.unfundedPenalty

/-- The first funded frame of a class, or its oldest. -/
def candidate (s : Scheduler α) (c : Class) (now : ℕ) : ℕ :=
  ((s.queues c).findIdx? fun i => s.funded i.account i.cost now).getD 0

/-- A class takes the lead only with a higher score. -/
def contend (s : Scheduler α) (now : ℕ) (best : Option (Class × ℕ × ℚ)) (c : Class) :
    Option (Class × ℕ × ℚ) :=
  match (s.queues c)[s.candidate c now]? with
  | none => best
  | some item =>
    let score := s.score item now
    if best.all fun b => b.2.2 < score then some (c, s.candidate c now, score) else best

def pop (s : Scheduler α) (now : ℕ) : Option (Queued α) × Scheduler α :=
  match Class.all.foldl (s.contend now) none with
  | none => (none, s)
  | some (c, i, _) =>
    ((s.queues c)[i]?, { s with queues := Function.update s.queues c ((s.queues c).eraseIdx i) })

def roomIn (s : Scheduler α) (c : Class) : ℕ := s.cfg.depth c - (s.queues c).length

def queuedAirtimeIn (s : Scheduler α) (c : Class) : ℕ := ((s.queues c).map Queued.cost).sum

def queuedAirtime (s : Scheduler α) : ℕ := (Class.all.map s.queuedAirtimeIn).sum

def len (s : Scheduler α) : ℕ := (Class.all.map fun c => (s.queues c).length).sum

/-- Everything that waits, for a shutdown. -/
def drain (s : Scheduler α) : List (Queued α) × Scheduler α :=
  ([Class.chat, .direct, .control, .ack, .id].flatMap s.queues, { s with queues := fun _ => [] })

def drainExcept (s : Scheduler α) (keep : Class) : List (Queued α) × Scheduler α :=
  ((Class.all.filter (· ≠ keep)).flatMap s.queues,
    { s with queues := fun c => if c = keep then s.queues c else [] })

/-- Accounts idle for so long are forgotten. -/
def expireAccounts (s : Scheduler α) (now idle : ℕ) : Scheduler α :=
  { s with buckets := s.buckets.filter fun b => now - b.2.last < idle }

def setMinGap (s : Scheduler α) (gap : ℕ) : Scheduler α :=
  { s with cfg := { s.cfg with minGap := gap } }

/-! ### What is waiting -/

/-- Everything in the queues, of whatever class. -/
def waiting (s : Scheduler α) : Multiset (Queued α) :=
  (Class.all.map fun c => (s.queues c : Multiset (Queued α))).sum

theorem waiting_eq (s : Scheduler α) :
    s.waiting = (s.queues .id : Multiset (Queued α)) + (s.queues .ack + (s.queues .control +
      (s.queues .direct + s.queues .chat))) := by
  simp only [waiting, Class.all, List.map_cons, List.map_nil, List.sum_cons, List.sum_nil, add_zero]

theorem mem_waiting {s : Scheduler α} {x : Queued α} : x ∈ s.waiting ↔ ∃ c, x ∈ s.queues c := by
  simp only [waiting_eq, Multiset.mem_add, Multiset.mem_coe]
  constructor
  · intro h
    rcases h with h | h | h | h | h <;> exact ⟨_, h⟩
  · rintro ⟨c, h⟩
    cases c <;> simp [h]

theorem isEmpty_iff {s : Scheduler α} : s.isEmpty = true ↔ s.waiting = 0 := by
  rw [isEmpty, List.all_eq_true, Multiset.eq_zero_iff_forall_notMem]
  constructor
  · intro h x hx
    obtain ⟨c, hc⟩ := mem_waiting.mp hx
    have := h c c.mem_all
    rw [List.isEmpty_iff.mp this] at hc
    exact List.not_mem_nil hc
  · intro h c _
    rw [List.isEmpty_iff, List.eq_nil_iff_forall_not_mem]
    intro x hx
    exact h x (mem_waiting.mpr ⟨c, hx⟩)

/-- Replacing one queue changes what is waiting by as much. -/
theorem waiting_update (s : Scheduler α) (c : Class) (q : List (Queued α)) :
    { s with queues := Function.update s.queues c q }.waiting + (s.queues c : Multiset (Queued α)) =
      s.waiting + (q : Multiset (Queued α)) := by
  simp only [waiting_eq]
  cases c <;> simp only [Function.update_apply, reduceCtorEq, if_true, if_false] <;> abel

theorem push_waiting (s : Scheduler α) (item : Queued α) :
    (s.push item).2.waiting =
      if s.cfg.depth item.cls ≤ (s.queues item.cls).length then s.waiting
      else item ::ₘ s.waiting := by
  unfold push
  split_ifs with hfull
  · rfl
  · have h := s.waiting_update item.cls (s.queues item.cls ++ [item])
    rw [← Multiset.coe_add, add_comm (↑(s.queues item.cls) : Multiset (Queued α)), ← add_assoc,
      Multiset.coe_singleton, add_comm s.waiting, Multiset.singleton_add] at h
    exact add_right_cancel h

theorem expire_waiting (s : Scheduler α) (now : ℕ) :
    ((s.expire now).1 : Multiset (Queued α)) + (s.expire now).2.waiting = s.waiting := by
  have part : ∀ c, ((s.queues c).filter (s.stale now) : Multiset (Queued α)) +
      ((s.queues c).filter fun item => !s.stale now item) = s.queues c := by
    intro c
    rw [Multiset.coe_add, Multiset.coe_eq_coe]
    exact List.filter_append_perm _ _
  simp only [expire, waiting_eq, expires, if_true, List.flatMap_cons, List.flatMap_nil,
    List.append_nil, ← Multiset.coe_add, Bool.false_eq_true, if_false]
  rw [← part .chat, ← part .direct, ← part .control]
  abel

theorem requeue_waiting (s : Scheduler α) (item : Queued α) (now delay : ℕ) :
    (s.requeue item now delay).waiting = item ::ₘ s.waiting := by
  have h := s.waiting_update item.cls (item :: s.queues item.cls)
  rw [← Multiset.cons_coe, Multiset.add_cons, ← Multiset.cons_add] at h
  exact add_right_cancel h

theorem drainExcept_waiting (s : Scheduler α) (keep : Class) :
    ((s.drainExcept keep).1 : Multiset (Queued α)) + (s.drainExcept keep).2.waiting =
      s.waiting := by
  cases keep <;> simp only [drainExcept, waiting_eq, Class.all] <;>
    simp [← Multiset.coe_add] <;> abel

theorem drain_waiting (s : Scheduler α) :
    ((s.drain).1 : Multiset (Queued α)) + s.drain.2.waiting = s.waiting := by
  simp only [drain, waiting_eq, List.flatMap_cons, List.flatMap_nil, List.append_nil,
    ← Multiset.coe_add, Multiset.coe_nil]
  abel

theorem queuedAirtime_eq (s : Scheduler α) :
    s.queuedAirtime = (s.waiting.map Queued.cost).sum := by
  rw [waiting_eq]
  simp [queuedAirtime, queuedAirtimeIn, Class.all]

theorem len_eq (s : Scheduler α) : s.len = s.waiting.card := by
  rw [waiting_eq]
  simp [len, Class.all]

@[simp] theorem onHeard_waiting (s : Scheduler α) (now : ℕ) :
    (s.onHeard now).waiting = s.waiting := rfl

@[simp] theorem onKeyed_waiting (s : Scheduler α) (now : ℕ) (account : String) (keyed : ℕ)
    (expectsReply : Bool) : (s.onKeyed now account keyed expectsReply).waiting = s.waiting := rfl

@[simp] theorem setMinGap_waiting (s : Scheduler α) (gap : ℕ) :
    (s.setMinGap gap).waiting = s.waiting := rfl

/-! ### The next frame -/

/-- The candidate of a class, with its score. -/
def Leads (s : Scheduler α) (now : ℕ) (b : Class × ℕ × ℚ) : Prop :=
  b.2.1 = s.candidate b.1 now ∧ ∃ item, (s.queues b.1)[b.2.1]? = some item ∧
    b.2.2 = s.score item now

theorem contend_leads {s : Scheduler α} {now : ℕ} {best : Option (Class × ℕ × ℚ)}
    (h : ∀ b ∈ best, s.Leads now b) (c : Class) :
    (∀ b ∈ s.contend now best c, s.Leads now b) ∧
      (∀ b ∈ best, ∃ b' ∈ s.contend now best c, b.2.2 ≤ b'.2.2) ∧
      ∀ g, (s.queues c)[s.candidate c now]? = some g →
        ∃ b' ∈ s.contend now best c, s.score g now ≤ b'.2.2 := by
  unfold contend
  cases hc : (s.queues c)[s.candidate c now]? with
  | none => exact ⟨h, fun b hb => ⟨b, hb, le_rfl⟩, fun g hg => by cases hg⟩
  | some item =>
    simp only
    split_ifs with hbest
    · refine ⟨?_, fun b hb => ⟨_, rfl, ?_⟩, fun g hg => ⟨_, rfl, ?_⟩⟩
      · rintro b ⟨rfl⟩
        exact ⟨rfl, item, hc, rfl⟩
      · rw [hb] at hbest
        exact le_of_lt (by simpa using hbest)
      · exact Option.some.inj hg ▸ le_rfl
    · refine ⟨h, fun b hb => ⟨b, hb, le_rfl⟩, fun g hg => ?_⟩
      rcases best with - | b
      · exact absurd rfl hbest
      · exact ⟨b, rfl, Option.some.inj hg ▸ by simpa using hbest⟩

theorem leader_leads {s : Scheduler α} {now : ℕ} (classes : List Class)
    {best : Option (Class × ℕ × ℚ)} (h : ∀ b ∈ best, s.Leads now b) :
    (∀ b ∈ classes.foldl (s.contend now) best, s.Leads now b) ∧
      (∀ b ∈ best, ∃ b' ∈ classes.foldl (s.contend now) best, b.2.2 ≤ b'.2.2) ∧
      ∀ c ∈ classes, ∀ g, (s.queues c)[s.candidate c now]? = some g →
        ∃ b' ∈ classes.foldl (s.contend now) best, s.score g now ≤ b'.2.2 := by
  induction classes generalizing best with
  | nil => exact ⟨h, fun b hb => ⟨b, hb, le_rfl⟩, fun c hc => absurd hc List.not_mem_nil⟩
  | cons d classes ih =>
    obtain ⟨hleads, hkeep, hbeat⟩ := contend_leads h d
    obtain ⟨hlast, hgrow, hothers⟩ := ih hleads
    refine ⟨hlast, fun b hb => ?_, fun c hc g hg => ?_⟩
    · obtain ⟨b', hb', hle⟩ := hkeep b hb
      obtain ⟨b'', hb'', hle'⟩ := hgrow b' hb'
      exact ⟨b'', hb'', hle.trans hle'⟩
    · rcases List.mem_cons.mp hc with rfl | hc
      · obtain ⟨b', hb', hle⟩ := hbeat g hg
        obtain ⟨b'', hb'', hle'⟩ := hgrow b' hb'
        exact ⟨b'', hb'', hle.trans hle'⟩
      · exact hothers c hc g hg

theorem leader (s : Scheduler α) (now : ℕ) :
    (∀ b ∈ Class.all.foldl (s.contend now) none, s.Leads now b) ∧
      ∀ c g, (s.queues c)[s.candidate c now]? = some g →
        ∃ b ∈ Class.all.foldl (s.contend now) none, s.score g now ≤ b.2.2 := by
  have hnone : ∀ b ∈ (none : Option (Class × ℕ × ℚ)), s.Leads now b := by
    rintro _ ⟨⟩
  obtain ⟨hleads, -, hbeats⟩ := leader_leads Class.all hnone
  exact ⟨hleads, fun c => hbeats c c.mem_all⟩

/-- The popped frame is the candidate of its class, and no candidate has a higher score. -/
theorem pop_best {s s' : Scheduler α} {now : ℕ} {item : Queued α}
    (h : s.pop now = (some item, s')) :
    ∃ c, (s.queues c)[s.candidate c now]? = some item ∧
      s' = { s with queues :=
        Function.update s.queues c ((s.queues c).eraseIdx (s.candidate c now)) } ∧
      ∀ d g, (s.queues d)[s.candidate d now]? = some g → s.score g now ≤ s.score item now := by
  obtain ⟨hleads, hbeats⟩ := s.leader now
  unfold pop at h
  split at h
  · simp at h
  · rename_i c i q hlead
    rw [hlead] at hleads hbeats
    obtain ⟨hi, g, hg, hscore⟩ := hleads _ rfl
    obtain rfl : i = s.candidate c now := hi
    rw [Prod.mk.injEq] at h
    obtain rfl : g = item := Option.some.inj (hg.symm.trans h.1)
    refine ⟨c, hg, h.2.symm, fun d x hx => ?_⟩
    obtain ⟨_, ⟨rfl⟩, hle⟩ := hbeats d x hx
    exact hle.trans hscore.le

/-- A popped frame leaves its queue, and nothing else moves. -/
theorem pop_some {s s' : Scheduler α} {now : ℕ} {item : Queued α}
    (h : s.pop now = (some item, s')) :
    ∃ c i, (s.queues c)[i]? = some item ∧
      s' = { s with queues := Function.update s.queues c ((s.queues c).eraseIdx i) } := by
  obtain ⟨c, hc, hs', -⟩ := pop_best h
  exact ⟨c, _, hc, hs'⟩

theorem pop_none {s s' : Scheduler α} {now : ℕ} (h : s.pop now = (none, s')) : s' = s := by
  unfold pop at h
  split at h
  · rw [Prod.mk.injEq] at h
    exact h.2.symm
  · rename_i c i q hlead
    obtain ⟨-, g, hg, -⟩ := (s.leader now).1 _ hlead
    rw [Prod.mk.injEq] at h
    simp only at hg
    rw [h.1] at hg
    cases hg

theorem pop_waiting {s s' : Scheduler α} {now : ℕ} {item : Queued α}
    (h : s.pop now = (some item, s')) : item ::ₘ s'.waiting = s.waiting := by
  obtain ⟨c, i, hi, rfl⟩ := pop_some h
  obtain ⟨hlt, hget⟩ := List.getElem?_eq_some_iff.mp hi
  have hperm : (s.queues c : Multiset (Queued α)) = item ::ₘ ↑((s.queues c).eraseIdx i) := by
    rw [Multiset.cons_coe, Multiset.coe_eq_coe, ← hget]
    exact (List.getElem_cons_eraseIdx_perm hlt).symm
  have hsplit := s.waiting_update c ((s.queues c).eraseIdx i)
  rw [hperm, Multiset.add_cons, ← Multiset.cons_add] at hsplit
  exact add_right_cancel hsplit

/-! ### Polling -/

theorem blockedUntil_le_iff (s : Scheduler α) (t : ℕ) :
    (∀ u ∈ s.blockedUntil, u ≤ t) ↔
      (∀ u ∈ s.paceUntil, u ≤ t) ∧ (∀ u ∈ s.replyUntil, u ≤ t) ∧
        ∀ h ∈ s.lastHeard, h + s.cfg.rxGuard ≤ t := by
  simp only [blockedUntil]
  rcases s.paceUntil with - | a <;> rcases s.replyUntil with - | b <;>
    rcases s.lastHeard with - | c <;> simp

theorem poll_ready_iff {s : Scheduler α} {t : ℕ} :
    s.poll t = .ready ↔ s.waiting ≠ 0 ∧ ∀ u ∈ s.blockedUntil, u ≤ t := by
  rw [poll, ne_eq, ← isEmpty_iff]
  split_ifs with he
  · simp [he]
  · rcases s.blockedUntil with - | u
    · simp [he]
    · by_cases hu : t < u
      · simp [he, hu]
      · simpa [he, hu] using not_lt.mp hu

theorem poll_idle_iff {s : Scheduler α} {t : ℕ} : s.poll t = .idle ↔ s.waiting = 0 := by
  rw [poll, ← isEmpty_iff]
  split_ifs with he
  · simp [he]
  · rcases s.blockedUntil with - | u
    · simp [he]
    · by_cases hu : t < u <;> simp [he, hu]

theorem poll_wait {s : Scheduler α} {t d : ℕ} (h : s.poll t = .wait d) :
    s.blockedUntil = some (t + d) := by
  unfold poll at h
  split_ifs at h
  rcases hb : s.blockedUntil with - | u <;> simp only [hb] at h
  · cases h
  · split_ifs at h with hu
    · simp only [Poll.wait.injEq] at h
      exact congrArg some (by omega)

/-! ### Every frame waits in the queue of its class -/

def Classified (s : Scheduler α) : Prop := ∀ c, ∀ x ∈ s.queues c, x.cls = c

theorem classified_new (cfg : SchedulerConfig) : (new cfg : Scheduler α).Classified :=
  fun _ _ h => absurd h List.not_mem_nil

theorem Classified.update {s : Scheduler α} (h : s.Classified) {c : Class} {q : List (Queued α)}
    (hq : ∀ x ∈ q, x.cls = c) :
    { s with queues := Function.update s.queues c q }.Classified := by
  intro d x hx
  by_cases hd : d = c
  · subst hd
    exact hq x (by simpa using hx)
  · exact h d x (by simpa [hd] using hx)

theorem Classified.push {s : Scheduler α} (h : s.Classified) (item : Queued α) :
    (s.push item).2.Classified := by
  unfold Scheduler.push
  split_ifs
  · exact h
  · apply h.update
    intro x hx
    rcases List.mem_append.mp hx with hx | hx
    · exact h _ x hx
    · rw [List.mem_singleton.mp hx]

theorem Classified.expire {s : Scheduler α} (h : s.Classified) (now : ℕ) :
    (s.expire now).2.Classified := by
  intro c x hx
  simp only [Scheduler.expire] at hx
  split_ifs at hx
  · exact h c x (List.mem_filter.mp hx).1
  · exact h c x hx

theorem Classified.requeue {s : Scheduler α} (h : s.Classified) (item : Queued α)
    (now delay : ℕ) : (s.requeue item now delay).Classified := by
  intro c x hx
  refine h.update (c := item.cls) (q := item :: s.queues item.cls) ?_ c x hx
  intro y hy
  rcases List.mem_cons.mp hy with rfl | hy
  · rfl
  · exact h _ y hy

theorem classified_drain (s : Scheduler α) : s.drain.2.Classified :=
  fun _ _ h => absurd h List.not_mem_nil

theorem Classified.drainExcept {s : Scheduler α} (h : s.Classified) (keep : Class) :
    (s.drainExcept keep).2.Classified := by
  intro c x hx
  simp only [Scheduler.drainExcept] at hx
  split_ifs at hx
  · exact h c x hx
  · exact absurd hx List.not_mem_nil

theorem Classified.pop {s : Scheduler α} (h : s.Classified) (now : ℕ) :
    (s.pop now).2.Classified := by
  rcases hp : s.pop now with ⟨- | item, s'⟩
  · rw [pop_none hp]
    exact h
  · obtain ⟨c, i, -, rfl⟩ := pop_some hp
    exact h.update fun x hx => h c x (List.mem_of_mem_eraseIdx hx)

/-- Identification and acknowledgements outlast every hold. -/
theorem Classified.expire_out {s : Scheduler α} (h : s.Classified) {now : ℕ} {x : Queued α}
    (hx : x ∈ (s.expire now).1) : expires x.cls = true := by
  obtain ⟨c, hc, hx⟩ := List.mem_flatMap.mp hx
  rw [h c x (List.mem_filter.mp hx).1]
  simp only [List.mem_cons, List.not_mem_nil, or_false] at hc
  rcases hc with rfl | rfl | rfl <;> rfl

theorem expire_stale {s : Scheduler α} {now : ℕ} {x : Queued α} (hx : x ∈ (s.expire now).1) :
    s.stale now x = true := by
  obtain ⟨c, -, hx⟩ := List.mem_flatMap.mp hx
  exact (List.mem_filter.mp hx).2

theorem Classified.drainExcept_out {s : Scheduler α} (h : s.Classified) {keep : Class}
    {x : Queued α} (hx : x ∈ (s.drainExcept keep).1) : x.cls ≠ keep := by
  obtain ⟨c, hc, hx⟩ := List.mem_flatMap.mp hx
  rw [h c x hx]
  simpa using (List.mem_filter.mp hc).2

end Scheduler

end TransmitScheduler
