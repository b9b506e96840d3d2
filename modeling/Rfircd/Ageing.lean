import Mathlib.Tactic.FieldSimp
import Mathlib.Tactic.Linarith
import Rfircd.AccountBalance

/-! How far one frame may overtake another one.
Waiting raises a frame by a class for each ageing time. A frame that its account cannot pay for
waits for those of its class that are paid for, and is paid for after a bounded time. -/
namespace Ageing

open Basics TransmitScheduler TransitionSystem SchedulerRuns AccountBalance TokenBucket

variable {α : Type*} {s : Scheduler α} {now : ℕ}

/-- The time in which a frame rises by a class. -/
def step (cfg : SchedulerConfig) : ℚ := max (seconds cfg.aging) (1 / 1000)

/-- What overtakes `f` was queued by then. -/
def limit (cfg : SchedulerConfig) (p f : Queued α) : ℚ :=
  seconds f.queuedAt + step cfg * ((p.cls.rank : ℚ) - f.cls.rank + |cfg.unfundedPenalty|)

/-- Nothing of its class goes before it but what was queued before it. -/
def Next (s : Scheduler α) (now : ℕ) (f : Queued α) : Prop :=
  (∃ before after, s.queues f.cls = before ++ f :: after ∧ ∀ g ∈ before, g.queuedAt ≤ f.queuedAt) ∧
    (s.funded f.account f.cost now = true ∨
      ∀ g ∈ s.queues f.cls, s.funded g.account g.cost now = false)

theorem step_pos (cfg : SchedulerConfig) : 0 < step cfg :=
  lt_of_lt_of_le (by norm_num) (le_max_right _ _)

/-! ### Within a class -/

theorem candidate_before {before after : List (Queued α)} {f : Queued α} {c : TransmitScheduler.Class}
    (hqueue : s.queues c = before ++ f :: after)
    (hfunded : s.funded f.account f.cost now = true ∨
      ∀ g ∈ s.queues c, s.funded g.account g.cost now = false) :
    ∃ g ∈ before ++ [f], (s.queues c)[s.candidate c now]? = some g ∧
      s.funded g.account g.cost now = s.funded f.account f.cost now := by
  have hbefore : ∀ i g, i ≤ before.length → (s.queues c)[i]? = some g → g ∈ before ++ [f] := by
    intro i g hi hg
    have hlt : i < (before ++ [f]).length := by
      rw [List.length_append, List.length_singleton]
      omega
    rw [hqueue, List.append_cons, List.getElem?_append_left hlt] at hg
    exact List.mem_of_getElem? hg
  unfold Scheduler.candidate
  cases hidx : (s.queues c).findIdx? fun i => s.funded i.account i.cost now with
  | none =>
    have hnone := List.findIdx?_eq_none_iff.mp hidx
    have hlength : 0 < (s.queues c).length := by
      rw [hqueue]
      simp
    refine ⟨_, hbefore 0 _ (Nat.zero_le _) (List.getElem?_eq_getElem hlength),
      List.getElem?_eq_getElem hlength, ?_⟩
    rw [hnone _ (List.getElem_mem hlength), hnone f (by rw [hqueue]; simp)]
  | some i =>
    obtain ⟨hlt, hpaid, hfirst⟩ := List.findIdx?_eq_some_iff_getElem.mp hidx
    have hf : s.funded f.account f.cost now = true := by
      refine hfunded.resolve_right fun hnone => ?_
      rw [hnone _ (List.getElem_mem hlt)] at hpaid
      cases hpaid
    have hi : i ≤ before.length := by
      by_contra hlate
      refine hfirst before.length (not_le.mp hlate) ?_
      have hget : (s.queues c)[before.length]? = some f := by
        rw [hqueue]
        simp
      rw [(List.getElem?_eq_some_iff.mp hget).2]
      exact hf
    exact ⟨_, hbefore i _ hi (List.getElem?_eq_getElem hlt), List.getElem?_eq_getElem hlt,
      hpaid.trans hf.symm⟩

theorem score_mono {f g : Queued α} (hcls : g.cls = f.cls) (hqueued : g.queuedAt ≤ f.queuedAt)
    (hfunded : s.funded g.account g.cost now = s.funded f.account f.cost now) :
    s.score f now ≤ s.score g now := by
  have hage : seconds (now - f.queuedAt) ≤ seconds (now - g.queuedAt) := seconds_mono (by omega)
  have hstep := (step_pos s.cfg).le
  simp only [Scheduler.score, hcls, hfunded]
  gcongr

/-- What wins over a frame was not queued long after it. -/
theorem queued_before_limit {p f : Queued α} (hscore : s.score f now ≤ s.score p now)
    (hqueued : p.queuedAt ≤ now) : seconds p.queuedAt ≤ limit s.cfg p f := by
  have hstep := step_pos s.cfg
  have hpage : seconds (now - p.queuedAt) = seconds now - seconds p.queuedAt := by
    simp only [seconds, Nat.cast_sub hqueued, sub_div]
  have hfage : seconds now - seconds f.queuedAt ≤ seconds (now - f.queuedAt) := by
    have hle : now ≤ now - f.queuedAt + f.queuedAt := by omega
    have : (now : ℚ) - f.queuedAt ≤ ((now - f.queuedAt : ℕ) : ℚ) := by
      rw [sub_le_iff_le_add]
      exact_mod_cast hle
    simp only [seconds, ← sub_div]
    exact div_le_div_of_nonneg_right this (Nat.cast_nonneg _)
  have hpenalty := abs_nonneg s.cfg.unfundedPenalty
  have habove := le_abs_self s.cfg.unfundedPenalty
  have hbelow := neg_abs_le s.cfg.unfundedPenalty
  have hranks : (seconds p.queuedAt - seconds f.queuedAt) / step s.cfg ≤
      (p.cls.rank : ℚ) - f.cls.rank + |s.cfg.unfundedPenalty| := by
    have hdivided : (seconds now - seconds f.queuedAt) / step s.cfg ≤
        seconds (now - f.queuedAt) / step s.cfg := div_le_div_of_nonneg_right hfage hstep.le
    have hscore' : f.cls.rank + seconds (now - f.queuedAt) / step s.cfg -
          (if s.funded f.account f.cost now then 0 else s.cfg.unfundedPenalty) ≤
        p.cls.rank + (seconds now - seconds p.queuedAt) / step s.cfg -
          (if s.funded p.account p.cost now then 0 else s.cfg.unfundedPenalty) := by
      rw [← hpage]
      exact hscore
    rw [sub_div] at hscore' hdivided ⊢
    split_ifs at hscore' <;> linarith
  rw [div_le_iff₀ hstep] at hranks
  rw [limit]
  linarith

/-! ### In every run -/

/-- No account is in debt beyond the deficit. -/
def Floored (s : Scheduler α) : Prop :=
  ∀ e ∈ s.buckets, (terms s.cfg).floor ≤ e.2.tokens

theorem perform_floored (h : Floored s) (op : Op α) : Floored (perform s op) := by
  rw [Floored, (perform_terms s op).1]
  by_cases hkeyed : ∃ now account keyed expectsReply, op = .onKeyed now account keyed expectsReply
  · obtain ⟨now, account, keyed, expectsReply, rfl⟩ := hkeyed
    intro e he
    rcases List.mem_cons.mp he with rfl | he
    · exact le_max_right _ _
    · exact h e ((evictOldest_sublist s account).subset (List.mem_filter.mp he).1)
  · push Not at hkeyed
    by_cases hforget : ∃ now idle, op = .expireAccounts now idle
    · obtain ⟨now, idle, rfl⟩ := hforget
      exact fun e he => h e (List.mem_filter.mp he).1
    · push Not at hforget
      rw [perform_buckets hkeyed hforget]
      exact h

theorem floored_inductive {guard : Run α → SchedulerRuns.Event α → Prop} :
    Inductive (SchedulerRuns.system α) guard fun r => Accounted r ∧ Floored r.scheduler := by
  refine .ofNext ?_ fun r e h _ he => ⟨next_accounted h.1 he, ?_⟩
  · rintro _ ⟨cfg, rfl⟩
    exact ⟨start_accounted cfg, fun e he => absurd he List.not_mem_nil⟩
  · cases e with
    | call op => exact perform_floored h.2 op
    | settle x => exact h.2

/-- A private message of one second. -/
def direct (n : ℕ) (account : String) (queuedAt : ℕ) : Frame Unit :=
  ⟨(n, ()), .direct, account, secs 1, secs queuedAt, false⟩

def loud : Frame Unit := direct 0 "SM0LOUD" 0

def quiet : Frame Unit := direct 1 "SM0QUIET" 99

/-- One account is a second in debt, the other one has spent nothing. -/
def fresh : Run Unit :=
  [.call (.onKeyed 0 "SM0LOUD" (secs 13) false), .call (.push loud), .call (.push quiet)].foldl
    Run.next (.start .default)

/-- The governor defers the frame that overtook the other one. -/
def deferred : Run Unit :=
  [.call (.pop (secs 99)), .call (.requeue quiet (secs 99) (secs 1))].foldl Run.next fresh

theorem fresh_reachable :
    Reachable (SchedulerRuns.system Unit) SchedulerRuns.everyStep fresh :=
  Reachable.run (.initial ⟨_, rfl⟩) (by decide +kernel)

end Ageing
