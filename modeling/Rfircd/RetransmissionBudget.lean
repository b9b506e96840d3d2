import Rfircd.StopAndWait

/-! How many frames a reliable message may cost, whatever a station acknowledges. -/
namespace RetransmissionBudget

open Basics Airc AircSession TransitionSystem FifoLedger RetryAllowance RetryTimers SessionTable
open StopAndWait

def budget (maxRetries : ℕ) (m : List AircFrame) : ℕ :=
  (1 + maxRetries) * m.length * (m.length + 1) / 2

/-- The message in flight pays what it sends out of what is left. -/
def Paying (maxRetries : ℕ) (p : Peer) (l : Ledger AircFrame) : Prop :=
  Within (budget maxRetries) (left maxRetries p) l

variable {maxRetries : ℕ} {flags : UInt8} {p q : Peer} {l : Ledger AircFrame}

theorem left_fresh {m : List AircFrame} (hm : q.pending = some (fresh m)) :
    m.length + left maxRetries q = budget maxRetries m := by
  rw [left, hm, Option.map_some, Option.getD_some, allowance_fresh, rounds_eq]
  rfl

theorem Paying.spend (h : Paying maxRetries p l) (hacc : Accounted p l)
    {es : List (Entry AircFrame)} (hs : Spend maxRetries flags p q es) :
    Paying maxRetries q (l.enter es) := by
  unfold Paying at h ⊢
  unfold Accounted at hacc
  cases hs with
  | stays hk =>
    have hpaid := hk.paid
    exact h.le (by omega)
  | discards hp hq => exact h.discard hacc
  | repeats hp hk hf => exact h.put hk.paid
  | ends fate hp hempty hnone hq =>
    rw [hp, hempty] at hacc
    refine h.settle hacc fate ?_
    intro m _
    rw [left, hnone]
    exact Nat.zero_le _
  | @advances pd m fate hp hnext hm =>
    rw [hp, hnext] at hacc
    have hbudget : m.length + left maxRetries q = budget maxRetries m := left_fresh hm
    have hsettled : Within (budget maxRetries) (budget maxRetries m) (l.enter [.settle fate]) := by
      refine h.settle hacc fate ?_
      intro m' hm'
      have hcurrent := (Balanced.settle hacc fate).left
      change l.accepted.drop (l.fates ++ [fate]).length = m :: q.queue at hcurrent
      rw [List.length_append, List.length_singleton] at hcurrent
      have hhead : (l.accepted.drop (l.fates.length + 1))[0]? = some m := by
        rw [hcurrent]
        rfl
      rw [List.getElem?_drop, Nat.add_zero, hm'] at hhead
      rw [Option.some.inj hhead]
    exact hsettled.put hbudget.le
  | waits hm hp hf hq =>
    have hleft : left maxRetries q = left maxRetries p := by rw [left, hf, left]
    rw [hleft]
    refine h.accept hacc _ ?_
    obtain ⟨pd, hpd⟩ := Option.isSome_iff_exists.mp hp
    rw [hpd]
    exact List.cons_ne_nil _ _
  | @starts m frames hm hp hempty hf hq hout =>
    rw [hp, hempty] at hacc
    have hbudget : m.length + left maxRetries q = budget maxRetries m := left_fresh hf
    have hlength : (frames.map (·.withFlags flags)).length = m.length := by
      rw [List.length_map]
      rcases hout with rfl | ⟨acked, rfl⟩
      · rfl
      · exact List.length_modifyHead
    have hroom : budget maxRetries m ≤ budget maxRetries m := le_rfl
    refine Within.put (h.accept_first hacc hroom) ?_
    rw [hlength]
    exact hbudget.le

theorem Paying.spends (h : Paying maxRetries p l) (hacc : Accounted p l)
    {es : List (Entry AircFrame)} (hs : Spends maxRetries flags p q es) :
    Paying maxRetries q (l.enter es) := by
  induction hs generalizing l with
  | one hs => exact h.spend hacc hs
  | trans hs _ ih ih' =>
    rw [Ledger.enter_append]
    exact ih' (ih h hacc) (hacc.moves hs.moves)

/-- A reliable message of `n` frames costs at most `(1 + maxRetries) n (n + 1) / 2` of them before it
is completed or given up. Every frame that is handed over for the station is one of the accounts, and
stands there for a frame of the message it counts for, or belongs to no reliable message. -/
theorem retransmission_budget (cfg : SessionConfig) (c : Callsign) {r : Run}
    (h : Reachable (system c cfg) (fun _ _ => True) r) :
    (∀ k m, r.ledger.accepted[k]? = some m →
      (r.ledger.puts.countP (·.1 = k)) ≤ (1 + cfg.maxRetries) * m.length * (m.length + 1) / 2) ∧
    (∀ k f, (k, f) ∈ r.ledger.puts →
      ∃ m, r.ledger.accepted[k]? = some m ∧ ∃ g ∈ m, CopyOf g f) ∧
    ∀ e, handed c r.sessions e =
      apart c r.sessions e ++ (entries c r.sessions e).filterMap Entry.frame := by
  have hinv : Inductive (system c cfg) (fun _ _ => True) fun r =>
      r.sessions.config = cfg ∧ Good r.sessions ∧ Accounted (r.sessions.record c) r.ledger ∧
      Paying cfg.maxRetries (r.sessions.record c) r.ledger := by
    refine .ofNext ?_ ?_
    · rintro r rfl
      exact ⟨rfl, good_new cfg, balanced_empty, within_empty⟩
    · rintro r e ⟨rfl, hgood, hacc, hpaying⟩ _ _
      refine ⟨apply_config r.sessions e, apply_good hgood e, accounted_apply hgood hacc, ?_⟩
      have hspends := apply_spends (c := c) hgood 0 e
      rw [flagged_zero] at hspends
      exact hpaying.spends hacc hspends
  obtain ⟨-, -, hacc, hpaying⟩ := hinv.reachable h
  exact ⟨hpaying.each, hacc.content, handed_eq c r.sessions⟩

/-! ### A message that uses all of it -/

def stubborn : SessionConfig := { SessionConfig.default with paclen := headerLen + 1, maxRetries := 1 }

/-- Two frames go out, once more after the timer, then the one that is left, twice again. -/
def unanswered : List Operation :=
  [.enqueue asker .notice [104, 105] true 0, .keyed asker 1 0, .tick (secs 12) true,
    .receive asker (ackWithBitmap 1 [1]) (secs 13) true, .keyed asker 1 (secs 14),
    .tick (secs 26) true, .receive asker (ackWithBitmap 1 [1]) (secs 27) true,
    .tick (secs 60) true]

theorem retransmission_budget_spent :
    let r := unanswered.foldl (Run.next asker) ⟨.new stubborn, .empty⟩
    r.ledger.accepted.map List.length = [2] ∧ r.ledger.fates = [.givenUp] ∧
    r.ledger.puts.countP (·.1 = 0) = (1 + 1) * 2 * (2 + 1) / 2 ∧
    ∀ k m, r.ledger.accepted[k]? = some m →
      (r.ledger.puts.countP (·.1 = k)) ≤ (1 + 1) * m.length * (m.length + 1) / 2 := by
  have hinitial : Reachable (system asker stubborn) (fun _ _ => True) ⟨.new stubborn, .empty⟩ :=
    Reachable.initial rfl
  have hruns : Runs (fun _ _ => True) (fun r e => Enabled r.sessions e) (Run.next asker)
      ⟨.new stubborn, .empty⟩ unanswered := by decide +kernel
  exact ⟨by decide +kernel, by decide +kernel, by decide +kernel,
    (retransmission_budget stubborn asker (hinitial.run hruns)).1⟩

end RetransmissionBudget
