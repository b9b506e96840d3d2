import Mathlib.Algebra.Order.Ring.Defs
import Mathlib.Data.Nat.Notation
import Mathlib.Tactic.GCongr
import Mathlib.Tactic.Linarith
import Rfircd.TransitionSystem

/-! A bucket of tokens: it fills at a steady rate up to its brim, and is spent from down to a
floor. The balance is a function of the expenses alone, and bounds what any run can spend. -/
namespace TokenBucket

variable {K : Type*} [Ring K] [LinearOrder K]

structure Terms (K : Type*) where
  rate : K
  burst : K
  floor : K

namespace Terms

/-- So many tokens, after a time in which nothing is spent. -/
def refill (b : Terms K) (tokens elapsed : K) : K := min (tokens + elapsed * b.rate) b.burst

/-- An expense is never refused; it puts the account into debt, down to the floor. -/
def spend (b : Terms K) (tokens cost : K) : K := max (tokens - cost) b.floor

/-- What a history of expenses leaves, the last one first. -/
def balance (b : Terms K) (secs : ℕ → K) : List (ℕ × K) → ℕ → K
  | [], _ => b.burst
  | (t, cost) :: past, now => b.refill (b.spend (b.balance secs past t) cost) (secs (now - t))

/-- After so long, the deepest debt is paid back. -/
def Restores (b : Terms K) (elapsed : K) : Prop := 0 ≤ b.rate ∧ b.burst ≤ b.floor + elapsed * b.rate

instance [DecidableLE K] (b : Terms K) (elapsed : K) : Decidable (b.Restores elapsed) :=
  inferInstanceAs (Decidable (_ ∧ _))

variable {b : Terms K} {tokens elapsed elapsed' cost : K}

theorem floor_le_spend : b.floor ≤ b.spend tokens cost := le_max_right _ _

theorem refill_full (h : b.burst ≤ tokens + elapsed * b.rate) : b.refill tokens elapsed = b.burst :=
  min_eq_right h

variable [IsStrictOrderedRing K]

/-- An expense that fits into the bucket is affordable again, however deep the debt. -/
theorem affords (htokens : b.floor ≤ tokens) (hcost : cost ≤ b.burst)
    (h : cost ≤ b.floor + elapsed * b.rate) : cost ≤ b.refill tokens elapsed :=
  le_min (h.trans (by gcongr)) hcost

theorem Restores.later (h : b.Restores elapsed) (hle : elapsed ≤ elapsed') : b.Restores elapsed' :=
  ⟨h.1, h.2.trans (by have := h.1; gcongr)⟩

theorem Restores.refill (h : b.Restores elapsed) (htokens : b.floor ≤ tokens) :
    b.refill tokens elapsed = b.burst :=
  refill_full (h.2.trans (by gcongr))

end Terms

/-! ### Along a run -/

section Runs

open TransitionSystem

variable {K : Type*} [CommRing K] [LinearOrder K] [IsStrictOrderedRing K]
variable {σ ε : Type*} {next : σ → ε → σ} {guard Enabled : σ → ε → Prop} {I : σ → Prop}

/-- What a run spends. -/
def spent (next : σ → ε → σ) (cost : σ → ε → K) : σ → List ε → K
  | _, [] => 0
  | s, e :: es => cost s e + spent next cost (next s e) es

/-- Between the floor and the brim, and raised by the time that passes at no more than the rate. -/
structure Gauge (b : Terms K) (secs : ℕ → K) (level : σ → ℕ → K) (I : σ → Prop) : Prop where
  brim : ∀ s t, I s → level s t ≤ b.burst
  floor : ∀ s t, I s → b.floor ≤ level s t
  flow : ∀ s t d, I s → level s (t + d) ≤ level s t + secs d * b.rate

/-- Every event takes its cost out of the level of its time. -/
def Pays (next : σ → ε → σ) (guard Enabled : σ → ε → Prop) (level : σ → ℕ → K) (time : ε → ℕ)
    (cost : σ → ε → K) (I : σ → Prop) : Prop :=
  ∀ s e, I s → guard s e → Enabled s e →
    I (next s e) ∧ cost s e + level (next s e) (time e) ≤ level s (time e)

variable {b : Terms K} {secs : ℕ → K} {level : σ → ℕ → K} {time : ε → ℕ} {cost : σ → ε → K}

/-- What is spent was there at the start, or came in since. -/
theorem Gauge.spent_le_level (h : Gauge b secs level I)
    (hsecs : ∀ m n, secs (m + n) = secs m + secs n) (hpays : Pays next guard Enabled level time cost I)
    {es : List ε} {s : σ} {start stop : ℕ} (hle : start ≤ stop) (hs : I s)
    (hrun : Runs guard Enabled next s es) (hordered : es.Pairwise fun e f => time e ≤ time f)
    (hwithin : ∀ e ∈ es, start ≤ time e ∧ time e ≤ stop) :
    spent next cost s es + b.floor ≤ level s start + secs (stop - start) * b.rate := by
  induction es generalizing s start with
  | nil =>
    have hflow := h.flow s start (stop - start) hs
    have hfloor := h.floor s (start + (stop - start)) hs
    rw [spent, zero_add]
    exact hfloor.trans hflow
  | cons e es ih =>
    obtain ⟨hguard, henabled, hrest⟩ := hrun
    obtain ⟨hafter, hlater⟩ := List.pairwise_cons.mp hordered
    obtain ⟨hstart, hstop⟩ := hwithin e List.mem_cons_self
    obtain ⟨hnext, hcost⟩ := hpays s e hs hguard henabled
    have hih := ih hstop hnext hrest hlater fun f hf =>
      ⟨hafter f hf, (hwithin f (List.mem_cons_of_mem _ hf)).2⟩
    have hflow := h.flow s start (time e - start) hs
    rw [Nat.add_sub_cancel' hstart] at hflow
    have hsplit : secs (stop - start) = secs (time e - start) + secs (stop - time e) := by
      rw [← hsecs]
      congr 1
      omega
    rw [spent, hsplit, add_mul]
    linarith

/-- Whatever happens in a period: what is spent is the burst at most, and what comes in. -/
theorem Gauge.spent_le (h : Gauge b secs level I) (hsecs : ∀ m n, secs (m + n) = secs m + secs n)
    (hpays : Pays next guard Enabled level time cost I) {es : List ε} {s : σ} {start stop : ℕ}
    (hle : start ≤ stop) (hs : I s) (hrun : Runs guard Enabled next s es)
    (hordered : es.Pairwise fun e f => time e ≤ time f)
    (hwithin : ∀ e ∈ es, start ≤ time e ∧ time e ≤ stop) :
    spent next cost s es + b.floor ≤ b.burst + secs (stop - start) * b.rate := by
  have hbrim := h.brim s start hs
  have hlevel := h.spent_le_level hsecs hpays hle hs hrun hordered hwithin
  linarith

end Runs

end TokenBucket
