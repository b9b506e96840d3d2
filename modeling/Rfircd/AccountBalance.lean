import Mathlib.Data.Finset.Card
import Rfircd.SchedulerRuns
import Rfircd.TokenBucket

/-! The airtime accounts of the scheduler against the history of each account alone.
The table is bounded, and an account that is not in it counts as full. -/
namespace AccountBalance

open Basics TransmitScheduler TransitionSystem SchedulerRuns TokenBucket

variable {α : Type*}

def terms (cfg : SchedulerConfig) : Terms ℚ :=
  ⟨cfg.stationRate, seconds cfg.stationBurst, -seconds cfg.stationBurst * max cfg.maxDeficit 0⟩

theorem seconds_mono {d e : ℕ} (h : d ≤ e) : seconds d ≤ seconds e :=
  div_le_div_of_nonneg_right (Nat.cast_le.mpr h) (Nat.cast_nonneg _)

theorem tokens_eq (s : Scheduler α) (account : String) (now : ℕ) :
    s.tokens account now = match s.buckets.lookup account with
      | none => (terms s.cfg).burst
      | some b => (terms s.cfg).refill b.tokens (seconds (now - b.last)) := rfl

structure Charge where
  account : String
  time : ℕ
  cost : ℕ
  deriving DecidableEq

/-- The scheduler with all it ever charged, the last one first. -/
structure Books (α : Type*) where
  scheduler : Scheduler α
  clock : ℕ
  charges : List Charge

def Books.next (b : Books α) (op : Op α) : Books α where
  scheduler := perform b.scheduler op
  clock := op.time.getD b.clock
  charges := match op with
    | .onKeyed now account keyed _ => ⟨account, now, keyed⟩ :: b.charges
    | _ => b.charges

/-- The clock does not go back. -/
def Enabled (b : Books α) (op : Op α) : Prop := ∀ t ∈ op.time, b.clock ≤ t

instance (b : Books α) (op : Op α) : Decidable (Enabled b op) :=
  inferInstanceAs (Decidable (∀ t ∈ op.time, b.clock ≤ t))

def system (α : Type*) : System (Books α) (Op α) :=
  .ofNext (fun b => ∃ cfg, b = ⟨.new cfg, 0, []⟩) Enabled Books.next

def everyStep (_ : Books α) (_ : Op α) : Prop := True

def expenses (charges : List Charge) (account : String) : List (ℕ × ℚ) :=
  (charges.filter (·.account = account)).map fun c => (c.time, seconds c.cost)

/-- What the account's own expenses leave it. -/
def ownBalance (b : Books α) (account : String) (now : ℕ) : ℚ :=
  (terms b.scheduler.cfg).balance seconds (expenses b.charges account) now

/-- The other accounts charged at that time or later. -/
def rivals (charges : List Charge) (account : String) (since : ℕ) : Finset String :=
  ((charges.filter fun c => c.account ≠ account ∧ since ≤ c.time).map Charge.account).toFinset

def lastCharge (charges : List Charge) (account : String) : Option ℕ :=
  (charges.find? (·.account = account)).map Charge.time

/-- Fewer others than the table holds are charged from the last charge of the account on, and an
account is forgotten when its deepest debt would be paid back. -/
def Spared (account : String) (b : Books α) : Op α → Prop
  | .onKeyed _ other _ _ => other ≠ account → ∀ since ∈ lastCharge b.charges account,
      (insert other (rivals b.charges account since)).card < b.scheduler.cfg.maxAccounts
  | .expireAccounts _ idle => (terms b.scheduler.cfg).Restores (seconds idle)
  | _ => True

instance (account : String) (b : Books α) (op : Op α) : Decidable (Spared account b op) := by
  cases op <;> simp only [Spared] <;> infer_instance

/-! ### The table -/

theorem evictOldest_cases (s : Scheduler α) (account : String) :
    s.evictOldest account = s.buckets ∧
        (s.buckets.lookup account = none → s.buckets.length < s.cfg.maxAccounts ∨ s.buckets = []) ∨
      ∃ oldest ∈ s.buckets, s.buckets.lookup account = none ∧
        s.cfg.maxAccounts ≤ s.buckets.length ∧
        (∀ e ∈ s.buckets, oldest.2.last ≤ e.2.last) ∧
        s.evictOldest account = s.buckets.filter (·.1 ≠ oldest.1) := by
  unfold Scheduler.evictOldest
  split_ifs with hfull
  · obtain ⟨hnone, hlength⟩ := hfull
    cases hmin : s.buckets.argmin fun b => b.2.last with
    | none => exact .inl ⟨rfl, fun _ => .inr (List.argmin_eq_none.mp hmin)⟩
    | some oldest =>
      obtain ⟨hmem, hleast, -⟩ := List.argmin_eq_some_iff.mp hmin
      exact .inr ⟨oldest, hmem, Option.isNone_iff_eq_none.mp hnone, hlength, hleast, rfl⟩
  · refine .inl ⟨rfl, fun hnone => .inl ?_⟩
    rw [hnone, Option.isNone_none, not_and, not_le] at hfull
    exact hfull rfl

theorem length_filter_ne {l : List (String × Bucket)} {e : String × Bucket} (he : e ∈ l) :
    (l.filter (·.1 ≠ e.1)).length + 1 ≤ l.length :=
  List.length_filter_lt_length_iff_exists.mpr ⟨e, he, by simp⟩

theorem mem_of_lookup {l : List (String × Bucket)} {account : String} {b : Bucket}
    (h : l.lookup account = some b) : (account, b) ∈ l := by
  obtain ⟨l₁, l₂, heq, -⟩ := List.lookup_eq_some_iff.mp h
  rw [heq]
  simp

/-- A charge never makes the table larger than it may be. -/
theorem debit_bounded {s : Scheduler α}
    (h : s.buckets.length ≤ max 1 s.cfg.maxAccounts) (account : String) (now cost : ℕ) :
    (s.debit account now cost).buckets.length ≤ max 1 s.cfg.maxAccounts := by
  simp only [Scheduler.debit, List.length_cons]
  rcases evictOldest_cases s account with ⟨hsame, hroom⟩ | ⟨oldest, hmem, -, -, -, hevict⟩
  · rw [hsame]
    have hle : (s.buckets.filter (·.1 ≠ account)).length ≤ s.buckets.length :=
      List.length_filter_le _ _
    cases hlookup : s.buckets.lookup account with
    | none =>
      rcases hroom hlookup with hlt | hnil
      · omega
      · simp [hnil]
    | some b =>
      have := length_filter_ne (mem_of_lookup hlookup)
      simp only at this
      omega
  · rw [hevict]
    have hfewer := length_filter_ne hmem
    have hle : ((s.buckets.filter (·.1 ≠ oldest.1)).filter (·.1 ≠ account)).length ≤
        (s.buckets.filter (·.1 ≠ oldest.1)).length := List.length_filter_le _ _
    omega

theorem lookup_filter {l : List (String × Bucket)} (h : (l.map Prod.fst).Nodup)
    (q : String × Bucket → Bool) (account : String) :
    (l.filter q).lookup account = (l.lookup account).filter fun b => q (account, b) := by
  induction l with
  | nil => rfl
  | cons e l ih =>
    obtain ⟨key, b⟩ := e
    obtain ⟨hkey, hl⟩ := List.nodup_cons.mp h
    by_cases heq : account = key
    · subst heq
      have hnone : l.lookup account = none := by
        refine List.lookup_eq_none_iff.mpr fun e he => ?_
        have : account ≠ e.1 := fun heq => hkey (List.mem_map.mpr ⟨e, he, heq.symm⟩)
        simpa using this
      rw [List.lookup_cons_self, Option.filter_some]
      by_cases hq : q (account, b) = true
      · rw [List.filter_cons_of_pos hq, List.lookup_cons_self, if_pos hq]
      · rw [List.filter_cons_of_neg hq, ih hl, hnone, if_neg hq]
        rfl
    · have hskip : ((key, b) :: l).lookup account = l.lookup account := by
        rw [List.lookup_cons, beq_false_of_ne heq]
      rw [hskip, ← ih hl]
      by_cases hq : q (key, b) = true
      · rw [List.filter_cons_of_pos hq, List.lookup_cons, beq_false_of_ne heq]
      · rw [List.filter_cons_of_neg hq]

/-- What no call but these two touches. -/
theorem perform_buckets {s : Scheduler α} {op : Op α}
    (hkeyed : ∀ now account keyed expectsReply, op ≠ .onKeyed now account keyed expectsReply)
    (hforget : ∀ now idle, op ≠ .expireAccounts now idle) :
    (perform s op).buckets = s.buckets := by
  cases op with
  | push item =>
    simp only [perform, Scheduler.push]
    split_ifs <;> rfl
  | pop now =>
    simp only [perform]
    rcases hpop : s.pop now with ⟨- | x, t⟩
    · rw [Scheduler.pop_none hpop]
    · obtain ⟨c, i, -, rfl⟩ := Scheduler.pop_some hpop
      rfl
  | onKeyed now account keyed expectsReply => exact absurd rfl (hkeyed _ _ _ _)
  | expireAccounts now idle => exact absurd rfl (hforget _ _)
  | _ => rfl

/-- The terms of the accounts are never changed. -/
theorem perform_terms (s : Scheduler α) (op : Op α) :
    terms (perform s op).cfg = terms s.cfg ∧
      (perform s op).cfg.maxAccounts = s.cfg.maxAccounts := by
  cases op with
  | push item =>
    simp only [perform, Scheduler.push]
    split_ifs <;> exact ⟨rfl, rfl⟩
  | pop now =>
    simp only [perform]
    rcases hpop : s.pop now with ⟨- | x, t⟩
    · rw [Scheduler.pop_none hpop]
      exact ⟨rfl, rfl⟩
    · obtain ⟨c, i, -, rfl⟩ := Scheduler.pop_some hpop
      exact ⟨rfl, rfl⟩
  | _ => exact ⟨rfl, rfl⟩

/-! ### One account among others -/

variable {account : String} {b : Books α}

/-- Every entry of the table dates from a charge. -/
structure Dated (b : Books α) : Prop where
  nodup : (b.scheduler.buckets.map Prod.fst).Nodup
  charged : ∀ e ∈ b.scheduler.buckets, ∃ c ∈ b.charges, c.account = e.1 ∧ c.time = e.2.last

/-- The entry is what the expenses of the account make it, and without one they leave it full. -/
def Told (account : String) (b : Books α) : Prop :=
  (∃ e cost past, b.scheduler.buckets.lookup account = some e ∧
      expenses b.charges account = (e.last, cost) :: past ∧
      e.tokens = (terms b.scheduler.cfg).spend
        ((terms b.scheduler.cfg).balance seconds past e.last) cost) ∨
    b.scheduler.buckets.lookup account = none ∧
      ∀ now, b.clock ≤ now → ownBalance b account now = (terms b.scheduler.cfg).burst

theorem Told.tokens (h : Told account b) {now : ℕ} (hnow : b.clock ≤ now) :
    b.scheduler.tokens account now = ownBalance b account now := by
  rw [tokens_eq]
  rcases h with ⟨e, cost, past, hlookup, hexpenses, htokens⟩ | ⟨hlookup, hfull⟩
  · rw [hlookup, ownBalance, hexpenses, Terms.balance, ← htokens]
  · rw [hlookup, hfull now hnow]

theorem lastCharge_eq {charges : List Charge} {t : ℕ} {cost : ℚ} {past : List (ℕ × ℚ)}
    (h : expenses charges account = (t, cost) :: past) : lastCharge charges account = some t := by
  obtain ⟨c, l, hfilter, hc, -⟩ := List.map_eq_cons_iff.mp h
  have hhead : charges.find? (·.account = account) = some c := by
    rw [← List.head?_filter, hfilter]
    rfl
  rw [lastCharge, hhead]
  exact congrArg some (Prod.mk.inj hc).1

/-- The account makes way for another one only when the table is full of rivals. -/
theorem evict_spares (h : Dated b) {e : Bucket} {cost : ℚ} {past : List (ℕ × ℚ)} {other : String}
    (hlookup : b.scheduler.buckets.lookup account = some e)
    (hexpenses : expenses b.charges account = (e.last, cost) :: past)
    (hfew : ∀ since ∈ lastCharge b.charges account,
      (insert other (rivals b.charges account since)).card < b.scheduler.cfg.maxAccounts) :
    (b.scheduler.evictOldest other).lookup account = some e := by
  rcases evictOldest_cases b.scheduler other with
    ⟨hsame, -⟩ | ⟨oldest, hmem, hnone, hfull, hleast, hevict⟩
  · rw [hsame, hlookup]
  · rw [hevict, lookup_filter h.nodup, hlookup, Option.filter_some, if_pos]
    rw [decide_eq_true_eq]
    intro heq
    have hmine : (account, e) ∈ b.scheduler.buckets := mem_of_lookup hlookup
    have holdest : oldest.2 = e := by
      obtain ⟨key, e'⟩ := oldest
      obtain rfl : account = key := heq
      exact congrArg Prod.snd (List.inj_on_of_nodup_map h.nodup hmem hmine rfl)
    have hrivals : ((b.scheduler.buckets.map Prod.fst).toFinset.erase account) ⊆
        rivals b.charges account e.last := by
      intro key hkey
      obtain ⟨hkey, hin⟩ := Finset.mem_erase.mp hkey
      obtain ⟨entry, hentry, rfl⟩ := List.mem_map.mp (List.mem_toFinset.mp hin)
      obtain ⟨c, hc, haccount, htime⟩ := h.charged entry hentry
      have hlate : e.last ≤ c.time := by
        rw [htime, ← holdest]
        exact hleast entry hentry
      refine List.mem_toFinset.mpr (List.mem_map.mpr ⟨c, List.mem_filter.mpr ⟨hc, ?_⟩, haccount⟩)
      simpa [haccount] using ⟨hkey, hlate⟩
    have hnew : other ∉ (b.scheduler.buckets.map Prod.fst).toFinset.erase account := by
      intro hin
      obtain ⟨entry, hentry, hkey⟩ :=
        List.mem_map.mp (List.mem_toFinset.mp (Finset.mem_of_mem_erase hin))
      have := List.lookup_eq_none_iff.mp hnone entry hentry
      simp [hkey] at this
    have hcount : b.scheduler.buckets.length ≤
        (insert other (rivals b.charges account e.last)).card := by
      have haccount : account ∈ (b.scheduler.buckets.map Prod.fst).toFinset :=
        List.mem_toFinset.mpr (List.mem_map.mpr ⟨_, hmine, rfl⟩)
      calc b.scheduler.buckets.length
          = (b.scheduler.buckets.map Prod.fst).toFinset.card := by
            rw [List.toFinset_card_of_nodup h.nodup, List.length_map]
        _ = (insert other ((b.scheduler.buckets.map Prod.fst).toFinset.erase account)).card := by
            rw [Finset.card_insert_of_notMem hnew, Finset.card_erase_add_one haccount]
        _ ≤ _ := Finset.card_le_card (Finset.insert_subset_insert other hrivals)
    have := hfew e.last (lastCharge_eq hexpenses)
    omega

theorem evictOldest_sublist (s : Scheduler α) (account : String) :
    (s.evictOldest account).Sublist s.buckets := by
  rcases evictOldest_cases s account with ⟨hsame, -⟩ | ⟨oldest, -, -, -, -, hevict⟩
  · rw [hsame]
  · rw [hevict]
    exact List.filter_sublist

theorem next_dated {op : Op α} (h : Dated b) : Dated (b.next op) := by
  have hother : ∀ {l : List (String × Bucket)}, l.Sublist b.scheduler.buckets →
      (l.map Prod.fst).Nodup ∧ ∀ e ∈ l, ∃ c ∈ b.charges, c.account = e.1 ∧ c.time = e.2.last :=
    fun hl => ⟨h.nodup.sublist (hl.map _), fun e he => h.charged e (hl.subset he)⟩
  by_cases hkeyed : ∃ now account keyed expectsReply, op = .onKeyed now account keyed expectsReply
  · obtain ⟨now, other, keyed, expectsReply, rfl⟩ := hkeyed
    obtain ⟨hnodup, hcharged⟩ := hother
      ((List.filter_sublist (p := (·.1 ≠ other))).trans (evictOldest_sublist b.scheduler other))
    refine ⟨List.nodup_cons.mpr ⟨?_, hnodup⟩, ?_⟩
    · intro hin
      obtain ⟨e, he, heq⟩ := List.mem_map.mp hin
      simpa [heq] using (List.mem_filter.mp he).2
    · intro e he
      rcases List.mem_cons.mp he with rfl | he
      · exact ⟨_, List.mem_cons_self, rfl, rfl⟩
      · obtain ⟨c, hc, hboth⟩ := hcharged e he
        exact ⟨c, List.mem_cons_of_mem _ hc, hboth⟩
  · push Not at hkeyed
    have hcharges : (b.next op).charges = b.charges := by
      cases op with
      | onKeyed now account keyed expectsReply => exact absurd rfl (hkeyed _ _ _ _)
      | _ => rfl
    have hsub : (perform b.scheduler op).buckets.Sublist b.scheduler.buckets := by
      by_cases hforget : ∃ now idle, op = .expireAccounts now idle
      · obtain ⟨now, idle, rfl⟩ := hforget
        exact List.filter_sublist
      · push Not at hforget
        rw [perform_buckets hkeyed hforget]
    obtain ⟨hnodup, hcharged⟩ := hother hsub
    refine ⟨hnodup, ?_⟩
    rw [hcharges]
    exact hcharged

/-- A charge of the account itself. -/
theorem charge_told (h : Told account b) {now keyed : ℕ} {expectsReply : Bool}
    (hnow : b.clock ≤ now) : Told account (b.next (.onKeyed now account keyed expectsReply)) := by
  refine .inl ⟨⟨_, now⟩, seconds keyed, expenses b.charges account, List.lookup_cons_self, ?_, ?_⟩
  · simp only [Books.next, expenses]
    rw [List.filter_cons_of_pos (by simp)]
    rfl
  · exact congrArg (fun x => (terms b.scheduler.cfg).spend x (seconds keyed)) (h.tokens hnow)

/-- A charge of another one. -/
theorem foreign_told (hd : Dated b) (h : Told account b) {now keyed : ℕ} {other : String}
    {expectsReply : Bool} (hnow : b.clock ≤ now) (hne : other ≠ account)
    (hfew : ∀ since ∈ lastCharge b.charges account,
      (insert other (rivals b.charges account since)).card < b.scheduler.cfg.maxAccounts) :
    Told account (b.next (.onKeyed now other keyed expectsReply)) := by
  have hexpenses : expenses (b.next (.onKeyed now other keyed expectsReply)).charges account =
      expenses b.charges account := by
    simp only [Books.next, expenses]
    rw [List.filter_cons_of_neg (by simpa using hne)]
  have hlookup : (perform b.scheduler (.onKeyed now other keyed expectsReply)).buckets.lookup account =
      (b.scheduler.evictOldest other).lookup account := by
    have hnodup : ((b.scheduler.evictOldest other).map Prod.fst).Nodup :=
      hd.nodup.sublist ((evictOldest_sublist _ _).map _)
    simp only [perform, Scheduler.onKeyed, Scheduler.debit]
    rw [List.lookup_cons, beq_false_of_ne (Ne.symm hne)]
    simp only
    rw [lookup_filter hnodup]
    cases (b.scheduler.evictOldest other).lookup account <;> simp [Ne.symm hne]
  rcases h with ⟨e, cost, past, hin, hpast, htokens⟩ | ⟨hout, hfull⟩
  · refine .inl ⟨e, cost, past, ?_, hexpenses.trans hpast, htokens⟩
    exact hlookup.trans (evict_spares hd hin hpast hfew)
  · refine .inr ⟨hlookup.trans ?_, fun later hlater => ?_⟩
    · refine List.lookup_eq_none_iff.mpr fun e he => ?_
      exact List.lookup_eq_none_iff.mp hout e ((evictOldest_sublist _ _).subset he)
    · rw [ownBalance, hexpenses]
      exact hfull later (hnow.trans hlater)

/-- Accounts are forgotten when they are full again. -/
theorem forget_told (hd : Dated b) (h : Told account b) {now idle : ℕ} (hnow : b.clock ≤ now)
    (hidle : (terms b.scheduler.cfg).Restores (seconds idle)) :
    Told account (b.next (.expireAccounts now idle)) := by
  have hlookup : (perform b.scheduler (.expireAccounts now idle)).buckets.lookup account =
      (b.scheduler.buckets.lookup account).filter fun e => now - e.last < idle :=
    lookup_filter hd.nodup _ account
  rcases h with ⟨e, cost, past, hin, hpast, htokens⟩ | ⟨hout, hfull⟩
  · rw [hin, Option.filter_some] at hlookup
    by_cases hkept : now - e.last < idle
    · exact .inl ⟨e, cost, past, by rw [if_pos (by simpa using hkept)] at hlookup; exact hlookup,
        hpast, htokens⟩
    · refine .inr ⟨by rw [if_neg (by simpa using hkept)] at hlookup; exact hlookup,
        fun later hlater => ?_⟩
      have hlate : now ≤ later := hlater
      have hlong : seconds idle ≤ seconds (later - e.last) := seconds_mono (by omega)
      change (terms b.scheduler.cfg).balance seconds (expenses b.charges account) later = _
      rw [hpast]
      exact (hidle.later hlong).refill Terms.floor_le_spend
  · refine .inr ⟨by rw [hout] at hlookup; exact hlookup, fun later hlater => ?_⟩
    exact hfull later (hnow.trans hlater)

theorem next_told {op : Op α} (hd : Dated b) (h : Told account b) (hg : Spared account b op)
    (he : Enabled b op) : Told account (b.next op) := by
  by_cases hkeyed : ∃ now account keyed expectsReply, op = .onKeyed now account keyed expectsReply
  · obtain ⟨now, other, keyed, expectsReply, rfl⟩ := hkeyed
    by_cases hne : other = account
    · subst hne
      exact charge_told h (he now rfl)
    · exact foreign_told hd h (he now rfl) hne (hg hne)
  · push Not at hkeyed
    by_cases hforget : ∃ now idle, op = .expireAccounts now idle
    · obtain ⟨now, idle, rfl⟩ := hforget
      exact forget_told hd h (he now rfl) hg
    · push Not at hforget
      have hbuckets := perform_buckets hkeyed hforget (s := b.scheduler)
      obtain ⟨hterms, -⟩ := perform_terms b.scheduler op
      have hcharges : (b.next op).charges = b.charges := by
        cases op with
        | onKeyed now account keyed expectsReply => exact absurd rfl (hkeyed _ _ _ _)
        | _ => rfl
      have hclock : b.clock ≤ (b.next op).clock := by
        change b.clock ≤ op.time.getD b.clock
        cases htime : op.time with
        | none => exact le_rfl
        | some t => exact he t htime
      rcases h with ⟨e, cost, past, hin, hpast, htokens⟩ | ⟨hout, hfull⟩
      · refine .inl ⟨e, cost, past, ?_, by rw [hcharges, hpast], ?_⟩
        · exact (congrArg _ hbuckets).trans hin
        · exact htokens.trans (by rw [← hterms]; rfl)
      · refine .inr ⟨(congrArg _ hbuckets).trans hout, fun later hlater => ?_⟩
        have hsame : ownBalance (b.next op) account later = ownBalance b account later := by
          rw [ownBalance, hcharges]
          exact congrArg (fun t : Terms ℚ => t.balance seconds _ later) hterms
        rw [hsame, hfull later (hclock.trans hlater), ← hterms]
        rfl

/-! ### Runs -/

theorem told_inductive (account : String) :
    Inductive (system α) (Spared account) fun b => Dated b ∧ Told account b := by
  refine .ofNext ?_ fun b op h hg he => ⟨next_dated h.1, next_told h.1 h.2 hg he⟩
  rintro _ ⟨cfg, rfl⟩
  exact ⟨⟨List.nodup_nil, fun e he => absurd he List.not_mem_nil⟩, .inr ⟨rfl, fun _ _ => rfl⟩⟩

def Bounded (b : Books α) : Prop :=
  b.scheduler.buckets.length ≤ max 1 b.scheduler.cfg.maxAccounts

theorem next_bounded {op : Op α} (h : Bounded b) : Bounded (b.next op) := by
  have hmax : (b.next op).scheduler.cfg.maxAccounts = b.scheduler.cfg.maxAccounts :=
    (perform_terms b.scheduler op).2
  rw [Bounded, hmax]
  by_cases hkeyed : ∃ now account keyed expectsReply, op = .onKeyed now account keyed expectsReply
  · obtain ⟨now, account, keyed, expectsReply, rfl⟩ := hkeyed
    exact debit_bounded h account now keyed
  · push Not at hkeyed
    by_cases hforget : ∃ now idle, op = .expireAccounts now idle
    · obtain ⟨now, idle, rfl⟩ := hforget
      exact (List.length_filter_le _ _).trans h
    · push Not at hforget
      exact (congrArg List.length (perform_buckets hkeyed hforget)).le.trans h

theorem bounded_inductive {guard : Books α → Op α → Prop} :
    Inductive (system α) guard Bounded := by
  refine .ofNext ?_ fun b op h _ _ => next_bounded h
  rintro _ ⟨cfg, rfl⟩
  exact Nat.zero_le _

/-- The table is bounded, and an account that it keeps has what its own expenses leave it. -/
theorem accounts_apart :
    (∀ b : Books α, Reachable (system α) everyStep b →
      b.scheduler.buckets.length ≤ max 1 b.scheduler.cfg.maxAccounts) ∧
    ∀ (account : String) (b : Books α), Reachable (system α) (Spared account) b →
      ∀ now, b.clock ≤ now → b.scheduler.tokens account now = ownBalance b account now :=
  ⟨fun _ h => bounded_inductive.reachable h,
    fun account _ h _ hnow => ((told_inductive account).reachable h).2.tokens hnow⟩

/-- The table of one account has no room for the debt of another one. -/
def crowded : SchedulerConfig := { SchedulerConfig.default with maxAccounts := 1 }

def loud (account : String) (now : ℕ) : Op Unit := .onKeyed now account (secs 20) false

theorem debt_forgotten :
    let b := [loud "SM0ABC-7" 0, loud "SM0XYZ-9" 1].foldl Books.next ⟨.new crowded, 0, []⟩
    Reachable (system Unit) everyStep b ∧
      b.scheduler.tokens "SM0ABC-7" 1 = 12 ∧ ownBalance b "SM0ABC-7" 1 < -7 := by
  refine ⟨Reachable.run (.initial ⟨_, rfl⟩) ⟨trivial, ?_, trivial, ?_, trivial⟩, ?_⟩
  · decide +kernel
  · decide +kernel
  · decide +kernel

theorem debt_kept :
    let b := [loud "SM0ABC-7" 0, loud "SM0XYZ-9" 1].foldl Books.next ⟨.new .default, 0, []⟩
    b.scheduler.buckets.length ≤ 256 ∧
      b.scheduler.tokens "SM0ABC-7" (secs 60) = ownBalance b "SM0ABC-7" (secs 60) := by
  refine ⟨accounts_apart.1 _ (Reachable.run (.initial ⟨_, rfl⟩) ⟨trivial, ?_, trivial, ?_, trivial⟩),
    accounts_apart.2 "SM0ABC-7" _ (Reachable.run (.initial ⟨_, rfl⟩) ?_) _ ?_⟩
  · decide +kernel
  · decide +kernel
  · decide +kernel
  · decide +kernel

end AccountBalance
