import Rfircd.FirstContacts

/-! What a rate limit lets through for one key, whoever else is limited by it. -/
namespace RateLimits

open Basics KeyedTable AirPolicy TransitionSystem TokenBucket FirstContacts

inductive Call where
  | check (key : Text)
  | expire (idle : ℕ)
  deriving DecidableEq

def Call.key : Call → Option Text
  | check key => some key
  | expire _ => none

/-- A call and its time. -/
abbrev Timed := ℕ × Call

def called (r : RateLimiter) (e : Timed) : RateLimiter :=
  match e.2 with
  | .check key => (r.check key e.1).2
  | .expire idle => r.expire e.1 idle

/-- What a key is told, and when. -/
def answers (key : Text) : RateLimiter → List Timed → List (ℕ × Bool)
  | _, [] => []
  | r, e :: es =>
    (if e.2 = .check key then [(e.1, (r.check key e.1).1)] else []) ++ answers key (called r e) es

/-- The calls of one key. -/
def own (key : Text) (es : List Timed) : List Timed := es.filter fun e => e.2 = .check key

/-- No check is earlier than a call before it. -/
def Ordered (es : List Timed) : Prop := es.Pairwise fun e f => f.2.key.isSome → e.1 ≤ f.1

instance (es : List Timed) : Decidable (Ordered es) := inferInstanceAs (Decidable (es.Pairwise _))

/-- The keys are known, and nothing is forgotten before it is full again. -/
structure Allowed (keys : Finset Text) (b : Terms ℚ) (e : Timed) : Prop where
  known : ∀ key, e.2.key = some key → key ∈ keys
  patient : ∀ idle, e.2 = .expire idle → b.Restores (inSeconds idle)

/-- The limiter has these terms, and buckets for these keys only. -/
structure Sound (keys : Finset Text) (b : Terms ℚ) (r : RateLimiter) : Prop where
  terms : terms r = b
  solvent : Solvent r
  known : ∀ key bucket, r.buckets.get key = some bucket → key ∈ keys

variable {keys : Finset Text} {b : Terms ℚ} {r r' : RateLimiter} {key other : Text} {e : Timed}
  {es : List Timed} {t now later : ℕ}

/-! ### One call -/

/-- What is left of a key's tokens by a check. -/
def remaining (r : RateLimiter) (key : Text) (now : ℕ) : ℚ :=
  if 1 ≤ r.available key now then r.available key now - 1 else r.available key now

theorem size_le (h : Sound keys b r) : r.buckets.size ≤ keys.card := by
  have hsize : r.buckets.keys.toFinset.card = r.buckets.size :=
    (List.toFinset_card_of_nodup r.buckets.nodup).trans (List.length_map _)
  rw [← hsize]
  refine Finset.card_le_card fun k hk => ?_
  obtain ⟨bucket, hbucket⟩ := Option.isSome_iff_exists.mp
    (Table.mem_keys_iff.mp (List.mem_toFinset.mp hk))
  exact h.known k bucket hbucket

/-- While there is room, nobody else's bucket is touched. -/
theorem check_get (h : Sound keys b r) (hfew : keys.card < maxBuckets) (key other : Text) (now : ℕ) :
    (r.check key now).2.buckets.get other =
      if other = key then some ⟨remaining r key now, now⟩ else r.buckets.get other := by
  have hroom : r.makeRoom key = r.buckets := by
    refine if_neg ?_
    rintro ⟨-, hfull⟩
    have := size_le h
    omega
  simp only [RateLimiter.check, hroom, Table.get_set, remaining, decide_eq_true_eq]

theorem called_sound (h : Sound keys b r) (hfew : keys.card < maxBuckets) (he : Allowed keys b e) :
    Sound keys b (called r e) := by
  obtain ⟨now, call⟩ := e
  cases call with
  | check key =>
    refine ⟨h.terms, check_solvent h.solvent key now, fun k bucket hk => ?_⟩
    have hget := check_get h hfew key k now
    rw [show called r (now, .check key) = (r.check key now).2 from rfl, hget] at hk
    split_ifs at hk with hkey
    · rw [hkey]
      exact he.known key rfl
    · exact h.known k bucket hk
  | expire idle =>
    exact ⟨h.terms, expire_solvent h.solvent now idle, fun k bucket hk => h.known k bucket (expire_get hk)⟩

theorem available_of_get (hterms : terms r = terms r')
    (h : r.buckets.get key = r'.buckets.get key) (now : ℕ) :
    r.available key now = r'.available key now := by
  cases hget : r'.buckets.get key with
  | none =>
    rw [hget] at h
    rw [available_none hget, available_none h]
    exact congrArg Terms.burst hterms
  | some bucket =>
    rw [hget] at h
    rw [available_some hget, available_some h, hterms]

/-- The key that asks has what is left, and what comes in. -/
theorem called_own (h : Sound keys b r) (hfew : keys.card < maxBuckets) (key : Text) (now later : ℕ) :
    (called r (now, .check key)).available key later =
      b.refill (remaining r key now) (inSeconds (later - now)) := by
  have hget : (called r (now, .check key)).buckets.get key = some ⟨remaining r key now, now⟩ := by
    refine (check_get h hfew key key now).trans ?_
    exact if_pos rfl
  have hterms : terms (called r (now, .check key)) = b := h.terms
  rw [available_some hget, hterms]

/-- Another key has what it had. -/
theorem called_other (h : Sound keys b r) (hfew : keys.card < maxBuckets) (he : Allowed keys b e)
    (hother : e.2 ≠ .check key) (hlater : e.1 ≤ later) :
    (called r e).available key later = r.available key later := by
  obtain ⟨now, call⟩ := e
  cases call with
  | check asker =>
    have hterms : terms (called r (now, .check asker)) = terms r := rfl
    refine available_of_get hterms ?_ later
    refine (check_get h hfew asker key now).trans (if_neg ?_)
    rintro rfl
    exact hother rfl
  | expire idle =>
    have hrestores := he.patient idle rfl
    rw [← h.terms] at hrestores
    exact expire_available h.solvent hrestores hlater

/-! ### The calls of other keys -/

theorem Ordered.head (h : Ordered (e :: es)) : ∀ f ∈ es, f.2.key.isSome → e.1 ≤ f.1 :=
  fun f hf => (List.pairwise_cons.mp h).1 f hf

theorem Ordered.tail (h : Ordered (e :: es)) : Ordered es := (List.pairwise_cons.mp h).2

theorem max_le_of_late (hordered : Ordered (e :: es))
    (hlate : ∀ f ∈ e :: es, f.2.key.isSome → t ≤ f.1) :
    ∀ f ∈ es, f.2.key.isSome → max t e.1 ≤ f.1 := by
  intro f hf hcheck
  exact max_le (hlate f (List.mem_cons_of_mem e hf) hcheck) (hordered.head f hf hcheck)

/-- Two limiters that have the same for a key give it the same answers, one of them asked by nobody else. -/
theorem answers_alike (hfew : keys.card < maxBuckets) (h : Sound keys b r) (h' : Sound keys b r')
    (hsame : ∀ later, t ≤ later → r.available key later = r'.available key later)
    (hallowed : ∀ e ∈ es, Allowed keys b e) (hordered : Ordered es)
    (hlate : ∀ e ∈ es, e.2.key.isSome → t ≤ e.1) :
    answers key r es = answers key r' (own key es) := by
  induction es generalizing r r' t with
  | nil => rfl
  | cons e es ih =>
    obtain ⟨hfirst, hrest⟩ := List.forall_mem_cons.mp hallowed
    have hsound := called_sound h hfew hfirst
    by_cases hown : e.2 = .check key
    · obtain ⟨now, call⟩ := e
      obtain rfl : call = .check key := hown
      have hnow : t ≤ now := hlate _ List.mem_cons_self rfl
      have hequal := hsame now hnow
      have hok : (r.check key now).1 = (r'.check key now).1 := by
        unfold RateLimiter.check
        rw [hequal]
      have hleft : remaining r key now = remaining r' key now := by
        unfold remaining
        rw [hequal]
      have htail := ih hsound (called_sound h' hfew hfirst) (t := now) (fun later _ => by
          rw [called_own h hfew, called_own h' hfew, hleft]) hrest hordered.tail hordered.head
      rw [own, List.filter_cons_of_pos (by simp), answers, answers, hok, htail]
      rfl
    · have htail := ih hsound h' (t := max t e.1) (fun later hlater => by
          rw [called_other h hfew hfirst hown ((le_max_right _ _).trans hlater)]
          exact hsame later ((le_max_left _ _).trans hlater)) hrest hordered.tail
          (max_le_of_late hordered hlate)
      rw [own, List.filter_cons_of_neg (by simpa using hown), answers, if_neg hown, List.nil_append]
      exact htail

/-! ### A period -/

theorem gauge (hfloor : b.floor = 0) :
    Gauge b inSeconds (fun r t => RateLimiter.available r key t) (Sound keys b) where
  brim := by
    rintro r t h
    rw [← h.terms]
    exact available_le_burst r key t
  floor := by
    rintro r t h
    rw [hfloor]
    exact available_nonneg h.solvent key t
  flow := by
    rintro r t d h
    rw [← h.terms]
    exact available_flow r key t d

/-- What a check of the key takes. -/
def price (key : Text) (r : RateLimiter) (e : Timed) : ℚ := if (r.check key e.1).1 then 1 else 0

def Asks (keys : Finset Text) (b : Terms ℚ) (key : Text) (e : Timed) : Prop :=
  e.2 = .check key ∧ Allowed keys b e

theorem pays (hfew : keys.card < maxBuckets) :
    Pays called (fun _ _ => True) (fun _ e => Asks keys b key e)
      (fun r t => RateLimiter.available r key t) Prod.fst (price key) (Sound keys b) := by
  rintro r ⟨now, call⟩ h - ⟨hown, hallowed⟩
  obtain rfl : call = .check key := hown
  exact ⟨called_sound h hfew hallowed, (check_available r key now).le⟩

theorem runs_of_asks (h : ∀ e ∈ es, Asks keys b key e) :
    Runs (fun _ _ => True) (fun _ e => Asks keys b key e) called r es := by
  induction es generalizing r with
  | nil => trivial
  | cons e es ih =>
    obtain ⟨hfirst, hrest⟩ := List.forall_mem_cons.mp h
    exact ⟨trivial, hfirst, ih hrest⟩

/-- What is approved is what is paid for. -/
theorem spent_answers (h : ∀ e ∈ es, Asks keys b key e) :
    spent called (price key) r es = (((answers key r es).filter Prod.snd).length : ℚ) := by
  induction es generalizing r with
  | nil => rfl
  | cons e es ih =>
    obtain ⟨⟨hown, -⟩, hrest⟩ := List.forall_mem_cons.mp h
    rw [spent, ih hrest, answers, if_pos hown, List.singleton_append, price]
    cases (r.check key e.1).1 with
    | false =>
      rw [List.filter_cons_of_neg Bool.false_ne_true, if_neg Bool.false_ne_true, zero_add]
    | true =>
      rw [List.filter_cons_of_pos rfl, if_pos rfl, List.length_cons, Nat.cast_add, Nat.cast_one,
        add_comm]

/-- The approvals of a period, its ends included. -/
def approvals (key : Text) (r : RateLimiter) (es : List Timed) (start stop : ℕ) : ℕ :=
  ((answers key r es).filter fun a => a.2 && decide (start ≤ a.1 ∧ a.1 ≤ stop)).length

theorem mem_answers {a : ℕ × Bool} (h : a ∈ answers key r es) : ∃ e ∈ es, e.2 = .check key ∧ e.1 = a.1 := by
  induction es generalizing r with
  | nil => cases h
  | cons e es ih =>
    rw [answers] at h
    rcases List.mem_append.mp h with h | h
    · split_ifs at h with hown
      · obtain rfl := List.mem_singleton.mp h
        exact ⟨e, List.mem_cons_self, hown, rfl⟩
      · cases h
    · obtain ⟨f, hf, hown, htime⟩ := ih h
      exact ⟨f, List.mem_cons_of_mem e hf, hown, htime⟩

/-- The checks of a period that has begun are those up to its end. -/
theorem approvals_begun {start stop : ℕ} (hes : ∀ e ∈ es, e.2 = .check key)
    (hordered : es.Pairwise fun e f => e.1 ≤ f.1) (hbegun : ∀ e ∈ es, start ≤ e.1) :
    approvals key r es start stop =
      ((answers key r (es.takeWhile fun e => e.1 ≤ stop)).filter Prod.snd).length := by
  induction es generalizing r with
  | nil => rfl
  | cons e es ih =>
    obtain ⟨hlater, htail⟩ := List.pairwise_cons.mp hordered
    obtain ⟨hown, hrest⟩ := List.forall_mem_cons.mp hes
    obtain ⟨hfirst, hbegun'⟩ := List.forall_mem_cons.mp hbegun
    by_cases hstop : e.1 ≤ stop
    · have hih := ih (r := called r e) hrest htail hbegun'
      unfold approvals at hih ⊢
      rw [List.takeWhile_cons_of_pos (by simpa using hstop), answers, answers, if_pos hown,
        List.singleton_append, List.singleton_append, List.filter_cons, List.filter_cons]
      cases (r.check key e.1).1 with
      | false => simpa using hih
      | true => simpa [hfirst, hstop] using hih
    · have hnone : (answers key r (e :: es)).filter
          (fun a => a.2 && decide (start ≤ a.1 ∧ a.1 ≤ stop)) = [] := by
        refine List.filter_eq_nil_iff.mpr fun a ha => ?_
        obtain ⟨f, hf, -, htime⟩ := mem_answers ha
        have hpast : stop < f.1 := by
          rcases List.mem_cons.mp hf with rfl | hf
          · omega
          · have := hlater f hf
            omega
        simp only [Bool.and_eq_true, decide_eq_true_eq]
        omega
      rw [approvals, hnone, List.takeWhile_cons_of_neg (by simpa using hstop)]
      rfl

/-- Of one key's own checks, a period approves the burst at most, and what comes in. -/
theorem approvals_own (hfew : keys.card < maxBuckets) (h : Sound keys b r) (hfloor : b.floor = 0)
    (hes : ∀ e ∈ es, Asks keys b key e) (hordered : es.Pairwise fun e f => e.1 ≤ f.1)
    {start stop : ℕ} (hle : start ≤ stop) :
    (approvals key r es start stop : ℚ) ≤ b.burst + inSeconds (stop - start) * b.rate := by
  induction es generalizing r with
  | nil =>
    have hburst : 0 ≤ b.burst := by
      rw [← h.terms]
      exact Nat.cast_nonneg r.burst
    have hrate : 0 ≤ b.rate := by
      rw [← h.terms]
      exact rate_nonneg r
    have hcame := mul_nonneg (inSeconds_nonneg (stop - start)) hrate
    have hnone : (approvals key r [] start stop : ℚ) = 0 := Nat.cast_zero
    linarith
  | cons e es ih =>
    obtain ⟨hfirst, hrest⟩ := List.forall_mem_cons.mp hes
    obtain ⟨hlater, htail⟩ := List.pairwise_cons.mp hordered
    by_cases hbefore : e.1 < start
    · have hskip : approvals key r (e :: es) start stop = approvals key (called r e) es start stop := by
        unfold approvals
        rw [answers, if_pos hfirst.1, List.singleton_append, List.filter_cons_of_neg]
        simp only [Bool.and_eq_true, decide_eq_true_eq]
        omega
      rw [hskip]
      exact ih (called_sound h hfew hfirst.2) hrest htail
    · have hbegun : ∀ f ∈ e :: es, start ≤ f.1 := by
        refine List.forall_mem_cons.mpr ⟨by omega, fun f hf => ?_⟩
        have := hlater f hf
        omega
      have hsub := List.takeWhile_sublist (l := e :: es) fun e => decide (e.1 ≤ stop)
      have hmid : ∀ f ∈ (e :: es).takeWhile (fun e => e.1 ≤ stop), Asks keys b key f :=
        fun f hf => hes f (hsub.subset hf)
      have hgauge : Gauge b inSeconds (fun r t => RateLimiter.available r key t) (Sound keys b) :=
        gauge hfloor
      have hbound := hgauge.spent_le inSeconds_add (pays hfew) hle h
        (runs_of_asks hmid) (hordered.sublist hsub) fun f hf =>
          ⟨hbegun f (hsub.subset hf), of_decide_eq_true (List.all_eq_true.mp List.all_takeWhile f hf)⟩
      rw [spent_answers hmid, hfloor, add_zero] at hbound
      rw [approvals_begun (fun f hf => (hes f hf).1) hordered hbegun]
      exact hbound

/-! ### A key that has waited -/

/-- A key that nobody asked for long enough has its burst. -/
theorem rested_available (hfew : keys.card < maxBuckets) (h : Sound keys b r)
    (hrested : ∀ bucket, r.buckets.get key = some bucket →
      b.Restores (inSeconds (t - bucket.last)))
    (hallowed : ∀ e ∈ es, Allowed keys b e)
    (hidle : ∀ e ∈ es, e.2 = .check key → b.Restores (inSeconds (t - e.1))) (hlater : t ≤ later) :
    (es.foldl called r).available key later = b.burst := by
  induction es generalizing r with
  | nil =>
    have hburst : (r.burst : ℚ) = b.burst := by
      rw [← h.terms]
      rfl
    cases hget : r.buckets.get key with
    | none => exact (available_none hget).trans hburst
    | some bucket =>
      have hrestores := (hrested bucket hget).later
        (inSeconds_mono (Nat.sub_le_sub_right hlater bucket.last))
      refine (available_some hget).trans ?_
      rw [h.terms]
      refine hrestores.refill ?_
      rw [← h.terms]
      exact h.solvent key bucket hget
  | cons e es ih =>
    obtain ⟨hfirst, hrest⟩ := List.forall_mem_cons.mp hallowed
    obtain ⟨hwaited, htail⟩ := List.forall_mem_cons.mp hidle
    refine ih (called_sound h hfew hfirst) (fun bucket hbucket => ?_) hrest htail
    obtain ⟨now, call⟩ := e
    cases call with
    | check asker =>
      have hget := check_get h hfew asker key now
      rw [show called r (now, .check asker) = (r.check asker now).2 from rfl, hget] at hbucket
      split_ifs at hbucket with hkey
      · obtain rfl := Option.some.inj hbucket
        exact hwaited (by rw [hkey])
      · exact hrested bucket hbucket
    | expire idle => exact hrested bucket (expire_get hbucket)

/-- Whoever has so many tokens is answered yes so many times. -/
theorem answers_full (hfew : keys.card < maxBuckets) (h : Sound keys b r) {n : ℕ}
    (hhas : ∀ later, t ≤ later → (n : ℚ) ≤ r.available key later)
    (hallowed : ∀ e ∈ es, Allowed keys b e) (hordered : Ordered es)
    (hlate : ∀ e ∈ es, e.2.key.isSome → t ≤ e.1) : ∀ a ∈ (answers key r es).take n, a.2 = true := by
  induction es generalizing r n t with
  | nil =>
    rw [answers, List.take_nil]
    exact fun a ha => absurd ha List.not_mem_nil
  | cons e es ih =>
    obtain ⟨hfirst, hrest⟩ := List.forall_mem_cons.mp hallowed
    have hsound := called_sound h hfew hfirst
    by_cases hown : e.2 = .check key
    · obtain ⟨now, call⟩ := e
      obtain rfl : call = .check key := hown
      have hnow := hhas now (hlate _ List.mem_cons_self rfl)
      cases n with
      | zero =>
        rw [List.take_zero]
        exact fun a ha => absurd ha List.not_mem_nil
      | succ n =>
        rw [Nat.cast_succ] at hnow
        have hone : 1 ≤ r.available key now := by
          have : (0 : ℚ) ≤ n := Nat.cast_nonneg n
          linarith
        have hbrim : r.available key now ≤ b.burst := by
          rw [← h.terms]
          exact available_le_burst r key now
        have hleft : remaining r key now = r.available key now - 1 := if_pos hone
        have hkept : ∀ later, now ≤ later →
            (n : ℚ) ≤ (called r (now, .check key)).available key later := by
          intro later _
          have hrate : 0 ≤ b.rate := by
            rw [← h.terms]
            exact rate_nonneg r
          have hcame := mul_nonneg (inSeconds_nonneg (later - now)) hrate
          rw [called_own h hfew, Terms.refill, hleft]
          exact le_min (by linarith) (by linarith)
        have hrest' := ih hsound hkept hrest hordered.tail hordered.head
        rw [answers, if_pos rfl, List.singleton_append, List.take_succ_cons]
        exact List.forall_mem_cons.mpr ⟨decide_eq_true hone, hrest'⟩
    · rw [answers, if_neg hown, List.nil_append]
      refine ih hsound (t := max t e.1) (fun later hlater => ?_) hrest hordered.tail
        (max_le_of_late hordered hlate)
      rw [called_other h hfew hfirst hown ((le_max_right _ _).trans hlater)]
      exact hhas later ((le_max_left _ _).trans hlater)

/-! ### A limiter in use -/

/-- The keys that a limiter is asked about. -/
def keysOf (es : List Timed) : Finset Text := (es.filterMap fun e => e.2.key).toFinset

/-- Calls in the order of their times, for fewer keys than there is room for, and nothing is forgotten
early. -/
structure Usage (r : RateLimiter) (es : List Timed) : Prop where
  ordered : Ordered es
  few : (keysOf es).card < maxBuckets
  patient : ∀ e ∈ es, ∀ idle, e.2 = .expire idle → (FirstContacts.terms r).Restores (inSeconds idle)

theorem Usage.allowed (h : Usage r es) : ∀ e ∈ es, Allowed (keysOf es) (terms r) e := by
  intro e he
  refine ⟨fun key hkey => ?_, h.patient e he⟩
  exact List.mem_toFinset.mpr (List.mem_filterMap.mpr ⟨e, he, hkey⟩)

theorem sound_new (perMinute burst : ℕ) (keys : Finset Text) :
    Sound keys (terms (RateLimiter.new perMinute burst)) (RateLimiter.new perMinute burst) :=
  ⟨rfl, fun _ _ h => (by cases h), fun _ _ h => (by cases h)⟩

theorem run_sound (hfew : keys.card < maxBuckets) (h : Sound keys b r)
    (hallowed : ∀ e ∈ es, Allowed keys b e) : Sound keys b (es.foldl called r) := by
  induction es generalizing r with
  | nil => exact h
  | cons e es ih =>
    obtain ⟨hfirst, hrest⟩ := List.forall_mem_cons.mp hallowed
    exact ih (called_sound h hfew hfirst) hrest

/-- A rate limit is a bucket for each key: a period lets through the burst at most and what comes in, a
key that has waited long enough has its burst again, and other keys make no difference. -/
theorem rate_limited {perMinute burst : ℕ} (h : Usage (RateLimiter.new perMinute burst) es) (key : Text) :
    (∀ start stop, start ≤ stop →
      (approvals key (RateLimiter.new perMinute burst) es start stop : ℚ) ≤
        (max burst 1 : ℕ) + inSeconds (stop - start) * (perMinute / 60)) ∧
    (∀ before behind t, es = before ++ behind →
      (∀ e ∈ before, e.2 = .check key →
        (max burst 1 : ℕ) ≤ inSeconds (t - e.1) * (perMinute / 60 : ℚ)) →
      (∀ e ∈ behind, e.2.key.isSome → t ≤ e.1) →
      ∀ a ∈ (answers key (before.foldl called (RateLimiter.new perMinute burst)) behind).take
        (max burst 1), a.2 = true) ∧
    answers key (RateLimiter.new perMinute burst) es =
      answers key (RateLimiter.new perMinute burst) (own key es) := by
  have hsound := sound_new perMinute burst (keysOf es)
  have hapart : answers key (RateLimiter.new perMinute burst) es =
      answers key (RateLimiter.new perMinute burst) (own key es) :=
    answers_alike h.few hsound hsound (t := 0) (fun _ _ => rfl) h.allowed h.ordered
      fun e _ _ => Nat.zero_le e.1
  refine ⟨fun start stop hle => ?_, ?_, hapart⟩
  · have hown : ∀ e ∈ own key es, Asks (keysOf es) (terms (RateLimiter.new perMinute burst)) key e := by
      intro e he
      obtain ⟨hmem, hkey⟩ := List.mem_filter.mp he
      exact ⟨of_decide_eq_true hkey, h.allowed e hmem⟩
    have hordered : (own key es).Pairwise fun e f => e.1 ≤ f.1 := by
      refine (List.Pairwise.sublist List.filter_sublist h.ordered).imp_of_mem fun he hf hle => hle ?_
      rw [(hown _ hf).1]
      rfl
    have hbound := approvals_own h.few hsound rfl hown hordered hle
    unfold approvals at hbound ⊢
    rw [hapart]
    exact hbound
  · rintro before behind t rfl hidle hlate
    have hallowed := List.forall_mem_append.mp h.allowed
    have hrate := rate_nonneg (RateLimiter.new perMinute burst)
    refine answers_full h.few (run_sound h.few hsound hallowed.1) (t := t) (fun later hlater => ?_)
      hallowed.2 (List.pairwise_append.mp h.ordered).2.1 hlate
    refine (rested_available h.few hsound (fun bucket hbucket => by cases hbucket) hallowed.1
      (fun e he hkey => ⟨hrate, ?_⟩) hlater).ge
    have hlong := hidle e he hkey
    have hfloor : (terms (RateLimiter.new perMinute burst)).floor = 0 := rfl
    rw [hfloor, zero_add]
    exact hlong

/-- The calls of a key, those of another, and a bucket that is forgotten. -/
def crowd : List Timed := [(0, .check "a"), (0, .check "b"), (0, .check "a"), (0, .check "a"),
  (secs 5, .expire (secs 2)), (secs 5, .check "a")]

theorem crowd_usage : Usage (RateLimiter.new 60 2) crowd := by
  refine ⟨by decide, by decide +kernel, ?_⟩
  intro e he idle hidle
  simp only [crowd, List.mem_cons, List.not_mem_nil, or_false] at he
  rcases he with rfl | rfl | rfl | rfl | rfl | rfl
  case inr.inr.inr.inr.inl =>
    obtain rfl := Call.expire.inj hidle
    decide +kernel
  all_goals cases hidle

theorem rate_limited_crowd : answers "a" (RateLimiter.new 60 2) crowd =
    answers "a" (RateLimiter.new 60 2) (own "a" crowd) ∧
    (approvals "a" (RateLimiter.new 60 2) crowd 0 (secs 5) : ℚ) ≤ 2 + 5 := by
  obtain ⟨hperiod, -, hapart⟩ := rate_limited crowd_usage "a"
  refine ⟨hapart, (hperiod 0 (secs 5) (by decide)).trans ?_⟩
  decide +kernel

end RateLimits
