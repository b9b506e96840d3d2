import Rfircd.ServerInvariants
import Rfircd.TokenBucket
import Rfircd.UnacceptableSources

/-! How many unknown stations are let in.
Nobody knows who invents a callsign, so the first frames of all of them share one bucket. -/
namespace FirstContacts

open Basics Ax25 Airc AircSession KeyedTable MessageText IrcState AprsCodec AirPolicy RadioGateway
open ServerOutput ServerCore ServerCore.Server Bridge ServerSteps ServerRuns ServerInvariants
open TransitionSystem TokenBucket

/-! ### A rate limit -/

section Limits

variable {r : RateLimiter} {key : Text} {now idle : ℕ}

def inSeconds (n : ℕ) : ℚ := (n : ℚ) / secs 1

def terms (r : RateLimiter) : Terms ℚ := ⟨r.perMinute / 60, r.burst, 0⟩

/-- No bucket is in debt. -/
def Solvent (r : RateLimiter) : Prop := ∀ key b, r.buckets.get key = some b → 0 ≤ b.tokens

theorem inSeconds_nonneg (n : ℕ) : 0 ≤ inSeconds n := by
  unfold inSeconds
  positivity

theorem inSeconds_add (m n : ℕ) : inSeconds (m + n) = inSeconds m + inSeconds n := by
  rw [inSeconds, Nat.cast_add, add_div]
  rfl

theorem inSeconds_mono {m n : ℕ} (h : m ≤ n) : inSeconds m ≤ inSeconds n := by
  obtain ⟨d, rfl⟩ := Nat.exists_eq_add_of_le h
  rw [inSeconds_add]
  exact le_add_of_nonneg_right (inSeconds_nonneg d)

theorem rate_nonneg (r : RateLimiter) : 0 ≤ (terms r).rate := by
  unfold terms
  positivity

theorem available_none (h : r.buckets.get key = none) : r.available key now = r.burst := by
  rw [RateLimiter.available, h]

theorem available_some {b : Bucket} (h : r.buckets.get key = some b) :
    r.available key now = (terms r).refill b.tokens (inSeconds (now - b.last)) := by
  rw [RateLimiter.available, h]
  rfl

theorem available_le_burst (r : RateLimiter) (key : Text) (now : ℕ) :
    r.available key now ≤ r.burst := by
  cases h : r.buckets.get key with
  | none => exact (available_none h).le
  | some b =>
    rw [available_some h]
    exact min_le_right _ _

theorem available_nonneg (h : Solvent r) (key : Text) (now : ℕ) : 0 ≤ r.available key now := by
  cases hget : r.buckets.get key with
  | none =>
    rw [available_none hget]
    positivity
  | some b =>
    have htokens := h key b hget
    have helapsed := mul_nonneg (inSeconds_nonneg (now - b.last)) (rate_nonneg r)
    rw [available_some hget]
    exact le_min (by linarith) (Nat.cast_nonneg r.burst)

/-- Time brings in the rate and no more. -/
theorem available_flow (r : RateLimiter) (key : Text) (now d : ℕ) :
    r.available key (now + d) ≤ r.available key now + inSeconds d * (terms r).rate := by
  have hflow := mul_nonneg (inSeconds_nonneg d) (rate_nonneg r)
  cases h : r.buckets.get key with
  | none =>
    rw [available_none h, available_none h]
    linarith
  | some b =>
    have hlonger : inSeconds (now + d - b.last) ≤ inSeconds (now - b.last) + inSeconds d := by
      rw [← inSeconds_add]
      exact inSeconds_mono (by omega)
    have hcame := mul_le_mul_of_nonneg_right hlonger (rate_nonneg r)
    rw [add_mul] at hcame
    rw [available_some h, available_some h, Terms.refill, Terms.refill, ← min_add_add_right]
    exact min_le_min (by linarith) (by linarith)

/-- A key that asks pays one token, if it has one. -/
theorem check_available (r : RateLimiter) (key : Text) (now : ℕ) :
    (if (r.check key now).1 then 1 else 0) + (r.check key now).2.available key now =
      r.available key now := by
  have hbrim := available_le_burst r key now
  have hget : (r.check key now).2.buckets.get key = some
      ⟨if 1 ≤ r.available key now then r.available key now - 1 else r.available key now, now⟩ := by
    simp [RateLimiter.check, Table.get_set_self]
  have hburst : (terms (r.check key now).2).burst = r.burst := rfl
  have hnow : inSeconds (now - now) = 0 := by rw [Nat.sub_self, inSeconds, Nat.cast_zero, zero_div]
  rw [available_some hget, Terms.refill, hburst, hnow, zero_mul, add_zero]
  by_cases hok : 1 ≤ r.available key now
  · have hpaid : (r.check key now).1 = true := decide_eq_true hok
    rw [if_pos hpaid, if_pos hok, min_eq_left (by linarith)]
    ring
  · have hrefused : ¬ (r.check key now).1 = true := fun h => hok (of_decide_eq_true h)
    rw [if_neg hrefused, if_neg hok, min_eq_left hbrim, zero_add]

theorem makeRoom_get {b : Bucket} {k : Text} (h : (r.makeRoom key).get k = some b) :
    r.buckets.get k = some b := by
  unfold RateLimiter.makeRoom at h
  split_ifs at h
  · split at h
    · rw [Table.get_erase] at h
      split_ifs at h
      exact h
    · exact h
  · exact h

theorem check_solvent (h : Solvent r) (key : Text) (now : ℕ) : Solvent (r.check key now).2 := by
  intro k b hb
  have hget : ((r.makeRoom key).set key ⟨if 1 ≤ r.available key now then r.available key now - 1
      else r.available key now, now⟩).get k = some b := by
    simpa [RateLimiter.check] using hb
  rw [Table.get_set] at hget
  split_ifs at hget with hk hok
  · obtain rfl := Option.some.inj hget
    exact sub_nonneg.mpr hok
  · obtain rfl := Option.some.inj hget
    exact available_nonneg h key now
  · exact h k b (makeRoom_get hget)

theorem expire_get {b : Bucket} (h : (r.expire now idle).buckets.get key = some b) :
    r.buckets.get key = some b := by
  obtain ⟨b', hget, hkept⟩ := Option.bind_eq_some_iff.mp ((Table.get_filterMap ..).symm.trans h)
  split_ifs at hkept
  obtain rfl := Option.some.inj hkept
  exact hget

theorem expire_solvent (h : Solvent r) (now idle : ℕ) : Solvent (r.expire now idle) :=
  fun k b hb => h k b (expire_get hb)

/-- A bucket that is forgotten would have been full by then. -/
theorem expire_available (h : Solvent r) (hfull : (terms r).Restores (inSeconds idle)) {later : ℕ}
    (hle : now ≤ later) : (r.expire now idle).available key later = r.available key later := by
  have hget : (r.expire now idle).buckets.get key =
      (r.buckets.get key).bind fun b => if now - b.last < idle then some b else none :=
    Table.get_filterMap ..
  cases hb : r.buckets.get key with
  | none =>
    rw [hb] at hget
    rw [available_none hb]
    exact available_none hget
  | some b =>
    rw [hb, Option.bind_some] at hget
    split_ifs at hget with hrecent
    · rw [available_some hb]
      exact available_some hget
    · have hidle : idle ≤ later - b.last := by omega
      have hrestored := (hfull.later (inSeconds_mono hidle)).refill (h key b hb)
      rw [available_some hb, hrestored]
      exact available_none hget

end Limits

/-! ### The limit of the server -/

def ration (s : Server) : RateLimiter := s.outlet.policy.firstContact

/-- The key that all unknown stations share. -/
def sharedKey : Text := ['r', 'f']

/-- What an event can do to the limit. -/
def Rationed (s : Server) (e : Moment × ServerRuns.Event) (a b : RateLimiter) : Prop :=
  e.2 = .tick ∧ b = a.expire e.1.now (secs 3600) ∨
    a = ration s ∧ b = (a.check sharedKey e.1.now).2

variable {verifies : Text → Text → Prop} {reader : BeaconReader} {L : Licence} {s t : Server}
variable {m : Moment} {src : Callsign}

theorem steps_ration (hsteps : Steps L s t) :
    Relation.ReflTransGen L.rations (ration s) (ration t) := by
  refine steps_related (φ := fun o => o.policy.firstContact) (fun o o' hstep => ?_)
    (fun _ _ => rfl) hsteps
  cases hstep with
  | book hcore => exact .inl (congrArg Core.firstContact hcore)
  | ration h => exact .inr h
  | _ => exact .inl rfl

theorem next_ration (reader : BeaconReader) {e : Moment × ServerRuns.Event} (hs : Grounded s)
    (he : ServerRuns.Enabled verifies s e) :
    Relation.ReflTransGen (Rationed s e) (ration s) (ration (s.next reader e)) := by
  let frugal : Licence := { anything with rations := Rationed s e }
  have hlenient : Lenient frugal :=
    ⟨⟨fun _ _ => trivial, fun _ => trivial, fun _ => trivial, fun _ => trivial, fun _ => trivial⟩,
      fun _ _ => trivial, fun _ _ => trivial, fun _ => trivial, fun _ => trivial⟩
  have hrecalls : Recalls frugal reader s e :=
    ⟨fun _ _ => trivial, fun _ _ _ _ _ _ => trivial, fun htick _ => .inl ⟨htick, rfl⟩,
      fun _ _ => .inr ⟨rfl, rfl⟩⟩
  exact steps_ration (next_steps hs.standing hs.named he trivial
    (lenient_licensed hlenient hs.standing he (fun _ _ _ _ _ => trivial) (fun _ _ => trivial)
      hrecalls))

/-! ### Newcomers -/

/-- The frame brings its source in: there was no record of the station, and now there is one. -/
def admits (reader : BeaconReader) (s : Server) (e : Moment × ServerRuns.Event) : Bool :=
  match e.2 with
  | .rf f => (s.outlet.peer f.source.call).isNone &&
      ((s.handleRfFrame reader e.1 f).outlet.peer f.source.call).isSome
  | _ => false

/-- The stations that a run lets in for the first time, or again. -/
def newcomers (reader : BeaconReader) : Server → List (Moment × ServerRuns.Event) → ℕ
  | _, [] => 0
  | s, e :: es => (if admits reader s e then 1 else 0) + newcomers reader (s.next reader e) es

/-- A licence for everything but to touch the limit. -/
def unrationed : Licence := { anything with rations := fun _ _ => False }

theorem unrationed_recording : Recording unrationed :=
  ⟨fun _ _ => trivial, fun _ => trivial, fun _ => trivial, fun _ => trivial, fun _ => trivial⟩

theorem steps_same_ration (hsteps : Steps unrationed s t) : ration t = ration s :=
  (Relation.reflTransGen_iff_eq fun _ h => h).mp (steps_ration hsteps)

/-- The bucket has let the station in. -/
def LetIn (s : Server) (now : ℕ) (t : Server) : Prop :=
  ((ration s).check sharedKey now).1 = true ∧ ration t = ((ration s).check sharedKey now).2

theorem firstContactOk_unknown (hnew : s.outlet.peer src = none) :
    s.firstContactOk m src =
      ((s.outlet.policy.firstContactOk m.now).1, s.withPolicy (s.outlet.policy.firstContactOk m.now).2) := by
  unfold firstContactOk
  rw [if_neg (by rw [hnew]; exact Bool.false_ne_true)]

theorem handleAircFrame_admits {f : AircFrame} {forUs broadcast : Bool}
    (hnew : s.outlet.peer src = none)
    (hthere : ((s.handleAircFrame m src f forUs broadcast).outlet.peer src).isSome = true) :
    LetIn s m.now (s.handleAircFrame m src f forUs broadcast) := by
  rw [handleAircFrame_eq, firstContactOk_unknown hnew] at hthere ⊢
  have habsent : ¬ (s.outlet.peer src).isSome = true := by rw [hnew]; exact Bool.false_ne_true
  split_ifs at hthere ⊢ with hsource hcontact
  · exact absurd hthere habsent
  · have hcall := (acceptable_iff.mpr hsource).1
    have hsteps : Steps unrationed (s.withPolicy (s.outlet.policy.firstContactOk m.now).2)
        (takenIn (s.withPolicy (s.outlet.policy.firstContactOk m.now).2) m src f forUs broadcast) :=
      takenIn_steps m hcall ⟨trivial, fun _ _ _ _ _ =>
        unrationed_recording.airc (fun _ => trivial) fun _ => trivial⟩
    exact ⟨hcontact, steps_same_ration hsteps⟩
  · exact absurd hthere habsent

theorem slight_absent {op : AirTrace.RadioOp} (hop : Slight op) (hnew : s.outlet.peer src = none) :
    (s.perform op).outlet.peer src = none := by
  change (AirTrace.perform s.outlet.gateway op).radio.sessions.peer src = none
  have hnew : s.outlet.gateway.radio.sessions.peer src = none := hnew
  cases op with
  | note call n =>
    simp only [AirTrace.perform]
    split
    · exact hnew
    · rename_i p hp
      have hother : src ≠ call := by
        rintro rfl
        rw [hnew] at hp
        cases hp
      exact (Sessions.peer_store ..).trans ((if_neg hother).trans hnew)
  | aprsAnswered sender id now =>
    obtain ⟨added, hqueues⟩ := s.outlet.gateway.onAprsAck_queuing sender id now
    obtain ⟨seq, hseq⟩ := hqueues.sessions
    simp only [AirTrace.perform]
    rw [hseq]
    exact hnew
  | _ => exact hop.elim

theorem slights_absent {ops : List AirTrace.RadioOp} (hops : ∀ op ∈ ops, Slight op)
    (hnew : s.outlet.peer src = none) : (ops.foldl Server.perform s).outlet.peer src = none := by
  induction ops generalizing s with
  | nil => exact hnew
  | cons op ops ih =>
    exact ih (fun o ho => hops o (List.mem_cons_of_mem _ ho))
      (slight_absent (hops op List.mem_cons_self) hnew)

theorem aprsAck_absent (hnew : s.outlet.peer src = none) (msg : AprsMessage) :
    (s.aprsAck src msg).outlet.peer src = none := by
  unfold aprsAck
  split
  · exact hnew
  · rename_i id _
    change (AirTrace.perform s.outlet.gateway (.aprsAck src id)).radio.sessions.peer src = none
    rw [AirTrace.perform, Gateway.transmitUi, Gateway.enqueueUi_sessions]
    exact hnew

theorem handleAprsMessage_admits {msg : AprsMessage} (hnew : s.outlet.peer src = none)
    (hthere : ((s.handleAprsMessage m src msg).outlet.peer src).isSome = true) :
    LetIn s m.now (s.handleAprsMessage m src msg) := by
  have habsent : ∀ {t : Server}, t.outlet.peer src = none → ¬ (t.outlet.peer src).isSome = true := by
    intro t ht
    rw [ht]
    exact Bool.false_ne_true
  obtain ⟨-, p, ops, heq, -, hslight⟩ | ⟨hpasses, heq⟩ := handleAprsMessage_cases s m src msg
  · rw [heq] at hthere
    have hlimited : (s.withPolicy p).outlet.peer src = none := hnew
    exact absurd hthere (habsent (slights_absent hslight hlimited))
  · have hrated : (s.rfStationRateOk m src).2.outlet.peer src = none := hnew
    have hrationed : rationed s m src = (s.rfStationRateOk m src).2.withPolicy
        ((s.rfStationRateOk m src).2.outlet.policy.firstContactOk m.now).2 := by
      rw [rationed, firstContactOk_unknown hrated]
    rw [heq] at hthere ⊢
    split_ifs at hthere ⊢ with hroom
    · have hnone : (rationed s m src).outlet.peer src = none := by
        rw [hrationed]
        exact hrated
      exact absurd hthere (habsent (aprsAck_absent hnone msg))
    · have hends : Ends unrationed src msg (noted s m src) ((noted s m src).aprsFresh m src msg) :=
        aprsFresh_ends _ m hpasses.1.1 (noted_present hroom)
          (unrationed_recording.aprs fun _ => trivial) fun _ _ _ _ => trivial
      have hsame := steps_same_ration (hends.steps fun _ _ => trivial)
      have hnoted : ration (noted s m src) = ((ration s).check sharedKey m.now).2 := by
        rw [noted, hrationed]
        rfl
      exact ⟨hpasses.2.2.2.resolve_left (habsent hnew), hsame.trans hnoted⟩

theorem handleAprsBeacon_peer (s : Server) (m : Moment) (src call : Callsign) (summary : Text) :
    (s.handleAprsBeacon m src summary).outlet.peer call = s.outlet.peer call := by
  have hshown : ∀ display, (s.showBeacon m src summary display).outlet.core = s.outlet.core :=
    fun _ => Outlet.sendToMembers_core ..
  unfold handleAprsBeacon
  split
  · rfl
  · split
    · rfl
    · extract_lets display
      split_ifs
      · have hair : (s.showBeacon m src summary display).outlet.air = s.outlet.air :=
          congrArg Core.air (hshown display)
        rw [Outlet.peer, Outlet.sessions, Outlet.gateway, hair]
        rfl
      · rfl

/-- Whatever the frame carries: a station that is new passed the bucket. -/
theorem handleRfFrame_admits {f : Ax25Frame} (hnew : s.outlet.peer f.source.call = none)
    (hthere : ((s.handleRfFrame reader m f).outlet.peer f.source.call).isSome = true) :
    LetIn s m.now (s.handleRfFrame reader m f) := by
  have hcounted : (UnacceptableSources.counted s).outlet.peer f.source.call = none := hnew
  have habsent : ¬ ((UnacceptableSources.counted s).outlet.peer f.source.call).isSome = true := by
    rw [hcounted]
    exact Bool.false_ne_true
  rw [UnacceptableSources.handleRfFrame_eq] at hthere ⊢
  split at hthere
  · exact absurd hthere habsent
  · exact handleAprsMessage_admits hcounted hthere
  · rw [handleAprsBeacon_peer] at hthere
    exact absurd hthere habsent
  · exact handleAircFrame_admits hcounted hthere

theorem next_admits {e : Moment × ServerRuns.Event} (h : admits reader s e = true) :
    LetIn s e.1.now (s.next reader e) := by
  obtain ⟨m, e⟩ := e
  cases e with
  | rf f =>
    obtain ⟨hnew, hthere⟩ := Bool.and_eq_true_iff.mp h
    obtain ⟨hok, hration⟩ := handleRfFrame_admits (Option.isNone_iff_eq_none.mp hnew) hthere
    have hreaped : Steps unrationed (s.handleRfFrame reader m f) (s.next reader (m, .rf f)) :=
      reapEvictedPeers_steps _ m trivial
    exact ⟨hok, (steps_same_ration hreaped).trans hration⟩
  | _ => exact absurd h Bool.false_ne_true

/-! ### Runs -/

/-- Five stations at once, and ten a minute. -/
def allowance : Terms ℚ := ⟨10 / 60, 5, 0⟩

theorem allowance_restores : allowance.Restores (inSeconds (secs 3600)) := by decide +kernel

structure Metered (s : Server) : Prop where
  grounded : Grounded s
  solvent : Solvent (ration s)
  terms : terms (ration s) = allowance

def level (s : Server) (now : ℕ) : ℚ := (ration s).available sharedKey now

def price (reader : BeaconReader) (s : Server) (e : Moment × ServerRuns.Event) : ℚ :=
  if admits reader s e then 1 else 0

theorem initial_metered (h : Initial s) : Metered s := by
  refine ⟨initial_grounded h, ?_, ?_⟩
  · obtain ⟨cfg, attached, tnc, accounts, unix, rfl⟩ := h
    exact fun key b hb => by cases hb
  · obtain ⟨cfg, attached, tnc, accounts, unix, rfl⟩ := h
    rfl

theorem gauge : Gauge allowance inSeconds level Metered where
  brim s t h := by
    have hburst : allowance.burst = (ration s).burst := by rw [← h.terms]; rfl
    rw [hburst]
    exact available_le_burst ..
  floor s t h := available_nonneg h.solvent ..
  flow s t d h := by
    rw [← h.terms]
    exact available_flow ..

/-- What an event does to the limit raises no level. -/
theorem rationed_lowers {e : Moment × ServerRuns.Event} {a b : RateLimiter} (h : Rationed s e a b)
    (hsolvent : Solvent a) (hterms : terms a = allowance) :
    Solvent b ∧ terms b = allowance ∧
      b.available sharedKey e.1.now ≤ a.available sharedKey e.1.now := by
  rcases h with ⟨-, rfl⟩ | ⟨-, rfl⟩
  · have hfull : (terms a).Restores (inSeconds (secs 3600)) := hterms ▸ allowance_restores
    exact ⟨expire_solvent hsolvent _ _, hterms, (expire_available hsolvent hfull le_rfl).le⟩
  · have hpaid := check_available a sharedKey e.1.now
    refine ⟨check_solvent hsolvent _ _, hterms, ?_⟩
    rw [← hpaid]
    split_ifs <;> linarith

theorem next_metered (reader : BeaconReader) {e : Moment × ServerRuns.Event} (h : Metered s)
    (he : ServerRuns.Enabled verifies s e) :
    Metered (s.next reader e) ∧ level (s.next reader e) e.1.now ≤ level s e.1.now := by
  have hration : Solvent (ration (s.next reader e)) ∧ terms (ration (s.next reader e)) = allowance ∧
      (ration (s.next reader e)).available sharedKey e.1.now ≤ level s e.1.now := by
    have hsteps := next_ration reader h.grounded he
    generalize ration (s.next reader e) = r at hsteps
    induction hsteps with
    | refl => exact ⟨h.solvent, h.terms, le_rfl⟩
    | tail _ hstep ih =>
      obtain ⟨hsolvent, hterms, hlower⟩ := rationed_lowers hstep ih.1 ih.2.1
      exact ⟨hsolvent, hterms, hlower.trans ih.2.2⟩
  exact ⟨⟨grounded_next h.grounded he, hration.1, hration.2.1⟩, hration.2.2⟩

theorem pays : Pays (Server.next reader) everyStep (ServerRuns.Enabled verifies) level
    (fun e => e.1.now) (price reader) Metered := by
  intro s e h _ he
  obtain ⟨hmetered, hlower⟩ := next_metered reader h he
  refine ⟨hmetered, ?_⟩
  unfold price
  split_ifs with hadmits
  · obtain ⟨hok, hration⟩ := next_admits hadmits
    have hpaid := check_available (ration s) sharedKey e.1.now
    rw [if_pos hok, ← hration] at hpaid
    exact hpaid.le
  · rw [zero_add]
    exact hlower

theorem metered_inductive : Inductive (system reader verifies) everyStep Metered :=
  .ofNext (fun _ h => initial_metered h) fun _ _ h _ he => (next_metered reader h he).1

theorem newcomers_spent (reader : BeaconReader) (s : Server) (es : List (Moment × ServerRuns.Event)) :
    (newcomers reader s es : ℚ) = spent (Server.next reader) (price reader) s es := by
  induction es generalizing s with
  | nil => exact Nat.cast_zero
  | cons e es ih =>
    rw [newcomers, spent, Nat.cast_add, ih, price]
    split_ifs
    · rw [Nat.cast_one]
    · rw [Nat.cast_zero]

/-- In any period, whatever is received and from whomever it claims to come: the stations that are
let in are five at most, and ten for each minute of the period. -/
theorem newcomers_bounded {es : List (Moment × ServerRuns.Event)} {start stop : ℕ}
    (h : Reachable (system reader verifies) everyStep s)
    (hrun : Runs everyStep (ServerRuns.Enabled verifies) (Server.next reader) s es)
    (hordered : es.Pairwise fun e f => e.1.now ≤ f.1.now) (hle : start ≤ stop)
    (hwithin : ∀ e ∈ es, start ≤ e.1.now ∧ e.1.now ≤ stop) :
    (newcomers reader s es : ℚ) ≤ 5 + ((stop - start : ℕ) : ℚ) / secs 1 * (10 / 60) := by
  have hspent := gauge.spent_le inSeconds_add pays hle (metered_inductive.reachable h) hrun hordered
    hwithin
  have hfloor : allowance.floor = 0 := rfl
  rw [hfloor, add_zero] at hspent
  rw [newcomers_spent]
  exact hspent

/-- A station says hello, and another one does. -/
def hellos : List ServerRuns.Event :=
  [Small.airc Small.station .hello 1 [], .tick, Small.airc ⟨"SM0XYZ", 3⟩ .hello 1 [],
    Small.airc Small.station .hello 2 []]

theorem newcomers_bounded_hellos : newcomers Small.noBeacon Small.start (Small.seconds hellos) = 2 ∧
    (newcomers Small.noBeacon Small.start (Small.seconds hellos) : ℚ) ≤
      5 + ((secs 10 - 0 : ℕ) : ℚ) / secs 1 * (10 / 60) := by
  have hstart : Initial Small.start := ⟨Small.config, true, .default, .empty, 0, rfl⟩
  have hruns : Small.Feasible hellos := by decide +kernel
  refine ⟨by decide +kernel, newcomers_bounded (.initial hstart) hruns ?_ (Nat.zero_le _) ?_⟩
  · decide +kernel
  · decide +kernel

end FirstContacts
