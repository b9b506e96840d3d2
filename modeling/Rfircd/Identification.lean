import Rfircd.TransitionSystem
import Rfircd.RadioSteps

/-! Whether a series of transmissions is followed by an identification. -/
namespace Identification

open Basics TransmitScheduler TransmitPump RadioGateway TransitionSystem

/-- `unidentified` is history: a frame other than an identification was keyed after the last
identification that was keyed. -/
structure Station where
  gateway : Gateway
  unidentified : Bool

/-- What the frames that left tell about the series of transmissions. -/
def afterFate (unidentified : Bool) : Fate → Bool
  | .keyed item => item.cls ≠ .id
  | .dropped _ _ => unidentified

def next (s : Station) (e : RadioGateway.Event) : Station where
  gateway := s.gateway.next e
  unidentified := match e with
    | .pump e => (s.gateway.pump.next e).2.foldl afterFate s.unidentified
    | _ => s.unidentified

def initial (cfg : RadioConfig) (tnc : TncConfig) : Station := ⟨.new cfg tnc, false⟩

def system (cfg : RadioConfig) (tnc : TncConfig) : System Station RadioGateway.Event :=
  .ofNext (· = initial cfg tnc) (fun s e => RadioGateway.Enabled s.gateway e) next

/-- The station knows that it still has to identify. -/
def Owed (s : Station) : Prop :=
  s.gateway.radio.transmittedSinceId = true ∨
  ∃ x ∈ s.gateway.pump.scheduler.waiting, x.cls = .id

/-- An identification that is keyed leaves nothing behind it that nobody will identify, and
one that is given up leaves nothing before it either. -/
def ClosesSeries (s : Station) (e : RadioGateway.Event) : Prop :=
  match s.gateway.pump.phase, e with
  | .cleared _ item, .pump (.step true) =>
    item.cls = .id → s.gateway.pump.shared.interlockOk = true →
      Owed s ∨ s.gateway.pump.scheduler.waiting = 0
  | .popped _ item, .pump (.step _) =>
    item.cls = .id → s.gateway.pump.cfg.maxFrame < item.payload.octets →
      Owed s ∨ s.gateway.pump.scheduler.waiting = 0 ∧ s.unidentified = false
  | _, _ => True

instance (s : Station) : Decidable (Owed s) :=
  @instDecidableOr _ _ _ Multiset.decidableExistsMultiset

instance (s : Station) (e : RadioGateway.Event) : Decidable (ClosesSeries s e) := by
  unfold ClosesSeries
  split <;> infer_instance

/-- Every frame of a series is followed by an identification that is under way or owed. -/
structure Accounted (s : Station) : Prop where
  classified : s.gateway.pump.scheduler.Classified
  series : s.gateway.radio.transmittedSinceId = true ∨
    (∃ x ∈ s.gateway.pump.held, x.cls = .id) ∨
    s.gateway.pump.held = 0 ∧ s.unidentified = false

theorem accounted_initial (cfg : RadioConfig) (tnc : TncConfig) : Accounted (initial cfg tnc) where
  classified := Scheduler.classified_new _
  series := .inr (.inr ⟨rfl, rfl⟩)

theorem accounted_queuing {s : Station} (h : Accounted s) {g : Gateway}
    (hq : Queuing s.gateway g) : Accounted ⟨g, s.unidentified⟩ := by
  obtain ⟨added, hq⟩ := hq
  refine ⟨hq.classified h.classified, ?_⟩
  rcases hq.flag with hf | ⟨rfl, hf⟩
  · exact .inl hf
  · have hheld : g.pump.held = s.gateway.pump.held := hq.held.trans (add_zero _)
    change g.radio.transmittedSinceId = true ∨ (∃ x ∈ g.pump.held, x.cls = .id) ∨
      g.pump.held = 0 ∧ s.unidentified = false
    rw [hf, hheld]
    exact h.series

theorem Accounted.withSessions {s : Station} (h : Accounted s) (t : AircSession.Sessions) :
    Accounted ⟨s.gateway.withSessions t, s.unidentified⟩ :=
  ⟨h.classified, h.series⟩

/-- What the session layer hands over is queued. -/
theorem Accounted.transmitAll {s : Station} (h : Accounted s) (t : AircSession.Sessions)
    (cls : TxClass) (frames : List (Callsign × Airc.AircFrame)) :
    Accounted ⟨(s.gateway.withSessions t).transmitAll cls frames, s.unidentified⟩ :=
  accounted_queuing (h.withSessions t) (Gateway.transmitAll_queuing _ cls frames)

theorem accounted_identifies {s : Station} (h : Accounted s) {g : Gateway}
    (hi : Gateway.Identifies s.gateway g ∨ Queues 0 s.gateway g) : Accounted ⟨g, s.unidentified⟩ := by
  rcases hi with hi | hq
  · obtain ⟨item, hcls, hheld⟩ := hi.held
    refine ⟨hi.classified h.classified, .inr (.inl ⟨item, ?_, hcls⟩)⟩
    change item ∈ g.pump.held
    rw [hheld]
    exact Multiset.mem_cons_self _ _
  · exact accounted_queuing h ⟨0, hq⟩

/-- A frame is keyed. -/
theorem accounted_keyed {s : Station} {g : Gateway} {item : Queued Ax25.Ax25Frame}
    (h : Accounted s) (hflag : g.radio.transmittedSinceId = s.gateway.radio.transmittedSinceId)
    (hclassified : g.pump.scheduler.Classified) (hheld : g.pump.held + {item} = s.gateway.pump.held)
    (hwaiting : g.pump.held = s.gateway.pump.scheduler.waiting)
    (hg : item.cls = .id → Owed s ∨ s.gateway.pump.scheduler.waiting = 0) :
    Accounted ⟨g, afterFate s.unidentified (.keyed item)⟩ := by
  refine ⟨hclassified, ?_⟩
  change g.radio.transmittedSinceId = true ∨ (∃ x ∈ g.pump.held, x.cls = .id) ∨
    g.pump.held = 0 ∧ decide (item.cls ≠ .id) = false
  by_cases hid : item.cls = .id
  · rcases hg hid with hf | hz
    · rcases hf with hf | hx
      · exact .inl (hflag.trans hf)
      · exact .inr (.inl (hwaiting ▸ hx))
    · exact .inr (.inr ⟨hwaiting.trans hz, by simp [hid]⟩)
  · rcases h.series with hf | ⟨x, hx, hcls⟩ | ⟨hz, -⟩
    · exact .inl (hflag.trans hf)
    · rw [← hheld, Multiset.mem_add, Multiset.mem_singleton] at hx
      rcases hx with hx | rfl
      · exact .inr (.inl ⟨x, hx, hcls⟩)
      · exact absurd hcls hid
    · have hmem : item ∈ s.gateway.pump.held := by simp [← hheld]
      rw [hz] at hmem
      exact absurd hmem (Multiset.notMem_zero item)

theorem foldl_afterFate_dropped {fates : List Fate} {b : Bool}
    (h : ∀ f ∈ fates, ∃ item why, f = .dropped item why) : fates.foldl afterFate b = b := by
  induction fates with
  | nil => rfl
  | cons f fates ih =>
    obtain ⟨item, why, rfl⟩ := h f List.mem_cons_self
    exact ih fun g hg => h g (List.mem_cons_of_mem _ hg)

/-- Frames are dropped. -/
theorem accounted_dropped {s : Station} {g : Gateway} {fates : List Fate}
    (h : Accounted s) (hflag : g.radio.transmittedSinceId = s.gateway.radio.transmittedSinceId)
    (hclassified : g.pump.scheduler.Classified)
    (hheld : g.pump.held + items fates = s.gateway.pump.held)
    (hdrop : ∀ f ∈ fates, ∃ item why, f = .dropped item why)
    (hdata : (∀ x ∈ items fates, x.cls ≠ .id) ∨
      s.gateway.radio.transmittedSinceId = true ∨ (∃ x ∈ g.pump.held, x.cls = .id) ∨
      g.pump.held = 0 ∧ s.unidentified = false) :
    Accounted ⟨g, fates.foldl afterFate s.unidentified⟩ := by
  rw [foldl_afterFate_dropped hdrop]
  refine ⟨hclassified, ?_⟩
  change g.radio.transmittedSinceId = true ∨ (∃ x ∈ g.pump.held, x.cls = .id) ∨
    g.pump.held = 0 ∧ s.unidentified = false
  rw [hflag]
  rcases hdata with hdata | hdata
  · rcases h.series with hf | ⟨x, hx, hcls⟩ | ⟨hz, hu⟩
    · exact .inl hf
    · rw [← hheld, Multiset.mem_add] at hx
      rcases hx with hx | hx
      · exact .inr (.inl ⟨x, hx, hcls⟩)
      · exact absurd hcls (hdata x hx)
    · have hle : g.pump.held ≤ 0 := hz ▸ hheld ▸ Multiset.le_add_right _ _
      exact .inr (.inr ⟨Multiset.le_zero.mp hle, hu⟩)
  · exact hdata

theorem accounted_pump {s : Station} {e : TransmitPump.Event} (h : Accounted s)
    (hg : ClosesSeries s (.pump e)) (he : RadioGateway.Enabled s.gateway (.pump e)) :
    Accounted (next s (.pump e)) := by
  have he' : TransmitPump.Enabled s.gateway.pump e ∧ ∀ item, e ≠ .enqueue item := by
    cases e <;> first | exact ⟨he, by simp⟩ | exact absurd he id
  have hclassified := next_classified h.classified e
  have hheld : (s.gateway.pump.next e).1.held + items (s.gateway.pump.next e).2 =
      s.gateway.pump.held := by
    rcases next_held he'.1 with hh | ⟨item, hitem, -⟩
    · exact hh
    · exact absurd hitem (he'.2 item)
  rcases next_fates s.gateway.pump e with hf | ⟨now, item, hp, rfl, hi, hf⟩ |
    ⟨now, item, why, written, hp, rfl, hwhy, hf⟩ | ⟨written, hp, rfl, -, hf⟩ |
    ⟨now, written, hp, rfl, hf⟩
  · exact accounted_dropped h rfl hclassified hheld (by simp [hf]) (.inl (by simp [hf]))
  · -- keyed: what else is held is what waits
    have hwaiting : (s.gateway.pump.next (.step true)).1.held =
        s.gateway.pump.scheduler.waiting := by
      rw [hf, show s.gateway.pump.held = s.gateway.pump.scheduler.waiting + {item} by
        rw [Pump.held, hp, Phase.inHand]] at hheld
      exact add_right_cancel hheld
    rw [hf] at hheld
    have := @accounted_keyed s (s.gateway.next (.pump (.step true))) item h rfl hclassified hheld
      hwaiting ?_
    · simpa [next, hf] using this
    · intro hid
      simp only [ClosesSeries, hp] at hg
      exact hg hid (by simpa [AirtimeShared.interlockFailed] using hi)
  · refine accounted_dropped h rfl hclassified hheld (by simp [hf]) ?_
    by_cases hid : item.cls = .id
    · have hwaiting : (s.gateway.pump.next (.step written)).1.held =
          s.gateway.pump.scheduler.waiting := by
        rw [hf, show s.gateway.pump.held = s.gateway.pump.scheduler.waiting + {item} by
          rw [Pump.held, hp, Phase.inHand]] at hheld
        exact add_right_cancel hheld
      have hlong : s.gateway.pump.cfg.maxFrame < item.payload.octets := by
        cases why with
        | oversized => exact hwhy
        | inhibited => exact absurd hid hwhy.2
        | deferred => exact absurd hid hwhy.1
        | stale => exact absurd hwhy id
      simp only [ClosesSeries, hp] at hg
      rcases hg hid hlong with (hflag | hx) | ⟨hz, hu⟩
      · exact .inr (.inl hflag)
      · exact .inr (.inr (.inl (hwaiting ▸ hx)))
      · exact .inr (.inr (.inr ⟨hwaiting.trans hz, hu⟩))
    · refine .inl fun x hx => ?_
      rw [hf, items_singleton, Multiset.mem_singleton] at hx
      rw [hx]
      exact hid
  · refine accounted_dropped h rfl hclassified hheld (by simp [hf]) (.inl fun x hx => ?_)
    rw [hf, items_dropped] at hx
    exact h.classified.drainExcept_out hx
  · refine accounted_dropped h rfl hclassified hheld (by simp [hf]) (.inl fun x hx => ?_)
    rw [hf, items_dropped] at hx
    intro hid
    have := h.classified.expire_out hx
    rw [hid] at this
    exact absurd this (by decide)

theorem accounted_step {s : Station} {e : RadioGateway.Event} (h : Accounted s)
    (hg : ClosesSeries s e) (he : RadioGateway.Enabled s.gateway e) : Accounted (next s e) := by
  cases e with
  | broadcast kind payload cls flags =>
    exact accounted_queuing h (s.gateway.broadcastFlagged_queuing kind payload cls flags)
  | unicast dst kind payload reliable cls flags now =>
    change Accounted ⟨(s.gateway.unicastFlagged dst kind payload reliable cls flags now).2, _⟩
    rcases s.gateway.unicastFlagged_cases dst kind payload reliable cls flags now with
      ⟨g, hr, hsame⟩ | ⟨-, -, -, -, ⟨-, hr⟩ | ⟨-, hr⟩⟩
    · rw [hr]
      exact accounted_queuing h hsame.queuing
    · rw [hr]
      exact h.withSessions _
    · rw [hr]
      exact h.transmitAll _ _ _
  | transmitUi dest info cls account =>
    exact accounted_queuing h (s.gateway.enqueueUi_queuing dest info cls false _)
  | aprsChat dst text cls now =>
    exact accounted_queuing h (s.gateway.enqueueAprsChat_queuing dst text cls now)
  | receive src frame now forUs =>
    exact h.transmitAll _ _ _
  | drainAcks =>
    exact h.transmitAll _ _ _
  | aprsHeard src now =>
    change Accounted ⟨s.gateway.aprsHeard src now, _⟩
    unfold Gateway.aprsHeard
    split
    · exact ⟨h.classified, h.series⟩
    · exact h.withSessions _
  | aprsAck src id now => exact accounted_queuing h (s.gateway.onAprsAck_queuing src id now)
  | forget call => exact h.withSessions _
  | drainKeyed now => exact ⟨h.classified, h.series⟩
  | tickSessions now =>
    exact h.transmitAll _ _ _
  | tickAprs now => exact accounted_queuing h (s.gateway.tickAprs_queuing now)
  | maybeIdentify now => exact accounted_identifies h (s.gateway.maybeIdentify_cases now)
  | idIfNeeded now => exact accounted_identifies h (s.gateway.idIfNeeded_cases now)
  | identifyNow now => exact accounted_identifies h (s.gateway.identifyNow_cases now)
  | radioOff now => exact accounted_identifies h (s.gateway.radioOff_cases now)
  | radioOn => exact accounted_queuing h ⟨0, s.gateway.radioOn_queues⟩
  | pump e => exact accounted_pump h hg he

/-- A frame keyed since the last identification is followed by another one. -/
theorem identification_follows (cfg : RadioConfig) (tnc : TncConfig) {s : Station}
    (h : Reachable (system cfg tnc) ClosesSeries s) (hu : s.unidentified = true) :
    s.gateway.radio.transmittedSinceId = true ∨ ∃ x ∈ s.gateway.pump.held, x.cls = .id := by
  have hs : Accounted s := by
    refine (Inductive.ofNext ?_ ?_).reachable h
    · rintro s rfl
      exact accounted_initial cfg tnc
    · intro s e hs hg he
      exact accounted_step hs hg he
  rcases hs.series with hf | hx | ⟨-, hf⟩
  · exact .inl hf
  · exact .inr hx
  · rw [hu] at hf
    exact absurd hf (by decide)

/-! ### Two runs of one line of chat -/

def gatewayConfig : RadioConfig where
  enabled := true
  callsign := ['S', 'K', '0', 'M', 'T', '-', '1']
  gateway := some ⟨"SK0MT", 1⟩
  idText := ['R', 'F', 'I', 'R', 'C']
  idInterval := secs 600
  path := []
  destination := ⟨"AIRC", 0⟩
  maxQueuedAirtime := secs 60
  ackTimeoutSecs := 12
  maxRetries := 3
  aprsOnly := false
  sessions := .default

/-- The pump goes round once and keys a frame. -/
def turn : List RadioGateway.Event :=
  .replicate 7 (.pump (.step true)) ++
    .pump .timer :: .replicate 3 (.pump (.step true))

def chat : RadioGateway.Event := .broadcast .msg [35, 114, 102, 31, 104, 105] .chat 0

/-- The line goes out and the identification is queued. -/
def announced : Station :=
  (chat :: turn ++ [RadioGateway.Event.maybeIdentify 0]).foldl next
    (initial gatewayConfig .default)

theorem identification_follows_announced :
    announced.gateway.radio.transmittedSinceId = true ∨
      ∃ x ∈ announced.gateway.pump.held, x.cls = .id := by
  have h : Reachable (system gatewayConfig .default) ClosesSeries announced :=
    (Reachable.initial rfl).run (by decide +kernel)
  exact identification_follows gatewayConfig .default h (by decide +kernel)

/-- The identification is queued behind the line and overtakes it. -/
theorem chat_after_last_identification :
    ∃ s, Reachable (system gatewayConfig .default) (fun _ _ => True) s ∧ s.unidentified = true ∧
      ¬ (s.gateway.radio.transmittedSinceId = true ∨ ∃ x ∈ s.gateway.pump.held, x.cls = .id) := by
  refine ⟨(chat :: .maybeIdentify 0 :: turn ++ .pump (.advance (secs 10)) :: turn).foldl next
    (initial gatewayConfig .default), (Reachable.initial rfl).run (by decide +kernel),
    by decide +kernel, ?_⟩
  rw [not_or]
  refine ⟨by decide +kernel, ?_⟩
  rintro ⟨x, hx, -⟩
  have hempty : ((chat :: .maybeIdentify 0 :: turn ++ .pump (.advance (secs 10)) :: turn).foldl next
      (initial gatewayConfig .default)).gateway.pump.held = 0 := by decide +kernel
  rw [hempty] at hx
  exact Multiset.notMem_zero x hx

end Identification
