import Rfircd.RadioGateway

/-! What one step of the radio gateway does to the transmit path. -/
namespace RadioGateway

open Basics Airc AircSession KeyedTable Ax25 TransmitScheduler TransmitPump

/-! ### What an operation of the server queues -/

/-- The pump once a frame was pushed. -/
structure Took (item : Queued Ax25Frame) (p q : Pump) : Prop where
  held : q.held = item ::ₘ p.held
  phase : q.phase = p.phase
  interlock : q.shared.interlockOk = p.shared.interlockOk
  room : ∀ c, q.scheduler.roomIn c = p.scheduler.roomIn c - if c = item.cls then 1 else 0
  classified : p.scheduler.Classified → q.scheduler.Classified

/-- The pump once a frame was refused. -/
structure Refused (p q : Pump) : Prop where
  held : q.held = p.held
  phase : q.phase = p.phase
  shared : q.shared = p.shared
  room : ∀ c, q.scheduler.roomIn c = p.scheduler.roomIn c
  classified : p.scheduler.Classified → q.scheduler.Classified

theorem notifyWaiters_phase (p : Pump) : p.notifyWaiters.phase = p.phase := by
  unfold Pump.notifyWaiters
  split <;> rfl

theorem notifyWaiters_shared (p : Pump) : p.notifyWaiters.shared = p.shared := by
  unfold Pump.notifyWaiters
  split <;> rfl

/-- A frame is taken exactly when its class has room. -/
theorem tncEnqueue_cases (p : Pump) (frame : Ax25Frame) (cls : TransmitScheduler.Class) (account : Text)
    (expectsReply : Bool) :
    (∃ q, tncEnqueue p frame cls account expectsReply = (true, q) ∧ p.scheduler.roomIn cls ≠ 0 ∧
      Took (queuedItem p frame cls account expectsReply) p q) ∨
    ∃ q, tncEnqueue p frame cls account expectsReply = (false, q) ∧ p.scheduler.roomIn cls = 0 ∧
      Refused p q := by
  unfold tncEnqueue
  generalize hitem : queuedItem p frame cls account expectsReply = item
  have hcls : item.cls = cls := by rw [← hitem]; rfl
  have hwaiting := p.scheduler.push_waiting item
  simp only [Pump.next, Scheduler.push, hcls] at hwaiting ⊢
  by_cases hfull : p.scheduler.cfg.depth cls ≤ (p.scheduler.queues cls).length
  · simp only [if_pos hfull]
    refine .inr ⟨_, rfl, Nat.sub_eq_zero_of_le hfull, ⟨rfl, rfl, rfl, fun _ => rfl, fun h => h⟩⟩
  · simp only [if_neg hfull] at hwaiting ⊢
    refine .inl ⟨_, rfl, by rw [Scheduler.roomIn]; omega, ⟨?_, ?_, ?_, ?_, ?_⟩⟩
    · rw [Pump.notifyWaiters_held]
      change _ + p.phase.inHand = _
      rw [Pump.held, ← Multiset.cons_add, ← hwaiting]
      rfl
    · rw [notifyWaiters_phase]
      rfl
    · rw [notifyWaiters_shared]
      rfl
    · intro c
      rw [Pump.notifyWaiters_scheduler, hcls]
      simp only [Scheduler.roomIn, Pump.publish_scheduler, Function.update_apply]
      split_ifs with hc
      · subst hc
        rw [List.length_append, List.length_singleton]
        omega
      · rfl
    · intro h
      rw [Pump.notifyWaiters_scheduler]
      have := h.push item
      rw [Scheduler.push, hcls, if_neg hfull] at this
      exact this

/-- Numbers may have been drawn, and that is all. -/
def Drew (s t : AircSession.Sessions) : Prop := ∃ seq, t = { s with nextSeq := seq }

theorem Drew.trans {s t r : AircSession.Sessions} (h : Drew s t) (h' : Drew t r) : Drew s r := by
  obtain ⟨a, rfl⟩ := h
  obtain ⟨b, rfl⟩ := h'
  exact ⟨b, rfl⟩

theorem Drew.peers {s t : AircSession.Sessions} (h : Drew s t) : t.peers = s.peers := by
  obtain ⟨seq, rfl⟩ := h
  rfl

theorem Drew.radioKicked {s t : AircSession.Sessions} (h : Drew s t) :
    t.radioKicked = s.radioKicked := by
  obtain ⟨seq, rfl⟩ := h
  rfl

/-- Data is queued: what waits grows, and the station owes an identification. -/
structure Queues (added : Multiset (Queued Ax25Frame)) (g g' : Gateway) : Prop where
  held : g'.pump.held = g.pump.held + added
  data : ∀ x ∈ added, x.cls ≠ .id
  flag : g'.radio.transmittedSinceId = true ∨
    added = 0 ∧ g'.radio.transmittedSinceId = g.radio.transmittedSinceId
  keyed : g'.keyed = g.keyed
  sessions : Drew g.radio.sessions g'.radio.sessions
  classified : g.pump.scheduler.Classified → g'.pump.scheduler.Classified

/-- Only counters, APRS messages or the next sequence number change. -/
structure SamePath (g g' : Gateway) : Prop where
  pump : g'.pump = g.pump
  flag : g'.radio.transmittedSinceId = g.radio.transmittedSinceId
  keyed : g'.keyed = g.keyed
  sessions : Drew g.radio.sessions g'.radio.sessions

theorem SamePath.queues {g g' : Gateway} (h : SamePath g g') : Queues 0 g g' where
  held := by rw [h.pump, add_zero]
  data x hx := absurd hx (Multiset.notMem_zero x)
  flag := .inr ⟨rfl, h.flag⟩
  keyed := h.keyed
  sessions := h.sessions
  classified hc := by rwa [h.pump]

theorem Queues.trans {a b : Multiset (Queued Ax25Frame)} {g g' g'' : Gateway} (h : Queues a g g')
    (h' : Queues b g' g'') : Queues (a + b) g g'' where
  held := by rw [h'.held, h.held, add_assoc]
  data x hx := (Multiset.mem_add.mp hx).elim (h.data x) (h'.data x)
  flag := by
    rcases h'.flag with hf | ⟨rfl, hf⟩
    · exact .inl hf
    · rcases h.flag with hf' | ⟨rfl, hf'⟩
      · exact .inl (hf.trans hf')
      · exact .inr ⟨rfl, hf.trans hf'⟩
  keyed := h'.keyed.trans h.keyed
  sessions := h.sessions.trans h'.sessions
  classified hc := h'.classified (h.classified hc)

/-- Some data is queued, or none. -/
def Queuing (g g' : Gateway) : Prop := ∃ added, Queues added g g'

theorem Queuing.trans {g g' g'' : Gateway} (h : Queuing g g') (h' : Queuing g' g'') :
    Queuing g g'' := by
  obtain ⟨a, ha⟩ := h
  obtain ⟨b, hb⟩ := h'
  exact ⟨a + b, ha.trans hb⟩

theorem SamePath.queuing {g g' : Gateway} (h : SamePath g g') : Queuing g g' := ⟨0, h.queues⟩

theorem Queuing.refl (g : Gateway) : Queuing g g := SamePath.queuing ⟨rfl, rfl, rfl, _, rfl⟩

theorem Queuing.foldl {α : Type*} {f : Gateway → α → Gateway} (h : ∀ g x, Queuing g (f g x))
    (g : Gateway) (l : List α) : Queuing g (l.foldl f g) := by
  induction l generalizing g with
  | nil => exact .refl g
  | cons x l ih => exact (h g x).trans (ih (f g x))

namespace Gateway

theorem enqueueUi_sessions (g : Gateway) (dest : Callsign) (info : List UInt8) (cls : TxClass)
    (expectsReply : Bool) (account : Text) :
    (g.enqueueUi dest info cls expectsReply account).radio.sessions = g.radio.sessions := by
  unfold enqueueUi
  cases g.transmittable dest info with
  | none => rfl
  | some ax =>
    simp only
    rcases tncEnqueue g.pump ax cls.schedulerClass account expectsReply with ⟨- | -, q⟩ <;> rfl

theorem transmitAll_sessions (g : Gateway) (cls : TxClass) (frames : List (Callsign × AircFrame)) :
    (g.transmitAll cls frames).radio.sessions = g.radio.sessions := by
  induction frames generalizing g with
  | nil => rfl
  | cons e frames ih => exact (ih _).trans (enqueueUi_sessions g e.1 e.2.encode cls _ _)

theorem enqueueUi_queuing (g : Gateway) (dest : Callsign) (info : List UInt8) (cls : TxClass)
    (expectsReply : Bool) (account : Text) :
    Queuing g (g.enqueueUi dest info cls expectsReply account) := by
  unfold enqueueUi
  cases g.transmittable dest info with
  | none => exact .refl g
  | some ax =>
    rcases tncEnqueue_cases g.pump ax cls.schedulerClass account expectsReply with
      ⟨q, h, -, ht⟩ | ⟨q, h, -, hr⟩
    · simp only [h]
      refine ⟨{queuedItem g.pump ax cls.schedulerClass account expectsReply}, ?_, ?_, .inl rfl, rfl,
        ⟨_, rfl⟩, ht.classified⟩
      · exact ht.held.trans (by rw [← Multiset.singleton_add, add_comm])
      · intro x hx
        rw [Multiset.mem_singleton.mp hx]
        cases cls <;> simp [queuedItem, TxClass.schedulerClass]
    · simp only [h]
      refine ⟨0, ?_, ?_, .inr ⟨rfl, rfl⟩, rfl, ⟨_, rfl⟩, hr.classified⟩
      · exact hr.held.trans (add_zero _).symm
      · exact fun x hx => absurd hx (Multiset.notMem_zero x)

theorem transmitAll_queuing (g : Gateway) (cls : TxClass) (frames : List (Callsign × AircFrame)) :
    Queuing g (g.transmitAll cls frames) :=
  Queuing.foldl (fun g _ => g.enqueueUi_queuing ..) g frames

theorem drawSeq_queuing (g : Gateway) : Queuing g (g.withSessions g.radio.sessions.drawSeq.2) :=
  SamePath.queuing ⟨rfl, rfl, rfl, _, rfl⟩

theorem withAprs_queuing (g : Gateway) (o : AprsOutbound) : Queuing g (g.withAprs o) :=
  SamePath.queuing ⟨rfl, rfl, rfl, _, rfl⟩

theorem refuse_queuing (g : Gateway) : Queuing g g.refuse :=
  SamePath.queuing ⟨rfl, rfl, rfl, _, rfl⟩

theorem dropped_queuing (g : Gateway) : Queuing g g.dropped :=
  SamePath.queuing ⟨rfl, rfl, rfl, _, rfl⟩

theorem broadcastFlagged_queuing (g : Gateway) (kind : Kind) (payload : List UInt8)
    (cls : TxClass) (flags : UInt8) : Queuing g (g.broadcastFlagged kind payload cls flags) := by
  unfold broadcastFlagged
  split_ifs
  · exact .refl g
  · simp only
    have hseq := g.drawSeq_queuing
    split_ifs
    · exact hseq.trans (dropped_queuing _)
    · exact hseq.trans (refuse_queuing _)
    · exact hseq.trans (refuse_queuing _)
    · exact hseq.trans (transmitAll_queuing _ _ _)

/-- A message for one station is refused beforehand, refused by the session layer, or sent on. -/
theorem unicastFlagged_cases (g : Gateway) (dst : Callsign) (kind : Kind) (payload : List UInt8)
    (reliable : Bool) (cls : TxClass) (flags : UInt8) (now : ℕ) :
    (∃ g', g.unicastFlagged dst kind payload reliable cls flags now = (false, g') ∧
      SamePath g g') ∨
    g.available = true ∧ g.interlockDown = false ∧
      g.backlogHasRoom (g.wireOctets payload.length) cls = true ∧
      (g.queuedBehind dst reliable = false → g.expectedFragments payload ≤ g.txRoomIn cls) ∧
      (((g.radio.sessions.enqueue dst kind payload reliable now).2.accepted = false ∧
        g.unicastFlagged dst kind payload reliable cls flags now =
          (false, g.withSessions (g.radio.sessions.enqueue dst kind payload reliable now).1)) ∨
      (g.radio.sessions.enqueue dst kind payload reliable now).2.accepted = true ∧
        g.unicastFlagged dst kind payload reliable cls flags now =
          (true, (g.withSessions
            (noteAirc (g.radio.sessions.enqueue dst kind payload reliable now).1 dst)).transmitAll
            cls ((g.radio.sessions.enqueue dst kind payload reliable now).2.frames.map
              fun f => (dst, f.withFlags flags)))) := by
  unfold unicastFlagged
  split_ifs with hoff hroom hfew
  · exact .inl ⟨g, rfl, ⟨rfl, rfl, rfl, _, rfl⟩⟩
  · exact .inl ⟨g.refuse, rfl, ⟨rfl, rfl, rfl, _, rfl⟩⟩
  · exact .inl ⟨g.refuse, rfl, ⟨rfl, rfl, rfl, _, rfl⟩⟩
  · refine .inr ⟨by simp_all, by simp_all, by simpa using hroom, ?_, ?_⟩
    · intro hb
      rw [hb] at hfew
      simpa using hfew
    · simp only
      split_ifs with ha
      · exact .inl ⟨by simpa using ha, rfl⟩
      · exact .inr ⟨by simpa using ha, rfl⟩

theorem startAprsChat_queuing (g : Gateway) (dst : Callsign) (text : Text) (cls : TxClass)
    (now : ℕ) : Queuing g (g.startAprsChat dst text cls now).2 := by
  simp only [startAprsChat]
  split_ifs
  · exact (withAprs_queuing _ _).trans (refuse_queuing _)
  · exact ((withAprs_queuing _ _).trans (enqueueUi_queuing _ _ _ _ _ _)).trans (withAprs_queuing _ _)

theorem enqueueAprsChat_queuing (g : Gateway) (dst : Callsign) (text : Text) (cls : TxClass)
    (now : ℕ) : Queuing g (g.enqueueAprsChat dst text cls now).2 := by
  simp only [enqueueAprsChat]
  split_ifs
  · exact .refl g
  · exact .refl g
  · exact refuse_queuing _
  · exact withAprs_queuing _ _
  · exact startAprsChat_queuing _ _ _ _ _

theorem nextAprsChat_queuing (g : Gateway) (dst : Callsign) (now : ℕ) :
    Queuing g (g.nextAprsChat dst now) := by
  unfold nextAprsChat
  split
  · exact .refl g
  · exact withAprs_queuing _ _
  · exact (withAprs_queuing _ _).trans (startAprsChat_queuing _ _ _ _ _)

theorem onAprsAck_queuing (g : Gateway) (src : Callsign) (id : Text) (now : ℕ) :
    Queuing g (g.onAprsAck src id now) := by
  unfold onAprsAck
  split
  · exact .refl g
  · split_ifs
    · exact .refl g
    · exact (withAprs_queuing _ _).trans (nextAprsChat_queuing _ _ _)

theorem retryAprs_queuing (g : Gateway) (call : Callsign) (now : ℕ) :
    Queuing g (g.retryAprs call now) := by
  unfold retryAprs
  split
  · exact .refl g
  · split_ifs
    · exact ((withAprs_queuing _ _).trans (dropped_queuing _)).trans (nextAprsChat_queuing _ _ _)
    · exact (enqueueUi_queuing _ _ _ _ _ _).trans (withAprs_queuing _ _)

theorem tickAprs_queuing (g : Gateway) (now : ℕ) : Queuing g (g.tickAprs now) := by
  unfold tickAprs
  split_ifs
  · exact .refl g
  · exact Queuing.foldl (fun g call => g.retryAprs_queuing call now) g _

/-! ### Identification -/

theorem transmitId_cases (g : Gateway) (dest : Callsign) (frame : AircFrame) :
    (∃ q item octets, item.cls = TransmitScheduler.Class.id ∧ Took item g.pump q ∧
      g.transmitId dest frame = (true, { g with pump := q }.sent octets)) ∨
    ∃ g', Queues 0 g g' ∧ g.transmitId dest frame = (false, g') := by
  have same : Queues 0 g g := SamePath.queues ⟨rfl, rfl, rfl, _, rfl⟩
  unfold transmitId
  split_ifs
  · exact .inr ⟨g, same, rfl⟩
  · cases g.radio.source with
    | none => exact .inr ⟨g, same, rfl⟩
    | some source =>
      simp only
      cases Ax25Frame.ui source dest g.radio.cfg.path frame.encode with
      | none => exact .inr ⟨g, same, rfl⟩
      | some ax =>
        rcases tncEnqueue_cases g.pump ax .id ['i', 'd'] false with ⟨q, h, -, ht⟩ | ⟨q, h, -, hr⟩
        · simp only [h]
          exact .inl ⟨q, _, _, rfl, ht, rfl⟩
        · simp only [h]
          refine .inr ⟨{ g with pump := q }.dropped, ⟨hr.held.trans (add_zero _).symm, ?_,
            .inr ⟨rfl, rfl⟩, rfl, ⟨_, rfl⟩, hr.classified⟩, rfl⟩
          exact fun x hx => absurd hx (Multiset.notMem_zero x)

/-- An identification is queued: the debt is paid. -/
structure Identifies (g g' : Gateway) : Prop where
  held : ∃ item, item.cls = TransmitScheduler.Class.id ∧ g'.pump.held = item ::ₘ g.pump.held
  flag : g'.radio.transmittedSinceId = false
  keyed : g'.keyed = g.keyed
  sessions : Drew g.radio.sessions g'.radio.sessions
  classified : g.pump.scheduler.Classified → g'.pump.scheduler.Classified

theorem sendId_cases (g : Gateway) (now : ℕ) :
    Identifies g (g.sendId now).2 ∨ Queues 0 g (g.sendId now).2 := by
  simp only [sendId]
  rcases transmitId_cases (g.withSessions g.radio.sessions.drawSeq.2) idDestination
    (.new .id g.radio.sessions.drawSeq.1
      (encodeFields [utf8 (g.radio.cfg.callsign ++ ' ' :: g.radio.cfg.idText)])) with
    ⟨q, item, octets, hcls, ht, h⟩ | ⟨g', hq, h⟩
  · simp only [h]
    exact .inl ⟨⟨item, hcls, ht.held⟩, rfl, rfl, ⟨_, rfl⟩, ht.classified⟩
  · simp only [h]
    refine .inr ?_
    have hsame : SamePath g (g.withSessions g.radio.sessions.drawSeq.2) := ⟨rfl, rfl, rfl, _, rfl⟩
    have := hsame.queues.trans hq
    rwa [add_zero] at this

theorem maybeIdentify_cases (g : Gateway) (now : ℕ) :
    Identifies g (g.maybeIdentify now) ∨ Queues 0 g (g.maybeIdentify now) := by
  unfold maybeIdentify
  split_ifs
  · exact .inr (SamePath.queues ⟨rfl, rfl, rfl, _, rfl⟩)
  · exact .inr (SamePath.queues ⟨rfl, rfl, rfl, _, rfl⟩)
  · exact g.sendId_cases now

theorem idIfNeeded_cases (g : Gateway) (now : ℕ) :
    Identifies g (g.idIfNeeded now) ∨ Queues 0 g (g.idIfNeeded now) := by
  unfold idIfNeeded
  split_ifs
  · exact g.sendId_cases now
  · exact .inr (SamePath.queues ⟨rfl, rfl, rfl, _, rfl⟩)

theorem identifyNow_cases (g : Gateway) (now : ℕ) :
    Identifies g (g.identifyNow now).2 ∨ Queues 0 g (g.identifyNow now).2 := by
  have h := g.sendId_cases now
  unfold identifyNow
  split_ifs
  · exact .inr (SamePath.queues ⟨rfl, rfl, rfl, _, rfl⟩)
  · rcases hs : g.sendId now with ⟨- | -, g'⟩ <;> rwa [hs] at h

/-- The inhibit changes nothing that waits. -/
theorem setInhibit_queues (g : Gateway) (b : Bool) : Queues 0 g (g.setInhibit b) := by
  unfold setInhibit
  split_ifs
  · refine ⟨?_, fun x hx => absurd hx (Multiset.notMem_zero x), .inr ⟨rfl, rfl⟩, rfl, ⟨_, rfl⟩, ?_⟩
    · exact (Pump.notifyWaiters_held _).trans (add_zero _).symm
    · intro h
      change (Pump.notifyWaiters _).scheduler.Classified
      rw [Pump.notifyWaiters_scheduler]
      exact h
  · exact SamePath.queues ⟨rfl, rfl, rfl, _, rfl⟩

theorem radioOff_cases (g : Gateway) (now : ℕ) :
    Identifies g (g.radioOff now) ∨ Queues 0 g (g.radioOff now) := by
  have hinhibit := setInhibit_queues
    { g.idIfNeeded now with radio := { (g.idIfNeeded now).radio with enabled := false } } true
  have hflag : (g.radioOff now).radio.transmittedSinceId =
      (g.idIfNeeded now).radio.transmittedSinceId := by
    simp only [radioOff, setInhibit]
    split_ifs <;> rfl
  rcases g.idIfNeeded_cases now with h | h
  · obtain ⟨item, hcls, hheld⟩ := h.held
    refine .inl ⟨⟨item, hcls, ?_⟩, hflag.trans h.flag, hinhibit.keyed.trans h.keyed,
      h.sessions.trans hinhibit.sessions, fun hc => hinhibit.classified (h.classified hc)⟩
    rw [← hheld]
    exact hinhibit.held.trans (add_zero _)
  · have hoff : SamePath (g.idIfNeeded now)
        { g.idIfNeeded now with radio := { (g.idIfNeeded now).radio with enabled := false } } :=
      ⟨rfl, rfl, rfl, _, rfl⟩
    have := (h.trans hoff.queues).trans hinhibit
    rw [add_zero, add_zero] at this
    exact .inr this

theorem radioOn_queues (g : Gateway) : Queues 0 g g.radioOn := by
  unfold radioOn
  split_ifs
  · have hsame : SamePath (g.setInhibit false)
        { g.setInhibit false with radio := { (g.setInhibit false).radio with enabled := true } } :=
      ⟨rfl, rfl, rfl, _, rfl⟩
    have := (g.setInhibit_queues false).trans hsame.queues
    rwa [add_zero] at this
  · exact SamePath.queues ⟨rfl, rfl, rfl, _, rfl⟩

end Gateway

end RadioGateway
