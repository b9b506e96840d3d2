import Rfircd.HandedOver
import Rfircd.ServerRuns

/-! The acknowledgement class goes first, never expires and is not rationed.
What is handed to the scheduler in it is to be an acknowledgement, and nothing else. -/
namespace AckClass

open Basics Airc AircSession KeyedTable Ax25 TransmitScheduler TransmitPump RadioGateway
open AprsCodec AirTrace HandedOver ServerCore

/-- An AIRC `ACK`, or an APRS `ack` or `rej`. -/
def IsAcknowledgement (info : List UInt8) : Prop :=
  (∃ f : AircFrame, f.kind = .ack ∧ info = f.encode) ∨
    ∃ dst id, info = ackInfo dst id ∨ info = rejInfo dst id

/-- What waits or is in hand in the acknowledgement class is an acknowledgement. -/
def OnlyAcks (g : Gateway) : Prop :=
  ∀ x ∈ g.pump.held, x.cls = .ack → IsAcknowledgement x.payload.info

/-! ### When a received frame lets messages go -/

/-- The acknowledgement completes the message in flight and another one waits, or it reports
fragments for the first time. -/
def letsGo (p : Peer) (seq : UInt16) (bitmap : Option (List UInt8)) : Prop :=
  ∃ pending ∈ p.pending, pending.seq? = some seq ∧
    (pending.completedBy bitmap = true ∧ p.queue ≠ [] ∨
      pending.completedBy bitmap = false ∧
        (pending.mark (bitmap.getD [])).acked ≠ pending.acked)

/-- What a frame acknowledges, first on its back and then in its payload. -/
def Releases (p : Peer) (f : AircFrame) : Prop :=
  let p := helloReset p.noteAirc f
  (∃ seq ∈ f.piggybackSeq, letsGo p seq none) ∨
    f.kind = .ack ∧ ∃ a ∈ parseAckPayload f.payload, letsGo (applyPiggyback p f).1 a.1 a.2

def takesFrames (g : Gateway) : Bool :=
  g.radio.source.isSome && g.radio.tnc && g.radio.enabled && !g.pump.shared.interlockFailed &&
    decide (g.radio.cfg.path.length ≤ maxDigipeaters)

/-- A received frame lets no message go while the transmitter takes frames. -/
def Holds (g : Gateway) : RadioOp → Prop
  | .receive src f now _ =>
    takesFrames g = true → ∀ p ∈ g.radio.sessions.touched src now, ¬ Releases p f
  | _ => True

instance (p : Peer) (seq : UInt16) (bitmap : Option (List UInt8)) :
    Decidable (letsGo p seq bitmap) :=
  inferInstanceAs (Decidable (∃ pending ∈ p.pending, _))

instance (p : Peer) (f : AircFrame) : Decidable (Releases p f) :=
  inferInstanceAs (Decidable (_ ∨ _ ∧ ∃ a ∈ parseAckPayload f.payload, _))

instance (g : Gateway) (op : RadioOp) : Decidable (Holds g op) := by
  cases op <;> unfold Holds <;> infer_instance

theorem applyAck_quiet {p : Peer} {seq : UInt16} {bitmap : Option (List UInt8)}
    (h : ¬ letsGo p seq bitmap) : (applyAck p seq bitmap).2 = [] := by
  rcases applyAck_cases p seq bitmap with ⟨ha, -⟩ | ⟨pd, bits, hp, hs, rfl, hc, -, ha⟩ |
      ⟨pd, hp, hs, hc, ha⟩
  · rw [ha]
  · by_cases hm : (pd.mark bits).acked = pd.acked
    · unfold applyAck
      simp [hp, hs, hc, hm]
    · exact absurd ⟨pd, hp, hs, .inr ⟨hc, hm⟩⟩ h
  · rw [ha]
    cases hq : p.queue with
    | nil => simp [releasePending, hq]
    | cons next rest => exact absurd ⟨pd, hp, hs, .inl ⟨hc, by simp [hq]⟩⟩ h

theorem applyPiggyback_quiet {p : Peer} {f : AircFrame}
    (h : ∀ seq ∈ f.piggybackSeq, ¬ letsGo p seq none) : (applyPiggyback p f).2 = [] := by
  unfold applyPiggyback
  cases hs : f.piggybackSeq with
  | none => rfl
  | some seq => exact applyAck_quiet (h seq hs)

theorem receive_quiet {cfg : SessionConfig} {p : Peer} {f : AircFrame} {now : ℕ} {forUs : Bool}
    (h : ¬ Releases p f) : (p.receive cfg f now forUs).2.transmit = [] := by
  obtain ⟨hpiggy, hack⟩ := not_or.mp h
  have hreleased : (applyPiggyback (helloReset p.noteAirc f) f).2 = [] :=
    applyPiggyback_quiet fun seq hs hl => hpiggy ⟨seq, hs, hl⟩
  simp only [Peer.receive]
  split_ifs with hk
  · cases ha : parseAckPayload f.payload with
    | none => exact hreleased
    | some a =>
      have hnext := applyAck_quiet fun hl => hack ⟨hk, a, ha, hl⟩
      simp only [hreleased, List.nil_append]
      exact hnext
  · exact hreleased

/-! ### What an operation hands over -/

theorem transmittable_info {g : Gateway} {dest : Callsign} {info : List UInt8} {ax : Ax25Frame}
    (h : g.transmittable dest info = some ax) : ax.info = info ∧ takesFrames g = true := by
  unfold Gateway.transmittable at h
  cases hs : g.radio.source with
  | none => simp [hs] at h
  | some source =>
    simp only [hs, Ax25Frame.ui] at h
    split_ifs at h with htakes hpath
    obtain rfl := Option.some.inj h
    refine ⟨rfl, ?_⟩
    simp only [takesFrames, hs, Option.isSome_some, Bool.true_and, Bool.and_eq_true,
      decide_eq_true_eq] at htakes ⊢
    exact ⟨htakes, by omega⟩

/-- A frame of the class that carries an acknowledgement. -/
def Fits (cls : TransmitScheduler.Class) (ax : Ax25Frame) : Prop :=
  cls = .ack → IsAcknowledgement ax.info

theorem makes_acknowledgement {path : List Callsign} {info : List UInt8} (h : IsAcknowledgement info)
    (cls : TransmitScheduler.Class) : Makes Fits path cls info := by
  intro source dest ax hui _
  unfold Ax25Frame.ui at hui
  split_ifs at hui
  obtain rfl := Option.some.inj hui
  exact h

theorem makes_otherClass {path : List Callsign} {cls : TransmitScheduler.Class} (h : cls ≠ .ack)
    (info : List UInt8) : Makes Fits path cls info := fun _ _ _ _ hcls => absurd hcls h

theorem hands_of_holds {g : Gateway} {op : RadioOp} (h : Holds g op) : Hands Fits g op := by
  cases op with
  | broadcast b => exact fun f _ => makes_otherClass (by decide) _
  | unicast dst m now =>
    have hcls : m.cls.schedulerClass ≠ .ack := by cases m <;> simp [Addressed.cls, TxClass.schedulerClass]
    exact fun f _ => makes_otherClass hcls _
  | aprsChat dst body channel now => exact fun id _ => makes_otherClass (by cases channel <;> decide) _
  | aprsAck dst msgid => exact makes_acknowledgement (.inr ⟨dst, msgid, .inl rfl⟩) _
  | aprsRej dst msgid => exact makes_acknowledgement (.inr ⟨dst, msgid, .inr rfl⟩) _
  | aprsReply dst text => exact makes_otherClass (by decide) _
  | receive src f now forUs =>
    intro next hnext ax hax
    have htakes := (transmittable_info hax).2
    have hquiet : (g.radio.sessions.onReceive src f now forUs).2.transmit = [] := by
      unfold Sessions.onReceive
      cases ht : g.radio.sessions.touched src now with
      | none => rfl
      | some p => exact receive_quiet (h htakes p ht)
    rw [hquiet] at hnext
    exact absurd hnext List.not_mem_nil
  | drainAcks =>
    intro e he
    refine makes_acknowledgement (.inl ⟨e.2, ?_, rfl⟩) _
    obtain ⟨call, frame⟩ := e
    obtain ⟨p, owed, -, -, rfl⟩ := Sessions.mem_drainAcks he
    unfold OwedAck.toFrame
    split <;> rfl
  | tickSessions now => exact fun e _ => makes_otherClass (by decide) _
  | maybeIdentify | idIfNeeded | identifyNow | radioOff =>
    exact fun seq => makes_otherClass (by decide) _
  | aprsAnswered | touch | note | ban | liftBan | forget | takeEvicted | refuse | drainKeyed
  | tickAprs | radioOn | limitDuty | limitPacing | pump => exact trivial

/-- Whatever the server did with its radio: as long as no received frame let a message go, the
acknowledgement class carried acknowledgements only, between all its operations and now. -/
theorem ack_class_only_acknowledgements (s : Server)
    (hholds : ∀ e ∈ s.outlet.air.steps, Holds e.1 e.2) :
    (∀ e ∈ s.outlet.air.steps, OnlyAcks e.1) ∧ OnlyAcks s.outlet.gateway := by
  have hstep : ∀ g op, Holds g op → Keeps Fits s.outlet.air.cfg s.outlet.air.tnc g →
      Keeps Fits s.outlet.air.cfg s.outlet.air.tnc (AirTrace.perform g op) :=
    fun g op hop h => perform_keeps h (hands_of_holds hop)
  have hstart : Keeps Fits s.outlet.air.cfg s.outlet.air.tnc s.outlet.air.start := keeps_start ..
  constructor
  · intro e he
    exact (Air.preserved_throughout hstep s.outlet.air.performed _ hholds hstart e he).held
  · have hlast := Air.preserved hstep s.outlet.air.performed _ hholds hstart
    unfold ServerOutput.Outlet.gateway
    rw [s.outlet.air.faithful]
    exact hlast.held

/-- The mark of an acknowledgement: the kind of an AIRC frame, or the colon of an APRS message. -/
theorem IsAcknowledgement.marked {info : List UInt8} (h : IsAcknowledgement info) :
    info[2]? = some Kind.ack.code ∨ info[0]? = some 0x3A := by
  rcases h with ⟨f, hf, rfl⟩ | ⟨dst, id, rfl | rfl⟩
  · left
    simp [AircFrame.encode, hf]
  · right
    rfl
  · right
    rfl

theorem not_onlyAcks {g : Gateway}
    (h : ∃ x ∈ g.pump.scheduler.queues .ack, x.cls = .ack ∧
      ¬ (x.payload.info[2]? = some Kind.ack.code ∨ x.payload.info[0]? = some 0x3A)) :
    ¬ OnlyAcks g := by
  obtain ⟨x, hx, hcls, hother⟩ := h
  intro honly
  have hheld : x ∈ g.pump.held :=
    Multiset.mem_add.mpr (.inl (Scheduler.mem_waiting.mpr ⟨_, hx⟩))
  exact hother (honly x hheld hcls).marked

open ServerRuns TransitionSystem in
/-- A station says hello, joins, and acknowledges the welcome: the reply to its `JOIN` goes out in
the acknowledgement class. -/
theorem released_message_in_ack_class : ∃ s : Server,
    Reachable (system Small.noBeacon Eq) everyStep s ∧ ¬ OnlyAcks s.outlet.gateway := by
  let es := [Small.airc Small.station .hello 1 ["SM0ABC".toList],
    Small.airc Small.station .join 2 ["#rf".toList],
    Small.frame Small.station (ackFor 1).encode]
  have hruns : Small.Feasible es := by decide +kernel
  exact ⟨Small.run es, Small.reachable hruns, not_onlyAcks (by decide +kernel)⟩

/-- The same run up to the acknowledgement. -/
def greeted : Server :=
  ServerRuns.Small.run [ServerRuns.Small.airc ServerRuns.Small.station .hello 1 ["SM0ABC".toList],
    ServerRuns.Small.airc ServerRuns.Small.station .join 2 ["#rf".toList]]

theorem ack_class_only_acknowledgements_greeted : OnlyAcks greeted.outlet.gateway :=
  (ack_class_only_acknowledgements greeted (by decide +kernel)).2

end AckClass
