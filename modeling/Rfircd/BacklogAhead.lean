import Rfircd.AprsQueue
import Rfircd.PresenceNotices

/-! The backlog while one message after another is handed to the transmitter.
The scheduler takes frames of a class while it has room for them, and the gauge follows what it
takes; so what each message meets can be said beforehand. -/
namespace BacklogAhead

open Basics Ax25 Airc AircSession KeyedTable MessageText AirTrace AprsCodec RadioGateway
open AirtimeGovernor TransmitPump BacklogAdmission PresenceNotices

variable {g g' : Gateway} {cls : TxClass} {infos : List (List UInt8)}

instance (g : Gateway) : Decidable (Ready g) :=
  decidable_of_iff (g.available = true ∧ g.interlockDown = false ∧ g.radio.source.isSome = true ∧
    g.radio.cfg.path.length ≤ maxDigipeaters)
    ⟨fun h => ⟨h.1, h.2.1, h.2.2.1, h.2.2.2⟩, fun h => ⟨h.available, h.interlock, h.source, h.path⟩⟩

/-- Of the frames with these information fields, those that the scheduler takes. -/
def taken (g : Gateway) (cls : TxClass) (infos : List (List UInt8)) : List (List UInt8) :=
  if Ready g then infos.take (g.txRoomIn cls) else []

/-- What the gauge shows behind them. -/
def backlogAfter (g : Gateway) (cls : TxClass) (infos : List (List UInt8)) : ℕ :=
  if taken g cls infos = [] then g.pump.shared.queued
  else gauged (g.pump.scheduler.queuedAirtime + ((taken g cls infos).map (price g)).sum)

/-- So many octets are admitted behind them. -/
def RoomBehind (g : Gateway) (cls : TxClass) (infos : List (List UInt8)) (octets : ℕ) : Prop :=
  g.radio.tnc = true ∧ ((backlogAfter g cls infos +
    (Governor.new g.pump.cfg.airtime).airtimeFor octets : ℕ) : ℚ) ≤ share g cls

instance (g : Gateway) (cls : TxClass) (infos : List (List UInt8)) (octets : ℕ) :
    Decidable (RoomBehind g cls infos octets) :=
  inferInstanceAs (Decidable (_ ∧ _))

/-- The same transmitter, in the same condition. -/
structure SameTransmitter (g g' : Gateway) : Prop where
  cfg : g'.radio.cfg = g.radio.cfg
  tnc : g'.radio.tnc = g.radio.tnc
  enabled : g'.radio.enabled = g.radio.enabled
  source : g'.radio.source = g.radio.source
  interlock : g'.pump.shared.interlockOk = g.pump.shared.interlockOk
  pump : g'.pump.cfg = g.pump.cfg

theorem SameTransmitter.refl (g : Gateway) : SameTransmitter g g := ⟨rfl, rfl, rfl, rfl, rfl, rfl⟩

theorem SameTransmitter.trans {g'' : Gateway} (h : SameTransmitter g g') (h' : SameTransmitter g' g'') :
    SameTransmitter g g'' :=
  ⟨h'.cfg.trans h.cfg, h'.tnc.trans h.tnc, h'.enabled.trans h.enabled, h'.source.trans h.source,
    h'.interlock.trans h.interlock, h'.pump.trans h.pump⟩

theorem SameTransmitter.available (h : SameTransmitter g g') : g'.available = g.available := by
  rw [Gateway.available, h.enabled, h.tnc]
  rfl

theorem SameTransmitter.interlockDown (h : SameTransmitter g g') :
    g'.interlockDown = g.interlockDown := by
  rw [Gateway.interlockDown, AirtimeShared.interlockFailed, h.interlock, h.tnc]
  rfl

theorem SameTransmitter.ready (h : SameTransmitter g g') : Ready g' ↔ Ready g := by
  constructor
  · intro hready
    exact ⟨h.available ▸ hready.available, h.interlockDown ▸ hready.interlock,
      h.source ▸ hready.source, h.cfg ▸ hready.path⟩
  · intro hready
    exact ⟨h.available.trans hready.available, h.interlockDown.trans hready.interlock,
      h.source.symm ▸ hready.source, h.cfg.symm ▸ hready.path⟩

theorem SameTransmitter.price (h : SameTransmitter g g') : price g' = price g := by
  funext info
  rw [BacklogAdmission.price, BacklogAdmission.price, h.cfg, h.pump]

theorem enqueueUi_same (g : Gateway) (dest : Callsign) (info : List UInt8) (cls : TxClass)
    (expectsReply : Bool) (account : Text) :
    SameTransmitter g (g.enqueueUi dest info cls expectsReply account) := by
  unfold Gateway.enqueueUi
  cases g.transmittable dest info with
  | none => exact .refl g
  | some ax =>
    have hcfg := HandedOver.tncEnqueue_cfg g.pump ax cls.schedulerClass account expectsReply
    dsimp only
    rcases tncEnqueue_cases g.pump ax cls.schedulerClass account expectsReply with
      ⟨q, hq, -, ht⟩ | ⟨q, hq, -, hr⟩
    · rw [hq] at hcfg ⊢
      exact ⟨rfl, rfl, rfl, rfl, ht.interlock, hcfg⟩
    · rw [hq] at hcfg ⊢
      exact ⟨rfl, rfl, rfl, rfl, congrArg AirtimeShared.interlockOk hr.shared, hcfg⟩

/-! ### Frames behind frames -/

/-- The second gateway is the first one behind frames with these information fields. -/
structure Behind (cls : TxClass) (infos : List (List UInt8)) (g g' : Gateway) : Prop
    extends SameTransmitter g g' where
  room : g'.txRoomIn cls = g.txRoomIn cls - (taken g cls infos).length
  queued : g'.pump.scheduler.queuedAirtime =
    g.pump.scheduler.queuedAirtime + ((taken g cls infos).map (BacklogAdmission.price g)).sum
  gauge : g'.pump.shared.queued = backlogAfter g cls infos

theorem taken_nil (g : Gateway) (cls : TxClass) : taken g cls [] = [] := by
  unfold taken
  split_ifs <;> simp

theorem Behind.refl (cls : TxClass) (g : Gateway) : Behind cls [] g g := by
  refine ⟨.refl g, ?_, ?_, ?_⟩
  · rw [taken_nil, List.length_nil, Nat.sub_zero]
  · rw [taken_nil, List.map_nil, List.sum_nil, Nat.add_zero]
  · rw [backlogAfter, if_pos (taken_nil g cls)]

/-- What is not of the transmitter is of no account. -/
theorem Behind.of_pump (h : Behind cls infos g g') {g'' : Gateway} (hradio : SameTransmitter g' g'')
    (hpump : g''.pump = g'.pump) : Behind cls infos g g'' := by
  refine ⟨h.toSameTransmitter.trans hradio, ?_, ?_, ?_⟩
  · rw [← h.room, Gateway.txRoomIn, Gateway.txRoomIn, hradio.tnc, hpump]
  · rw [hpump]
    exact h.queued
  · rw [hpump]
    exact h.gauge

theorem taken_more (g : Gateway) (cls : TxClass) (infos : List (List UInt8)) (info : List UInt8) :
    taken g cls (infos ++ [info]) = taken g cls infos ++
      if Ready g ∧ (taken g cls infos).length < g.txRoomIn cls then [info] else [] := by
  by_cases hready : Ready g
  · unfold taken
    rw [if_pos hready, if_pos hready, List.length_take]
    by_cases hroom : infos.length < g.txRoomIn cls
    · rw [if_pos ⟨hready, by omega⟩, List.take_of_length_le (by simp; omega),
        List.take_of_length_le hroom.le]
    · rw [if_neg (by omega), List.take_append_of_le_length (by omega), List.append_nil]
  · unfold taken
    rw [if_neg hready, if_neg hready, if_neg fun h => hready h.1, List.append_nil]

theorem transmittable_unready (h : ¬ Ready g) (dest : Callsign) (info : List UInt8) :
    g.transmittable dest info = none := by
  by_cases hup : g.available = true ∧ g.interlockDown = false
  · exact transmittable_none h hup.1 hup.2
  · unfold Gateway.transmittable
    cases g.radio.source with
    | none => rfl
    | some source =>
      dsimp only
      rw [if_neg]
      intro hall
      refine hup ⟨?_, ?_⟩
      · simp_all [Gateway.available]
      · simp_all [Gateway.interlockDown]

/-- A frame for a full class changes nothing in the queues. -/
theorem enqueueUi_full (hready : Ready g) (hfull : g.txRoomIn cls = 0) (dest : Callsign)
    (info : List UInt8) (expectsReply : Bool) (account : Text) :
    (g.enqueueUi dest info cls expectsReply account).txRoomIn cls = 0 ∧
      (g.enqueueUi dest info cls expectsReply account).pump.scheduler.queuedAirtime =
        g.pump.scheduler.queuedAirtime ∧
      (g.enqueueUi dest info cls expectsReply account).pump.shared.queued = g.pump.shared.queued := by
  obtain ⟨-, htnc⟩ := Bool.and_eq_true .. |>.mp hready.available
  have hroom : g.pump.scheduler.roomIn cls.schedulerClass = 0 := by
    rwa [Gateway.txRoomIn, if_pos htnc] at hfull
  unfold Gateway.enqueueUi
  cases g.transmittable dest info with
  | none => exact ⟨hfull, rfl, rfl⟩
  | some ax =>
    dsimp only
    rcases tncEnqueue_cases g.pump ax cls.schedulerClass account expectsReply with
      ⟨q, -, hleft, -⟩ | ⟨q, hq, -, hr⟩
    · exact absurd hroom hleft
    · rw [hq]
      have hwaiting : q.scheduler.waiting = g.pump.scheduler.waiting := by
        have hheld := hr.held
        rw [Pump.held, Pump.held, hr.phase] at hheld
        exact add_right_cancel hheld
      refine ⟨?_, ?_, congrArg AirtimeShared.queued hr.shared⟩
      · have hkept : q.scheduler.roomIn cls.schedulerClass = 0 := (hr.room _).trans hroom
        exact (if_pos htnc).trans hkept
      · change q.scheduler.queuedAirtime = _
        rw [TransmitScheduler.Scheduler.queuedAirtime_eq, TransmitScheduler.Scheduler.queuedAirtime_eq,
          hwaiting]

/-- One more frame, which is taken if its class has room. -/
theorem Behind.enqueue (h : Behind cls infos g g') (dest : Callsign) (info : List UInt8)
    (expectsReply : Bool) (account : Text) :
    Behind cls (infos ++ [info]) g (g'.enqueueUi dest info cls expectsReply account) := by
  have hsame := h.toSameTransmitter.trans (enqueueUi_same g' dest info cls expectsReply account)
  by_cases htakes : Ready g ∧ (taken g cls infos).length < g.txRoomIn cls
  · obtain ⟨hready, hroom⟩ := htakes
    have hleft : 0 < g'.txRoomIn cls := by rw [h.room]; omega
    obtain ⟨hcharged, hless, hgauge, -⟩ :=
      enqueueUi_charged (h.ready.mpr hready) cls hleft dest info expectsReply account
    have hmore : taken g cls (infos ++ [info]) = taken g cls infos ++ [info] := by
      rw [taken_more, if_pos ⟨hready, hroom⟩]
    have hairtime : (g'.enqueueUi dest info cls expectsReply account).pump.scheduler.queuedAirtime =
        g.pump.scheduler.queuedAirtime +
          ((taken g cls (infos ++ [info])).map (BacklogAdmission.price g)).sum := by
      rw [hcharged.queued, h.queued, h.toSameTransmitter.price, hmore, List.map_append, List.sum_append,
        List.map_singleton, List.sum_singleton, add_assoc]
    refine ⟨hsame, ?_, hairtime, ?_⟩
    · rw [hless, h.room, hmore, List.length_append, List.length_singleton]
      omega
    · rw [hgauge, hairtime, backlogAfter, if_neg]
      rw [hmore]
      exact List.append_ne_nil_of_right_ne_nil _ (List.cons_ne_nil _ _)
  · have hmore : taken g cls (infos ++ [info]) = taken g cls infos := by
      rw [taken_more, if_neg htakes, List.append_nil]
    have hkept : Behind cls infos g (g'.enqueueUi dest info cls expectsReply account) := by
      by_cases hready : Ready g
      · have hfull : g'.txRoomIn cls = 0 := by
          rw [h.room]
          have hall := not_lt.mp fun hroom => htakes ⟨hready, hroom⟩
          omega
        obtain ⟨hnone, hsum, hsays⟩ :=
          enqueueUi_full (h.ready.mpr hready) hfull dest info expectsReply account
        exact ⟨hsame, hnone.trans (hfull.symm.trans h.room), hsum.trans h.queued,
          hsays.trans h.gauge⟩
      · rw [Gateway.enqueueUi, transmittable_unready fun hready' => hready (h.ready.mp hready')]
        exact h
    refine ⟨hkept.toSameTransmitter, ?_, ?_, ?_⟩
    · rw [hmore]
      exact hkept.room
    · rw [hmore]
      exact hkept.queued
    · rw [backlogAfter, hmore]
      exact hkept.gauge

theorem Behind.transmitAll (h : Behind cls infos g g') (frames : List (Callsign × AircFrame)) :
    Behind cls (infos ++ frames.map fun e => e.2.encode) g (g'.transmitAll cls frames) := by
  induction frames generalizing infos g' with
  | nil =>
    rw [List.map_nil, List.append_nil]
    exact h
  | cons e frames ih =>
    have hone := h.enqueue e.1 e.2.encode e.2.wantsAck (callText e.1)
    rw [List.map_cons, List.append_cons]
    exact ih hone

/-- The test of admission is one of what waits already. -/
theorem Behind.backlogHasRoom (h : Behind cls infos g g') (octets : ℕ) :
    g'.backlogHasRoom octets cls = true ↔ RoomBehind g cls infos octets := by
  unfold Gateway.backlogHasRoom RoomBehind share
  rw [Bool.and_eq_true, decide_eq_true_iff, h.tnc, h.gauge, h.pump, h.cfg]

/-! ### What the layers below answer -/

/-- The layer below takes what it is given: the scheduler every frame for everyone, the session layer
a message for a station, and the queue of APRS messages a message for an APRS radio. -/
def Accepted (g : Gateway) : RadioOp → Prop
  | .broadcast b => Multiset.card (perform g (.broadcast b)).pump.held =
      Multiset.card g.pump.held + (g.broadcastChunks b.payload).length
  | .unicast dst x now =>
    (g.unicastFlagged dst x.kind (x.payload dst) x.reliable x.cls x.flags now).1 = true
  | .aprsChat dst body channel now =>
    (g.enqueueAprsChat dst body (chatClass channel) now).1 = true
  | _ => True

instance (g : Gateway) (op : RadioOp) : Decidable (Accepted g op) := by
  induction op using RadioOp.casesOn <;> dsimp only [Accepted] <;> infer_instance

/-- A message for everyone, of the class of chat. -/
def toEveryone (b : Broadcast) : Sending := .broadcast b.kind b.payload .chat b.flags

theorem broadcast_accepted_iff (g : Gateway) (b : Broadcast) :
    Accepted g (.broadcast b) ↔ Admitted g (toEveryone b) := by
  have hpos := broadcastChunks_pos g b.payload
  rcases broadcastFlagged_cases g b.kind b.payload .chat b.flags with ⟨hno, hheld⟩ | ⟨hyes, hmore⟩
  · refine iff_of_false (fun haccepted => ?_) hno
    have hsame := haccepted.symm.trans (congrArg Multiset.card hheld)
    omega
  · exact iff_of_true hmore hyes

/-- There is room for a message to a station: in the backlog, in the queue of frames unless it waits
behind another one, and with the session layer. -/
structure StationRoom (g : Gateway) (dst : Callsign) (x : Addressed) : Prop where
  backlog : g.backlogHasRoom (g.wireOctets (x.payload dst).length) x.cls = true
  frames : g.queuedBehind dst x.reliable = true ∨
    g.expectedFragments (x.payload dst) ≤ g.txRoomIn x.cls
  session : g.radio.sessions.accepts dst (x.payload dst) x.reliable = true

theorem unicast_accepted_iff (havailable : g.available = true) (hinterlock : g.interlockDown = false)
    (dst : Callsign) (x : Addressed) (now : ℕ) :
    Accepted g (.unicast dst x now) ↔ StationRoom g dst x := by
  have hsession := g.radio.sessions.enqueue_accepted dst x.kind (x.payload dst) x.reliable now
  change (g.unicastFlagged dst x.kind (x.payload dst) x.reliable x.cls x.flags now).1 = true ↔ _
  rw [Gateway.unicastFlagged, havailable, hinterlock, if_neg (by decide)]
  by_cases hbacklog : g.backlogHasRoom (g.wireOctets (x.payload dst).length) x.cls = true
  · rw [if_neg (by simp [hbacklog])]
    by_cases hframes : g.queuedBehind dst x.reliable = true ∨
        g.expectedFragments (x.payload dst) ≤ g.txRoomIn x.cls
    · rw [if_neg (by simpa [or_iff_not_imp_left] using hframes)]
      dsimp only
      rw [hsession]
      cases hroom : g.radio.sessions.accepts dst (x.payload dst) x.reliable with
      | true => exact iff_of_true rfl ⟨hbacklog, hframes, hroom⟩
      | false => exact iff_of_false (by simp) fun h => by cases hroom.symm.trans h.session
    · rw [if_pos (by simpa [or_iff_not_imp_left] using hframes)]
      exact iff_of_false (by simp) fun h => hframes h.frames
  · rw [if_pos (by simpa using hbacklog)]
    exact iff_of_false (by simp) fun h => hbacklog h.backlog

/-! ### Messages to APRS radios -/

/-- The first messages to stations that have none in flight, each with a number of its own. -/
def firsts (body : Text) : AprsOutbound → List Callsign → List (List UInt8)
  | _, [] => []
  | o, call :: calls =>
    messageInfo call (body.take 67) o.nextMsgid.1 :: firsts body o.nextMsgid.2 calls

/-- Each is admitted behind what was there and those before it. -/
def Fit (g : Gateway) (cls : TxClass) : List (List UInt8) → List (List UInt8) → Prop
  | _, [] => True
  | ahead, info :: infos =>
    RoomBehind g cls ahead (info.length + 20) ∧ Fit g cls (ahead ++ [info]) infos

/-- The stations that have no message in flight. -/
def idleStations (g : Gateway) (calls : List Callsign) : List Callsign :=
  calls.filter fun c => (AprsQueue.inFlight c g).isNone

/-- There is room for a message to each of these stations: in the queue of one that has a message in
flight, and in the backlog for the others. -/
structure AprsRoom (g : Gateway) (cls : TxClass) (ahead : List (List UInt8)) (body : Text)
    (calls : List Callsign) : Prop where
  waiting : ∀ c ∈ calls, (AprsQueue.inFlight c g).isSome = true →
    (AprsQueue.waiting c g).length < Gateway.aprsWaitingMax
  backlog : Fit g cls ahead (firsts body g.radio.aprsOut (idleStations g calls))

/-- Only the last number counts. -/
theorem firsts_congr (body : Text) {o o' : AprsOutbound} (h : o'.nextId = o.nextId)
    (calls : List Callsign) : firsts body o' calls = firsts body o calls := by
  induction calls generalizing o o' with
  | nil => rfl
  | cons call calls ih =>
    have hid : o'.nextMsgid.1 = o.nextMsgid.1 := by
      unfold AprsOutbound.nextMsgid
      rw [h]
    have hnext : o'.nextMsgid.2.nextId = o.nextMsgid.2.nextId := by
      unfold AprsOutbound.nextMsgid
      rw [h]
    rw [firsts, firsts, hid, ih hnext]

theorem idleStations_congr {calls : List Callsign}
    (h : ∀ c ∈ calls, AprsQueue.inFlight c g' = AprsQueue.inFlight c g) :
    idleStations g' calls = idleStations g calls :=
  List.filter_congr fun c hc => by rw [h c hc]

theorem idleStations_cons (g : Gateway) (call : Callsign) (calls : List Callsign) :
    idleStations g (call :: calls) = if (AprsQueue.inFlight call g).isSome then idleStations g calls
      else call :: idleStations g calls := by
  unfold idleStations
  rw [List.filter_cons]
  cases AprsQueue.inFlight call g <;> rfl

section

variable {call : Callsign} {body : Text} {ahead : List (List UInt8)} (h : Behind cls ahead g g')
  (havailable : g'.available = true) (hinterlock : g'.interlockDown = false) (hbody : body ≠ [])

include h havailable hinterlock hbody

/-- A message waits behind the one in flight, if not too many wait there. -/
theorem chat_busy (hbusy : (AprsQueue.inFlight call g').isSome = true) (now : ℕ) :
    ((AprsQueue.waiting call g').length < Gateway.aprsWaitingMax ∧
      (g'.enqueueAprsChat call body cls now).1 = true ∧
      Behind cls ahead g (g'.enqueueAprsChat call body cls now).2 ∧
      (g'.enqueueAprsChat call body cls now).2.radio.aprsOut.nextId = g'.radio.aprsOut.nextId) ∨
    (¬ (AprsQueue.waiting call g').length < Gateway.aprsWaitingMax ∧
      (g'.enqueueAprsChat call body cls now).1 = false) := by
  have htext : body.take 67 ≠ [] := by simp [hbody]
  have hpending : (g'.radio.aprsOut.pending.get call).isSome = true := hbusy
  simp only [Gateway.enqueueAprsChat, havailable, hinterlock, htext, hpending, Bool.not_true,
    Bool.or_self, Bool.false_eq_true, if_false, if_true]
  by_cases hfull : Gateway.aprsWaitingMax ≤ ((g'.radio.aprsOut.waiting.get call).getD []).length
  · rw [if_pos hfull]
    exact .inr ⟨not_lt.mpr hfull, rfl⟩
  · rw [if_neg hfull]
    exact .inl ⟨not_le.mp hfull, rfl, h.of_pump ⟨rfl, rfl, rfl, rfl, rfl, rfl⟩ rfl, rfl⟩

/-- The first message to a station goes out, if the backlog has room for it. -/
theorem chat_idle (hidle : (AprsQueue.inFlight call g').isSome = false) (now : ℕ) :
    let info := messageInfo call (body.take 67) g'.radio.aprsOut.nextMsgid.1
    (RoomBehind g cls ahead (info.length + 20) ∧
      (g'.enqueueAprsChat call body cls now).1 = true ∧
      Behind cls (ahead ++ [info]) g (g'.enqueueAprsChat call body cls now).2 ∧
      (g'.enqueueAprsChat call body cls now).2.radio.aprsOut.nextId =
        g'.radio.aprsOut.nextMsgid.2.nextId) ∨
    (¬ RoomBehind g cls ahead (info.length + 20) ∧
      (g'.enqueueAprsChat call body cls now).1 = false) := by
  intro info
  have htext : body.take 67 ≠ [] := by simp [hbody]
  have hpending : (g'.radio.aprsOut.pending.get call).isSome = false := hidle
  have hdrawn : Behind cls ahead g (g'.withAprs g'.radio.aprsOut.nextMsgid.2) :=
    h.of_pump ⟨rfl, rfl, rfl, rfl, rfl, rfl⟩ rfl
  have hroom := hdrawn.backlogHasRoom (info.length + 20)
  have hsent := hdrawn.enqueue aprsDestination info false (callText call)
  have hnext := HandedOver.enqueueUi_aprsOut (g'.withAprs g'.radio.aprsOut.nextMsgid.2)
    aprsDestination info cls false (callText call)
  simp only [Gateway.enqueueAprsChat, havailable, hinterlock, htext, hpending, Bool.not_true,
    Bool.or_self, Bool.false_eq_true, if_false, Gateway.startAprsChat]
  by_cases hfits : (g'.withAprs g'.radio.aprsOut.nextMsgid.2).backlogHasRoom (info.length + 20) cls =
      true
  · rw [if_neg (by simpa using hfits)]
    exact .inl ⟨hroom.mp hfits, rfl, hsent.of_pump ⟨rfl, rfl, rfl, rfl, rfl, rfl⟩ rfl,
      (congrArg AprsOutbound.nextId hnext :)⟩
  · rw [if_pos (by simpa using hfits)]
    exact .inr ⟨fun hbehind => hfits (hroom.mpr hbehind), rfl⟩

end

/-- One message after another is taken exactly if there was room for all of them beforehand. -/
theorem chats_accepted_iff (channel : Bool) {body : Text} (hbody : body ≠ []) (now : ℕ)
    {ahead : List (List UInt8)} {calls : List Callsign} (hnodup : calls.Nodup)
    (h : Behind (chatClass channel) ahead g g') (havailable : g'.available = true)
    (hinterlock : g'.interlockDown = false) :
    (∀ e ∈ Air.befores g' (calls.map fun c => .aprsChat c body channel now), Accepted e.1 e.2) ↔
      (∀ c ∈ calls, (AprsQueue.inFlight c g').isSome = true →
        (AprsQueue.waiting c g').length < Gateway.aprsWaitingMax) ∧
      Fit g (chatClass channel) ahead (firsts body g'.radio.aprsOut (idleStations g' calls)) := by
  induction calls generalizing ahead g' with
  | nil => simp [Air.befores, idleStations, firsts, Fit]
  | cons call calls ih =>
    obtain ⟨hnew, hnodup⟩ := List.nodup_cons.mp hnodup
    have hlane : ∀ c ∈ calls, AprsQueue.SameLane c g'
        (g'.enqueueAprsChat call body (chatClass channel) now).2 :=
      fun c hc => AprsQueue.enqueueAprsChat_lane g' body _ now fun heq => hnew (heq ▸ hc)
    have hflight : ∀ c ∈ calls, AprsQueue.inFlight c
        (g'.enqueueAprsChat call body (chatClass channel) now).2 = AprsQueue.inFlight c g' :=
      fun c hc => (hlane c hc).inFlight
    have hwaiting : (∀ c ∈ calls, (AprsQueue.inFlight c
        (g'.enqueueAprsChat call body (chatClass channel) now).2).isSome = true →
          (AprsQueue.waiting c (g'.enqueueAprsChat call body (chatClass channel) now).2).length <
            Gateway.aprsWaitingMax) ↔
        ∀ c ∈ calls, (AprsQueue.inFlight c g').isSome = true →
          (AprsQueue.waiting c g').length < Gateway.aprsWaitingMax :=
      forall₂_congr fun c hc => by rw [hflight c hc, (hlane c hc).queue]
    rw [List.map_cons, Air.befores, List.forall_mem_cons, List.forall_mem_cons, idleStations_cons]
    cases hbusy : (AprsQueue.inFlight call g').isSome with
    | true =>
      rcases chat_busy h havailable hinterlock hbody hbusy now with
        ⟨hroom, htaken, hbehind, hid⟩ | ⟨hfull, hrefused⟩
      · have hrest := ih hnodup hbehind (hbehind.available.trans (h.available.symm.trans havailable))
          (hbehind.interlockDown.trans (h.interlockDown.symm.trans hinterlock))
        rw [hwaiting, idleStations_congr hflight, firsts_congr body hid] at hrest
        rw [if_pos rfl]
        constructor
        · rintro ⟨-, hall⟩
          obtain ⟨hothers, hfit⟩ := hrest.mp hall
          exact ⟨⟨fun _ => hroom, hothers⟩, hfit⟩
        · rintro ⟨⟨-, hothers⟩, hfit⟩
          exact ⟨htaken, hrest.mpr ⟨hothers, hfit⟩⟩
      · refine iff_of_false (fun hall => ?_) fun hall => hfull (hall.1.1 rfl)
        exact absurd (hrefused.symm.trans hall.1) (by decide)
    | false =>
      rcases chat_idle h havailable hinterlock hbody hbusy now with
        ⟨hroom, htaken, hbehind, hid⟩ | ⟨hfull, hrefused⟩
      · have hrest := ih hnodup hbehind (hbehind.available.trans (h.available.symm.trans havailable))
          (hbehind.interlockDown.trans (h.interlockDown.symm.trans hinterlock))
        rw [hwaiting, idleStations_congr hflight, firsts_congr body hid] at hrest
        rw [if_neg (by decide), firsts, Fit]
        constructor
        · rintro ⟨-, hall⟩
          obtain ⟨hothers, hfit⟩ := hrest.mp hall
          exact ⟨⟨fun hsome => absurd hsome (by decide), hothers⟩, hroom, hfit⟩
        · rintro ⟨⟨-, hothers⟩, -, hfit⟩
          exact ⟨htaken, hrest.mpr ⟨hothers, hfit⟩⟩
      · refine iff_of_false (fun hall => ?_) fun hall => hfull hall.2.1
        exact absurd (hrefused.symm.trans hall.1) (by decide)

end BacklogAhead
