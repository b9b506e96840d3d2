import Rfircd.FragmentSizes

/-! What a message is admitted for, and what the queue is charged for it.
The admission test prices one long frame; every frame has a key-up and a header of its own. -/
namespace BacklogAdmission

open Basics Ax25 Airc AircSession KeyedTable RadioGateway AirtimeGovernor TransmitScheduler
open TransmitPump FragmentSizes RoundTrip

/-- A message for everyone, or for one station. -/
inductive Sending where
  | broadcast (kind : Kind) (payload : List UInt8) (cls : TxClass) (flags : UInt8)
  | unicast (dst : Callsign) (kind : Kind) (payload : List UInt8) (reliable : Bool) (cls : TxClass)
      (flags : UInt8) (now : ℕ)

namespace Sending

def payload : Sending → List UInt8
  | broadcast _ payload _ _ | unicast _ _ payload _ _ _ _ => payload

def cls : Sending → TxClass
  | broadcast _ _ cls _ | unicast _ _ _ _ cls _ _ => cls

def send (x : Sending) (g : Gateway) : Gateway :=
  match x with
  | broadcast kind payload cls flags => g.broadcastFlagged kind payload cls flags
  | unicast dst kind payload reliable cls flags now =>
    (g.unicastFlagged dst kind payload reliable cls flags now).2

/-- The frames that go out at once. -/
def frames (x : Sending) (g : Gateway) : List (Callsign × AircFrame) :=
  match x with
  | broadcast kind payload _ flags =>
    (Gateway.broadcastFrames kind g.radio.sessions.drawSeq.1 (g.broadcastChunks payload) flags).map
      (g.radio.cfg.destination, ·)
  | unicast dst kind payload reliable _ flags now =>
    (g.radio.sessions.enqueue dst kind payload reliable now).2.frames.map fun f =>
      (dst, f.withFlags flags)

end Sending

variable {g g' : Gateway} {x : Sending}

/-- What a frame with this information field is charged. -/
def price (g : Gateway) (info : List UInt8) : ℕ :=
  (Governor.new g.pump.cfg.airtime).airtimeFor
    (addressLen * (2 + g.radio.cfg.path.length) + 2 + info.length)

def charged (g : Gateway) (frames : List (Callsign × AircFrame)) : ℕ :=
  (frames.map fun e => price g e.2.encode).sum

/-- What the admission test reckons with. -/
def reckoned (g : Gateway) (x : Sending) : ℕ :=
  (Governor.new g.pump.cfg.airtime).airtimeFor (g.wireOctets x.payload.length)

/-- The class's share of the backlog budget. -/
def share (g : Gateway) (cls : TxClass) : ℚ := g.radio.cfg.maxQueuedAirtime * cls.allowance

/-- The airtime of the frames that wait, in whole milliseconds. -/
def gauged (airtime : ℕ) : ℕ := millis (airtime / millis 1)

/-- The transmitter takes frames. -/
structure Ready (g : Gateway) : Prop where
  available : g.available = true
  interlock : g.interlockDown = false
  source : g.radio.source.isSome = true
  path : g.radio.cfg.path.length ≤ maxDigipeaters

/-- The test accepts the message, it goes out at once, and every frame of it is enqueued. -/
structure Admitted (g : Gateway) (x : Sending) : Prop extends Ready g where
  backlog : g.backlogHasRoom (g.wireOctets x.payload.length) x.cls = true
  atOnce : x.frames g ≠ []
  few : (x.frames g).length ≤ 255
  room : (x.frames g).length ≤ g.txRoomIn x.cls

/-- What waits after the message was enqueued is within the share, and the frames were charged no
more than was reckoned with. -/
structure Within (g : Gateway) (x : Sending) : Prop where
  share : ((x.send g).pump.shared.queued : ℚ) ≤ share g x.cls
  charged : charged g (x.frames g) ≤ reckoned g x

/-! ### What the queue is charged -/

/-- A gateway that takes frames as the first one does, with so much more in the queue. -/
structure Charged (airtime : ℕ) (g g' : Gateway) : Prop extends Ready g' where
  cfg : g'.radio.cfg = g.radio.cfg
  tnc : g'.pump.cfg = g.pump.cfg
  queued : g'.pump.scheduler.queuedAirtime = g.pump.scheduler.queuedAirtime + airtime

theorem tncEnqueue_gauge {p q : Pump} {frame : Ax25Frame} {cls : TransmitScheduler.Class}
    {account : Text} {expectsReply : Bool}
    (h : tncEnqueue p frame cls account expectsReply = (true, q)) :
    q.cfg = p.cfg ∧ q.scheduler.queuedAirtime = p.scheduler.queuedAirtime +
        (queuedItem p frame cls account expectsReply).cost ∧
      q.shared.queued = gauged q.scheduler.queuedAirtime := by
  unfold tncEnqueue at h
  generalize queuedItem p frame cls account expectsReply = item at h ⊢
  have hwaiting := p.scheduler.push_waiting item
  simp only [Pump.next, Scheduler.push] at h hwaiting
  by_cases hfull : p.scheduler.cfg.depth item.cls ≤ (p.scheduler.queues item.cls).length
  · simp only [if_pos hfull] at h
    cases h
  · simp only [if_neg hfull] at h hwaiting
    obtain rfl := (Prod.mk.inj h).2
    refine ⟨?_, ?_, ?_⟩
    · unfold Pump.notifyWaiters
      split <;> rfl
    · rw [Pump.notifyWaiters_scheduler, Scheduler.queuedAirtime_eq, Scheduler.queuedAirtime_eq,
        Pump.publish_scheduler, hwaiting, Multiset.map_cons, Multiset.sum_cons, add_comm]
    · rw [notifyWaiters_shared, Pump.notifyWaiters_scheduler]
      rfl

theorem enqueueUi_charged (h : Ready g) (cls : TxClass) (hroom : 0 < g.txRoomIn cls)
    (dest : Callsign) (info : List UInt8) (expectsReply : Bool) (account : Text) :
    Charged (price g info) g (g.enqueueUi dest info cls expectsReply account) ∧
      (g.enqueueUi dest info cls expectsReply account).txRoomIn cls = g.txRoomIn cls - 1 ∧
      (g.enqueueUi dest info cls expectsReply account).pump.shared.queued =
        gauged (g.enqueueUi dest info cls expectsReply account).pump.scheduler.queuedAirtime ∧
      Multiset.card (g.enqueueUi dest info cls expectsReply account).pump.held =
        Multiset.card g.pump.held + 1 := by
  obtain ⟨source, hsource⟩ := Option.isSome_iff_exists.mp h.source
  obtain ⟨henabled, htnc⟩ := Bool.and_eq_true .. |>.mp h.available
  have hinterlock : g.pump.shared.interlockFailed = false := by
    have hdown := h.interlock
    rwa [Gateway.interlockDown, htnc, Bool.true_and] at hdown
  have hui : g.transmittable dest info = some
      ⟨{ Address.new dest with cBit := true }, .new source, g.radio.cfg.path.map .new, controlUi,
        some pidNoL3, info⟩ := by
    simp only [Gateway.transmittable, hsource, htnc, henabled, hinterlock, Bool.not_false,
      Bool.and_self, if_true, Ax25Frame.ui, if_neg (not_lt.mpr h.path)]
  unfold Gateway.enqueueUi
  rw [hui]
  dsimp only
  generalize hax : (⟨{ Address.new dest with cBit := true }, .new source,
    g.radio.cfg.path.map .new, controlUi, some pidNoL3, info⟩ : Ax25Frame) = ax
  have hoctets : ax.octets = addressLen * (2 + g.radio.cfg.path.length) + 2 + info.length := by
    rw [← hax]
    simp only [Ax25Frame.octets, List.length_map, Option.toList_some, List.length_singleton]
  rw [Gateway.txRoomIn, htnc, if_pos rfl] at hroom
  rcases tncEnqueue_cases g.pump ax cls.schedulerClass account expectsReply with
    ⟨q, heq, -, htook⟩ | ⟨q, -, hfull, -⟩
  · obtain ⟨hcfg, hqueued, hgauge⟩ := tncEnqueue_gauge heq
    rw [heq]
    dsimp only
    refine ⟨⟨⟨h.available, ?_, h.source, h.path⟩, rfl, hcfg, ?_⟩, ?_, hgauge, ?_⟩
    · have hup : q.shared.interlockFailed = false := by
        rw [AirtimeShared.interlockFailed, htook.interlock]
        exact hinterlock
      change (g.radio.tnc && q.shared.interlockFailed) = false
      rw [hup, Bool.and_false]
    · rw [price, ← hoctets]
      exact hqueued
    · have hleft : q.scheduler.roomIn cls.schedulerClass =
          g.pump.scheduler.roomIn cls.schedulerClass - 1 := htook.room cls.schedulerClass |>.trans
        (congrArg _ (if_pos rfl))
      have hboth : ∀ h : Gateway, h.radio.tnc = true →
          h.txRoomIn cls = h.pump.scheduler.roomIn cls.schedulerClass := by
        intro h hh
        rw [Gateway.txRoomIn, if_pos hh]
      rw [hboth g htnc, ← hleft]
      exact hboth _ htnc
    · exact (congrArg Multiset.card htook.held).trans (Multiset.card_cons ..)
  · omega

theorem Charged.price (h : Charged n g g') (info : List UInt8) : price g' info = price g info := by
  rw [BacklogAdmission.price, BacklogAdmission.price, h.cfg, h.tnc]

theorem transmitAll_charged {cls : TxClass} (frames : List (Callsign × AircFrame)) (h : Ready g)
    (hroom : frames.length ≤ g.txRoomIn cls) :
    Charged (charged g frames) g (g.transmitAll cls frames) ∧
      Multiset.card (g.transmitAll cls frames).pump.held =
        Multiset.card g.pump.held + frames.length ∧
      (frames ≠ [] → (g.transmitAll cls frames).pump.shared.queued =
        gauged (g.transmitAll cls frames).pump.scheduler.queuedAirtime) := by
  induction frames generalizing g with
  | nil => exact ⟨⟨h, rfl, rfl, rfl⟩, rfl, fun hne => absurd rfl hne⟩
  | cons e frames ih =>
    rw [List.length_cons] at hroom ⊢
    obtain ⟨hone, hleft, hgauge, hheld⟩ := enqueueUi_charged h cls (by omega) e.1 e.2.encode
      e.2.wantsAck (callText e.1)
    obtain ⟨hall, hgrown, hlast⟩ := ih hone.toReady (by omega)
    have hsame : charged (g.transmitDirect e.1 e.2 cls) frames = charged g frames := by
      unfold charged
      exact congrArg List.sum (List.map_congr_left fun d _ => hone.price d.2.encode)
    refine ⟨⟨hall.toReady, hall.cfg.trans hone.cfg, hall.tnc.trans hone.tnc, ?_⟩, ?_, fun _ => ?_⟩
    · refine hall.queued.trans ?_
      rw [hone.queued]
      exact (congrArg _ hsame).trans (add_assoc ..)
    · exact hgrown.trans (by rw [hheld]; omega)
    · by_cases hnil : frames = []
      · subst hnil
        exact hgauge
      · exact hlast hnil

/-! ### The frames of a message -/

/-- The frames of a message: how many, and what is in them. -/
structure Cut (g : Gateway) (x : Sending) : Prop where
  octets : ((x.frames g).map fun e => e.2.payload.length).sum = x.payload.length
  carried : ((x.frames g).filter fun e => e.2.piggybackSeq.isSome).length ≤ 1
  enough : frameCount g.radio.sessions.config.maxPayload x.payload.length ≤ (x.frames g).length
  exact : (∀ e ∈ x.frames g, e.2.piggybackSeq = none) →
    (x.frames g).length = frameCount g.radio.sessions.config.maxPayload x.payload.length

theorem sum_mapIdx_length (parts : List (List UInt8)) (f : ℕ → List UInt8 → Callsign × AircFrame)
    (hf : ∀ i part, (f i part).2.payload = part) :
    ((parts.mapIdx f).map fun e => e.2.payload.length).sum = parts.flatten.length := by
  rw [List.length_flatten]
  congr 1
  refine List.ext_getElem (by simp) fun i h₁ h₂ => ?_
  simp [hf]

theorem broadcast_cut (g : Gateway) (kind : Kind) (payload : List UInt8) (cls : TxClass)
    (flags : UInt8) : Cut g (.broadcast kind payload cls flags) := by
  have hframes : Sending.frames (.broadcast kind payload cls flags) g =
      (g.broadcastChunks payload).mapIdx fun i part => (g.radio.cfg.destination,
        { (AircFrame.new kind g.radio.sessions.drawSeq.1 part).withFlags flags with
          fragIndex := .ofNat i
          fragTotal := .ofNat (g.broadcastChunks payload).length }) := by
    refine List.ext_getElem (by simp [Sending.frames, Gateway.broadcastFrames]) fun i _ _ => ?_
    simp [Sending.frames, Gateway.broadcastFrames]
  have hnone : ∀ e ∈ Sending.frames (.broadcast kind payload cls flags) g,
      e.2.piggybackSeq = none := by
    rw [hframes]
    intro e he
    obtain ⟨i, hi, rfl⟩ := List.mem_mapIdx.mp he
    rfl
  have hlength : (Sending.frames (.broadcast kind payload cls flags) g).length =
      frameCount g.radio.sessions.config.maxPayload payload.length := by
    rw [hframes, List.length_mapIdx, broadcastChunks_length]
  refine ⟨?_, ?_, hlength.ge, fun _ => hlength⟩
  · rw [hframes, sum_mapIdx_length]
    · exact congrArg List.length (broadcastChunks_flatten g payload).1
    · exact fun _ _ => rfl
  · rw [List.filter_eq_nil_iff.mpr fun e he => by simp [hnone e he]]
    exact Nat.zero_le 1

theorem filter_modifyHead {l : List AircFrame} (hl : ∀ f ∈ l, f.piggybackSeq = none) (acked : UInt16) :
    ((l.modifyHead (·.attachPiggyback acked)).filter fun f => f.piggybackSeq.isSome).length ≤ 1 := by
  cases l with
  | nil => exact Nat.zero_le 1
  | cons f l =>
    have hrest : (l.filter fun f => f.piggybackSeq.isSome) = [] :=
      List.filter_eq_nil_iff.mpr fun d hd => by simp [hl d (List.mem_cons_of_mem _ hd)]
    simp [AircFrame.attachPiggyback, hrest]

theorem attached_carries {l : List AircFrame} (hl : l ≠ []) (acked : UInt16) :
    ∃ f ∈ l.modifyHead (·.attachPiggyback acked), f.piggybackSeq = some acked := by
  cases l with
  | nil => exact absurd rfl hl
  | cons f l => exact ⟨_, List.mem_cons_self, rfl⟩

theorem fragments_lengths (kind : Kind) (seq : UInt16) (reliable : Bool) (parts : List (List UInt8)) :
    ((fragments kind seq reliable parts).map fun f => f.payload.length).sum = parts.flatten.length := by
  rw [List.length_flatten]
  congr 1
  refine List.ext_getElem (by simp [fragments]) fun i h₁ h₂ => ?_
  simp [fragments, AircFrame.new]

theorem fragments_plain {kind : Kind} {seq : UInt16} {reliable : Bool} {parts : List (List UInt8)}
    {f : AircFrame} (h : f ∈ fragments kind seq reliable parts) : f.piggybackSeq = none := by
  obtain ⟨i, hi, rfl⟩ := List.mem_mapIdx.mp h
  rfl

theorem enqueue_dropped (cfg : SessionConfig) (p : Peer) (seq : UInt16) (kind : Kind)
    (payload : List UInt8) (reliable : Bool)
    (h : (p.enqueue cfg seq kind payload reliable).2.accepted = false) :
    (p.enqueue cfg seq kind payload reliable).2.frames = [] := by
  unfold Peer.enqueue at h ⊢
  dsimp only at h ⊢
  split_ifs at h ⊢ <;> rfl

/-- What goes out at once of a message for one station was produced of it. -/
theorem unicast_produced {g : Gateway} {dst : Callsign} {kind : Kind} {payload : List UInt8}
    {reliable : Bool} {now : ℕ}
    (h : (g.radio.sessions.enqueue dst kind payload reliable now).2.frames ≠ []) :
    (g.radio.sessions.enqueue dst kind payload reliable now).2.accepted = true ∧ ∃ piggy,
      (g.radio.sessions.enqueue dst kind payload reliable now).2.frames =
        produced g.radio.sessions.config kind g.radio.sessions.nextSeq payload reliable piggy := by
  obtain ⟨t, -, -, hdrop | ⟨p, -, -, heq⟩⟩ :=
    g.radio.sessions.enqueue_cases dst kind payload reliable now
  · rw [hdrop] at h
    exact absurd rfl h
  · rw [heq] at h ⊢
    have haccepted : (p.enqueue g.radio.sessions.config g.radio.sessions.nextSeq kind payload
        reliable).2.accepted = true := by
      by_contra hno
      exact h (enqueue_dropped _ _ _ _ _ _ (by simpa using hno))
    refine ⟨haccepted, ?_⟩
    rcases enqueue_produced _ p _ _ _ _ haccepted with hfound | ⟨hnil, -⟩
    · exact hfound
    · exact absurd hnil h

theorem unicast_cut {g : Gateway} {dst : Callsign} {kind : Kind} {payload : List UInt8}
    {reliable : Bool} {cls : TxClass} {flags : UInt8} {now : ℕ}
    (h : Sending.frames (.unicast dst kind payload reliable cls flags now) g ≠ []) :
    Cut g (.unicast dst kind payload reliable cls flags now) := by
  have hm := maxPayload_pos g.radio.sessions.config
  have hsome : (g.radio.sessions.enqueue dst kind payload reliable now).2.frames ≠ [] :=
    fun hnil => h (by simp [Sending.frames, hnil])
  obtain ⟨-, piggy, hproduced⟩ := unicast_produced hsome
  have hplain : ∀ f ∈ fragments kind g.radio.sessions.nextSeq reliable
      (chunkPayload payload g.radio.sessions.config.maxPayload piggy.isSome), f.piggybackSeq = none :=
    fun f hf => fragments_plain hf
  have hlengths := fragments_lengths kind g.radio.sessions.nextSeq reliable
    (chunkPayload payload g.radio.sessions.config.maxPayload piggy.isSome)
  rw [chunkPayload_flatten hm] at hlengths
  have hcount := chunkPayload_length hm payload piggy.isSome
  have hsize : (fragments kind g.radio.sessions.nextSeq reliable
      (chunkPayload payload g.radio.sessions.config.maxPayload piggy.isSome)).length =
      (chunkPayload payload g.radio.sessions.config.maxPayload piggy.isSome).length :=
    List.length_mapIdx
  have hframes : Sending.frames (.unicast dst kind payload reliable cls flags now) g =
      (produced g.radio.sessions.config kind g.radio.sessions.nextSeq payload reliable piggy).map
        fun f => (dst, f.withFlags flags) := by
    rw [Sending.frames, hproduced]
  have hoctets : ∀ l : List AircFrame,
      ((l.map fun f => (dst, f.withFlags flags)).map fun e => e.2.payload.length) =
        l.map fun f => f.payload.length := fun l => by simp [AircFrame.withFlags]
  have hfilter : ∀ l : List AircFrame,
      ((l.map fun f => (dst, f.withFlags flags)).filter fun e => e.2.piggybackSeq.isSome).length =
        (l.filter fun f => f.piggybackSeq.isSome).length := fun l => by
    simp [List.filter_map, Function.comp_def, AircFrame.withFlags]
  unfold produced at hframes
  cases piggy with
  | none =>
    refine ⟨?_, ?_, ?_, fun _ => ?_⟩
    · rw [hframes, hoctets]
      exact hlengths
    · rw [hframes, hfilter, List.filter_eq_nil_iff.mpr fun f hf => by simp [hplain f hf]]
      exact Nat.zero_le 1
    · rw [hframes, List.length_map, hsize]
      exact hcount.1
    · rw [hframes, List.length_map, hsize]
      exact hcount.2 rfl
  | some acked =>
    refine ⟨?_, ?_, ?_, fun hnone => ?_⟩
    · rw [hframes, hoctets, modifyHead_lengths]
      exact hlengths
    · rw [hframes, hfilter]
      exact filter_modifyHead hplain acked
    · rw [hframes, List.length_map, List.length_modifyHead, hsize]
      exact hcount.1
    · -- the first frame carries the acknowledgement
      have hfirst : fragments kind g.radio.sessions.nextSeq reliable
          (chunkPayload payload g.radio.sessions.config.maxPayload true) ≠ [] := by
        refine List.ne_nil_of_length_pos ?_
        exact hsize ▸ List.length_pos_of_ne_nil (chunkPayload_ne_nil payload _ _)
      obtain ⟨f, hf, hcarries⟩ := attached_carries hfirst acked
      have hnot := hnone (dst, f.withFlags flags) (by rw [hframes]; exact List.mem_map_of_mem hf)
      exact absurd (hcarries.symm.trans hnot) (by simp)

theorem frames_cut (h : x.frames g ≠ []) : Cut g x := by
  cases x with
  | broadcast => exact broadcast_cut ..
  | unicast => exact unicast_cut h

/-- An admitted message for everyone goes to the scheduler, frame by frame. -/
theorem broadcastFlagged_admitted {kind : Kind} {payload : List UInt8} {cls : TxClass} {flags : UInt8}
    (h : Admitted g (.broadcast kind payload cls flags)) :
    g.broadcastFlagged kind payload cls flags = (g.withSessions g.radio.sessions.drawSeq.2).transmitAll
      cls (Sending.frames (.broadcast kind payload cls flags) g) := by
  obtain ⟨hready, hbacklog, -, hfew, hroom⟩ := h
  have hup : (!g.available || g.interlockDown) = false := by
    rw [hready.available, hready.interlock]
    rfl
  have hparts : (Sending.frames (.broadcast kind payload cls flags) g).length =
      (g.broadcastChunks payload).length := by
    simp [Sending.frames, Gateway.broadcastFrames]
  rw [hparts] at hfew hroom
  have hadmitted : (g.withSessions g.radio.sessions.drawSeq.2).backlogHasRoom
      ((g.withSessions g.radio.sessions.drawSeq.2).wireOctets payload.length) cls = true := hbacklog
  simp only [Gateway.broadcastFlagged, hup, hadmitted, Bool.false_eq_true, if_false, Bool.not_true]
  rw [if_neg (show ¬ 255 < ((g.withSessions g.radio.sessions.drawSeq.2).broadcastChunks
    payload).length from not_lt.mpr hfew), if_neg (show ¬ (g.withSessions
    g.radio.sessions.drawSeq.2).txRoomIn cls < ((g.withSessions
    g.radio.sessions.drawSeq.2).broadcastChunks payload).length from not_lt.mpr hroom)]
  rfl

/-- The gauge after a message counts what waited before and all its frames. -/
theorem send_gauge (h : Admitted g x) : (x.send g).pump.shared.queued =
    gauged (g.pump.scheduler.queuedAirtime + charged g (x.frames g)) := by
  have hall : ∀ s : Sessions, ((g.withSessions s).transmitAll x.cls (x.frames g)).pump.shared.queued =
      gauged (g.pump.scheduler.queuedAirtime + charged g (x.frames g)) := by
    intro s
    have hready : Ready (g.withSessions s) := ⟨h.available, h.interlock, h.source, h.path⟩
    obtain ⟨hcharged, -, hgauge⟩ := transmitAll_charged (x.frames g) hready h.room
    rw [hgauge h.atOnce, hcharged.queued]
    rfl
  cases x with
  | broadcast kind payload cls flags =>
    rw [Sending.send, broadcastFlagged_admitted h]
    exact hall g.radio.sessions.drawSeq.2
  | unicast dst kind payload reliable cls flags now =>
    have hcut := frames_cut h.atOnce
    obtain ⟨hready, hbacklog, hsome, hfew, hroom⟩ := h
    have hup : (!g.available || g.interlockDown) = false := by
      rw [hready.available, hready.interlock]
      rfl
    have hframes : (g.radio.sessions.enqueue dst kind payload reliable now).2.frames ≠ [] :=
      fun hnil => hsome (by simp [Sending.frames, hnil])
    have hbacklog' : g.backlogHasRoom (g.wireOctets payload.length) cls = true := hbacklog
    have hexpected : g.expectedFragments payload ≤ g.txRoomIn cls := by
      refine le_trans (le_trans ?_ hcut.enough) hroom
      unfold Gateway.expectedFragments frameCount
      dsimp only
      split_ifs
      · exact le_max_right _ _
      · exact le_rfl
    simp only [Sending.send, Gateway.unicastFlagged, hup, hbacklog', (unicast_produced hframes).1,
      not_lt.mpr hexpected, Bool.false_eq_true, if_false, Bool.not_true, decide_false, Bool.and_false]
    exact hall _

/-! ### What a frame costs -/

def keyUp (g : Gateway) : ℕ := g.pump.cfg.airtime.txdelay + g.pump.cfg.airtime.txtail

/-- Microseconds an octet takes. -/
def pace (g : Gateway) : ℚ :=
  8 * max g.pump.cfg.airtime.stuffing 1 * 1000000 / max (g.pump.cfg.airtime.baud : ℚ) 1

theorem airtimeFor_eq (g : Gateway) (octets : ℕ) :
    (Governor.new g.pump.cfg.airtime).airtimeFor octets =
      keyUp g + micros ⌊((octets + framingOctets : ℕ) : ℚ) * pace g⌋₊ := by
  have hsame : ((octets : ℚ) + framingOctets) * 8 * max g.pump.cfg.airtime.stuffing 1 * 1000000 /
      max (g.pump.cfg.airtime.baud : ℚ) 1 = ((octets + framingOctets : ℕ) : ℚ) * pace g := by
    push_cast
    unfold pace
    ring
  unfold Governor.airtimeFor keyUp
  simp only [Governor.new, hsame]
  omega

theorem pace_pos (g : Gateway) : 0 < pace g := by
  unfold pace
  positivity

variable {r : ℚ}

theorem sum_floor_le (hr : 0 ≤ r) (l : List ℕ) :
    (l.map fun c : ℕ => ⌊(c : ℚ) * r⌋₊).sum ≤ ⌊(l.sum : ℚ) * r⌋₊ := by
  induction l with
  | nil => simp
  | cons c l ih =>
    have hadd : ∀ a b : ℕ, a ≤ ⌊(b : ℚ) * r⌋₊ →
        ⌊(c : ℚ) * r⌋₊ + a ≤ ⌊((c + b : ℕ) : ℚ) * r⌋₊ := by
      intro a b hab
      have hc : (⌊(c : ℚ) * r⌋₊ : ℚ) ≤ c * r := Nat.floor_le (by positivity)
      have hb : (⌊(b : ℚ) * r⌋₊ : ℚ) ≤ b * r := Nat.floor_le (by positivity)
      have ha : (a : ℚ) ≤ ⌊(b : ℚ) * r⌋₊ := by exact_mod_cast hab
      refine Nat.le_floor ?_
      push_cast
      linarith
    rw [List.map_cons, List.sum_cons, List.sum_cons]
    exact hadd _ _ ih

/-- Rounding loses less than one microsecond for each frame. -/
theorem sum_lt_floor {l : List ℕ} (hl : l ≠ []) :
    (l.sum : ℚ) * r < (l.map fun c : ℕ => ⌊(c : ℚ) * r⌋₊).sum + l.length := by
  induction l with
  | nil => exact absurd rfl hl
  | cons c l ih =>
    have hc := Nat.lt_floor_add_one ((c : ℚ) * r)
    have hadd : ∀ a b n : ℕ, (b : ℚ) * r < a + n →
        ((c + b : ℕ) : ℚ) * r < ((⌊(c : ℚ) * r⌋₊ + a : ℕ) : ℚ) + ((n + 1 : ℕ) : ℚ) := by
      intro a b n hab
      push_cast
      linarith
    by_cases hnil : l = []
    · subst hnil
      simpa using hc
    · rw [List.map_cons, List.sum_cons, List.sum_cons, List.length_cons]
      exact hadd _ _ _ (ih hnil)

/-! ### What was reckoned with -/

/-- The octets a frame keeps the transmitter busy for. -/
def busyOctets (g : Gateway) (f : AircFrame) : ℕ :=
  addressLen * (2 + g.radio.cfg.path.length) + 2 + f.encode.length + framingOctets

theorem charged_eq (g : Gateway) (frames : List (Callsign × AircFrame)) :
    charged g frames = frames.length * keyUp g +
      micros ((frames.map fun e => busyOctets g e.2).map fun c : ℕ => ⌊(c : ℚ) * pace g⌋₊).sum := by
  induction frames with
  | nil => simp [charged, micros]
  | cons e frames ih =>
    have hone : price g e.2.encode = keyUp g + micros ⌊(busyOctets g e.2 : ℚ) * pace g⌋₊ :=
      airtimeFor_eq g _
    have hcons : charged g (e :: frames) = price g e.2.encode + charged g frames := List.sum_cons
    rw [hcons, ih, hone]
    simp only [List.length_cons, List.map_cons, List.sum_cons, micros]
    ring

/-- Every frame has a header, and two octets more where it carries an acknowledgement. -/
theorem busy_sum (g : Gateway) (frames : List (Callsign × AircFrame)) :
    (frames.map fun e => busyOctets g e.2).sum =
      frames.length * (addressLen * (2 + g.radio.cfg.path.length) + 2 + headerLen + framingOctets) +
        2 * (frames.filter fun e => e.2.piggybackSeq.isSome).length +
        (frames.map fun e => e.2.payload.length).sum := by
  induction frames with
  | nil => simp
  | cons e frames ih =>
    have hone : busyOctets g e.2 = addressLen * (2 + g.radio.cfg.path.length) + 2 + headerLen +
        framingOctets + (if e.2.piggybackSeq.isSome then 2 else 0) + e.2.payload.length := by
      rw [busyOctets, length_encode]
      ring
    simp only [List.map_cons, List.sum_cons, List.length_cons, ih, hone]
    by_cases hp : e.2.piggybackSeq.isSome = true
    · rw [List.filter_cons_of_pos (by exact hp), List.length_cons, if_pos hp]
      ring
    · rw [List.filter_cons_of_neg (by exact hp), if_neg hp]
      ring

theorem reckoned_eq (g : Gateway) (x : Sending) :
    reckoned g x = keyUp g + micros ⌊((x.payload.length +
      frameCount g.radio.sessions.config.maxPayload x.payload.length *
        (addressLen * (2 + g.radio.cfg.path.length) + 2 + headerLen + 2) + framingOctets : ℕ) : ℚ) *
          pace g⌋₊ := by
  rw [reckoned, airtimeFor_eq]
  have hwire : g.wireOctets x.payload.length = x.payload.length +
      frameCount g.radio.sessions.config.maxPayload x.payload.length *
        (addressLen * (2 + g.radio.cfg.path.length) + 2 + headerLen + 2) := by
    unfold Gateway.wireOctets frameCount
    dsimp only [addressLen]
    congr 2
    omega
  rw [hwire]

/-- The message goes out in one frame; or in two that carry no acknowledgement, from a transmitter
that needs no time to key up. -/
def OneKeyUp (g : Gateway) (x : Sending) : Prop :=
  (x.frames g).length = 1 ∨ (x.frames g).length = 2 ∧ keyUp g = 0 ∧
    ∀ e ∈ x.frames g, e.2.piggybackSeq = none

theorem oneKeyUp_charged (hcut : Cut g x) (h : OneKeyUp g x) :
    charged g (x.frames g) ≤ reckoned g x := by
  have hm := maxPayload_pos g.radio.sessions.config
  have hpace := pace_pos g
  have hsum := busy_sum g (x.frames g)
  rw [hcut.octets] at hsum
  have hcarried := hcut.carried
  have henough := hcut.enough
  have hone : 1 ≤ frameCount g.radio.sessions.config.maxPayload x.payload.length := le_max_right _ _
  have hfloor := sum_floor_le hpace.le ((x.frames g).map fun e => busyOctets g e.2)
  have hbound : (x.frames g).length * keyUp g ≤ keyUp g ∧
      ((x.frames g).map fun e => busyOctets g e.2).sum ≤ x.payload.length +
        frameCount g.radio.sessions.config.maxPayload x.payload.length *
          (addressLen * (2 + g.radio.cfg.path.length) + 2 + headerLen + 2) + framingOctets := by
    rw [hsum]
    rcases h with hsingle | ⟨hdouble, hkey, hplain⟩
    · have hcount : frameCount g.radio.sessions.config.maxPayload x.payload.length = 1 := by omega
      rw [hsingle, hcount]
      refine ⟨by omega, ?_⟩
      simp only [framingOctets]
      omega
    · have hnone : ((x.frames g).filter fun e => e.2.piggybackSeq.isSome) = [] :=
        List.filter_eq_nil_iff.mpr fun e he => by simp [hplain e he]
      rw [← hcut.exact hplain, hdouble, hnone, hkey]
      refine ⟨by omega, ?_⟩
      simp only [framingOctets, List.length_nil]
      omega
  rw [charged_eq, reckoned_eq]
  refine Nat.add_le_add hbound.1 (Nat.mul_le_mul_right _ (hfloor.trans (Nat.floor_le_floor ?_)))
  exact mul_le_mul_of_nonneg_right (by exact_mod_cast hbound.2) hpace.le

/-- Key-up times are whole milliseconds, and the modem is no faster than five megabit. -/
structure Modem (g : Gateway) : Prop where
  txdelay : ∃ ms, g.pump.cfg.airtime.txdelay = millis ms
  txtail : ∃ ms, g.pump.cfg.airtime.txtail = millis ms
  baud : g.pump.cfg.airtime.baud ≤ 5000000

theorem pace_ge (h : Modem g) : 3 / 2 ≤ pace g := by
  have hbaud : (max (g.pump.cfg.airtime.baud : ℚ) 1) ≤ 5000000 := by
    refine max_le ?_ (by norm_num)
    exact_mod_cast h.baud
  have hpos : (0 : ℚ) < max (g.pump.cfg.airtime.baud : ℚ) 1 := by positivity
  have hstuffing : (1 : ℚ) ≤ max g.pump.cfg.airtime.stuffing 1 := le_max_right _ _
  unfold pace
  rw [le_div_iff₀ hpos]
  linarith

theorem keyUp_ge (h : Modem g) : keyUp g = 0 ∨ 2000 ≤ keyUp g := by
  obtain ⟨a, ha⟩ := h.txdelay
  obtain ⟨b, hb⟩ := h.txtail
  unfold keyUp
  rw [ha, hb]
  unfold millis
  omega

/-- Any other message is charged more. -/
theorem reckoned_lt_charged (hmodem : Modem g) (hcut : Cut g x) (hsome : x.frames g ≠ [])
    (h : ¬ OneKeyUp g x) : reckoned g x < charged g (x.frames g) := by
  have hbusy := busy_sum g (x.frames g)
  rw [hcut.octets] at hbusy
  have hrounding := sum_lt_floor (r := pace g) (l := (x.frames g).map fun e => busyOctets g e.2)
    (by simpa using hsome)
  rw [charged_eq, reckoned_eq]
  rw [List.length_map] at hrounding
  generalize ((x.frames g).map fun e => busyOctets g e.2).map (fun c : ℕ => ⌊(c : ℚ) * pace g⌋₊) =
    floors at hrounding ⊢
  generalize hreckon : x.payload.length +
    frameCount g.radio.sessions.config.maxPayload x.payload.length *
      (addressLen * (2 + g.radio.cfg.path.length) + 2 + headerLen + 2) + framingOctets = octets
  have henough : frameCount g.radio.sessions.config.maxPayload x.payload.length *
      (addressLen * (2 + g.radio.cfg.path.length) + 2 + headerLen + 2) ≤ (x.frames g).length *
      (addressLen * (2 + g.radio.cfg.path.length) + 2 + headerLen + 2) :=
    Nat.mul_le_mul_right _ hcut.enough
  have hmore : octets + 2 * (x.frames g).length +
      2 * ((x.frames g).filter fun e => e.2.piggybackSeq.isSome).length ≤
        ((x.frames g).map fun e => busyOctets g e.2).sum + 4 := by
    have hheader : (x.frames g).length *
        (addressLen * (2 + g.radio.cfg.path.length) + 2 + headerLen + framingOctets) =
        (x.frames g).length * (addressLen * (2 + g.radio.cfg.path.length) + 2 + headerLen + 2) +
          2 * (x.frames g).length := by
      unfold framingOctets
      ring
    rw [hbusy, ← hreckon, hheader]
    simp only [framingOctets]
    omega
  have hoctets : (⌊(octets : ℚ) * pace g⌋₊ : ℚ) ≤ octets * pace g :=
    Nat.floor_le (mul_nonneg (Nat.cast_nonneg _) (pace_pos g).le)
  have hpace := pace_ge hmodem
  have hmore' : (octets : ℚ) + 2 * (x.frames g).length +
      2 * ((x.frames g).filter fun e => e.2.piggybackSeq.isSome).length ≤
        ((x.frames g).map fun e => busyOctets g e.2).sum + 4 := by
    exact_mod_cast hmore
  have hpaced := mul_le_mul_of_nonneg_right hmore' (pace_pos g).le
  have hpos : 0 < (x.frames g).length := List.length_pos_of_ne_nil hsome
  have hne : (x.frames g).length ≠ 1 := fun hsingle => h (.inl hsingle)
  have htwo : (2 : ℚ) ≤ (x.frames g).length := by
    exact_mod_cast (show 2 ≤ (x.frames g).length by omega)
  rcases keyUp_ge hmodem with hkey | hkey
  · -- no key-up time: the octets alone
    have hmany : 6 ≤ 2 * (x.frames g).length +
        2 * ((x.frames g).filter fun e => e.2.piggybackSeq.isSome).length := by
      by_contra hfew
      refine h (.inr ⟨by omega, hkey, fun e he => ?_⟩)
      have hnil : ((x.frames g).filter fun e => e.2.piggybackSeq.isSome) = [] :=
        List.eq_nil_of_length_eq_zero (by omega)
      simpa using List.filter_eq_nil_iff.mp hnil e he
    have hmany' : (6 : ℚ) ≤ 2 * (x.frames g).length +
        2 * ((x.frames g).filter fun e => e.2.piggybackSeq.isSome).length := by
      exact_mod_cast hmany
    have hlt : (⌊(octets : ℚ) * pace g⌋₊ : ℚ) < floors.sum := by nlinarith
    have hlt' : ⌊(octets : ℚ) * pace g⌋₊ < floors.sum := by exact_mod_cast hlt
    rw [hkey]
    unfold micros
    omega
  · -- every frame but the first keys up once more than was reckoned with
    have hlt : (⌊(octets : ℚ) * pace g⌋₊ : ℚ) < floors.sum + (x.frames g).length := by nlinarith
    have hlt' : ⌊(octets : ℚ) * pace g⌋₊ < floors.sum + (x.frames g).length := by
      exact_mod_cast hlt
    obtain ⟨n, hn⟩ : ∃ n, (x.frames g).length = n + 1 := ⟨_, (Nat.succ_pred_eq_of_pos hpos).symm⟩
    have hkeys : 2000 * n ≤ n * keyUp g := by
      rw [mul_comm]
      exact Nat.mul_le_mul_left n hkey
    rw [hn, Nat.add_mul, one_mul]
    unfold micros
    omega

/-! ### The bound on what waits -/

/-- What waits before the message and the frames of the message are within the share. -/
def Fits (g : Gateway) (x : Sending) : Prop :=
  (gauged (g.pump.scheduler.queuedAirtime + charged g (x.frames g)) : ℚ) ≤ share g x.cls

/-- The gauge shows what waits: no frame was put back since it was last set. -/
structure Gauged (g : Gateway) : Prop where
  queued : g.pump.shared.queued = gauged g.pump.scheduler.queuedAirtime
  budget : ∃ n, g.radio.cfg.maxQueuedAirtime = secs n

theorem share_millis (h : Gauged g) (cls : TxClass) : ∃ ms : ℕ, share g cls = (millis ms : ℕ) := by
  obtain ⟨n, hn⟩ := h.budget
  unfold share
  rw [hn]
  cases cls
  · exact ⟨1000 * n, by simp only [TxClass.allowance, secs, millis]; push_cast; ring⟩
  · exact ⟨850 * n, by simp only [TxClass.allowance, secs, millis]; push_cast; ring⟩
  · exact ⟨700 * n, by simp only [TxClass.allowance, secs, millis]; push_cast; ring⟩
  · exact ⟨500 * n, by simp only [TxClass.allowance, secs, millis]; push_cast; ring⟩

/-- The test counts what the gauge shows, and the price that was reckoned with. -/
theorem Admitted.counted (h : Admitted g x) :
    ((g.pump.shared.queued + reckoned g x : ℕ) : ℚ) ≤ share g x.cls := by
  have hroom := h.backlog
  simp only [Gateway.backlogHasRoom, Bool.and_eq_true, decide_eq_true_eq] at hroom
  exact hroom.2

theorem gauged_add_le {queued airtime bound ms : ℕ} (h : gauged queued + bound ≤ millis ms)
    (hbound : airtime ≤ bound) : gauged (queued + airtime) ≤ millis ms := by
  have hms : 0 < millis 1 := Nat.zero_lt_succ _
  have hrest : queued < gauged queued + millis 1 := by
    have hlt := Nat.lt_div_mul_add (a := queued) hms
    simpa [gauged, millis] using hlt
  have hnext : millis ms + millis 1 = (ms + 1) * millis 1 := by
    unfold millis
    ring
  have hdiv : (queued + airtime) / millis 1 < ms + 1 := by
    rw [Nat.div_lt_iff_lt_mul hms, ← hnext]
    omega
  exact Nat.mul_le_mul_right _ (Nat.le_of_lt_succ hdiv)

theorem fits_of_gauged (h : Admitted g x) (hgauged : Gauged g)
    (hcharged : charged g (x.frames g) ≤ reckoned g x) : Fits g x := by
  obtain ⟨ms, hms⟩ := share_millis hgauged x.cls
  have hcounted := h.counted
  rw [hgauged.queued, hms] at hcounted
  have hcounted' : gauged g.pump.scheduler.queuedAirtime + reckoned g x ≤ millis ms :=
    Nat.cast_le.mp hcounted
  rw [Fits, hms]
  exact Nat.cast_le.mpr (gauged_add_le hcounted' hcharged)

/-- An idle 300 baud transmitter with eight seconds for chat. -/
def idle : Gateway :=
  .new ⟨true, "SK0MT-1".toList, some ⟨"SK0MT", 1⟩, "rfircd".toList, secs 600, [], ⟨"AIRC", 0⟩, secs 16,
    12, 3, false, .default⟩ .default

def chat (octets : ℕ) : Sending := .broadcast .msg (List.replicate octets 97) .chat 0

theorem idle_modem : Modem idle := ⟨⟨400, rfl⟩, ⟨300, rfl⟩, by decide⟩

theorem idle_ready : Ready idle := ⟨by decide +kernel, by decide +kernel, by decide +kernel, by decide⟩

theorem idle_gauged : Gauged idle := ⟨by decide +kernel, 16, rfl⟩

end BacklogAdmission
