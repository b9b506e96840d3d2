import Rfircd.SessionSteps
import Rfircd.TransmitPump

/-! Putting something on the air: admission, identification and fragmentation.
The state is the server's side, the TNC task with the scheduler both share, and the reports of
keyed frames between them. One operation of the server is one step. -/
namespace RadioGateway

open Basics Airc AircSession KeyedTable AirtimeGovernor Ax25 TransmitScheduler TransmitPump

/-- What a frame is for, which decides how much of the backlog it may occupy. -/
inductive TxClass where
  | ack
  | control
  | direct
  | chat
  deriving DecidableEq, Repr

namespace TxClass

def allowance : TxClass → ℚ
  | ack => 1
  | control => 17 / 20
  | direct => 7 / 10
  | chat => 1 / 2

def schedulerClass : TxClass → TransmitScheduler.Class
  | ack => .ack
  | control => .control
  | direct => .direct
  | chat => .chat

end TxClass

/-- The part of the configuration that the transmit side reads. -/
structure RadioConfig where
  enabled : Bool
  callsign : Text
  gateway : Option Callsign
  idText : Text
  idInterval : ℕ
  path : List Callsign
  destination : Callsign
  maxQueuedAirtime : ℕ
  ackTimeoutSecs : ℕ
  maxRetries : ℕ
  aprsOnly : Bool
  sessions : SessionConfig

structure Stats where
  framesTx : ℕ
  framesDropped : ℕ
  framesRefused : ℕ
  bytesTx : ℕ
  deriving DecidableEq

structure AprsInFlight where
  msgid : Text
  info : List UInt8
  cls : TxClass
  attempts : ℕ
  nextRetry : ℕ

structure AprsQueued where
  text : Text
  cls : TxClass

structure AprsOutbound where
  nextId : UInt32
  pending : Table Callsign AprsInFlight
  waiting : Table Callsign (List AprsQueued)

structure Radio where
  cfg : RadioConfig
  tnc : Bool
  source : Option Callsign
  sessions : Sessions
  stats : Stats
  enabled : Bool
  lastId : Option ℕ
  transmittedSinceId : Bool
  aprsOut : AprsOutbound

def Radio.new (cfg : RadioConfig) (tnc : Bool) : Radio :=
  ⟨cfg, tnc, cfg.gateway, .new cfg.sessions, ⟨0, 0, 0, 0⟩, cfg.enabled && tnc, none, false,
    ⟨0, .empty, .empty⟩⟩

/-- A frame that was written to the TNC. -/
structure Keyed where
  dest : Callsign
  seq : UInt16
  deriving DecidableEq

/-- Reports that the server has not read yet are lost beyond this number. -/
def keyedCapacity : ℕ := 64

structure Gateway where
  radio : Radio
  pump : Pump
  keyed : List Keyed

/-! ### APRS messages -/

def aprsDestination : Callsign := ⟨"APRS", 0⟩

/-- The callsign as text. -/
def callText (c : Callsign) : Text :=
  if c.ssid = 0 then c.base.toList else c.base.toList ++ '-' :: (toString c.ssid).toList

/-- Base 36, at most five digits, the lowest of them last. -/
def base36 : ℕ → ℕ → Text
  | 0, _ => []
  | fuel + 1, n =>
    let d := n % 36
    let rest := if n / 36 = 0 then [] else base36 fuel (n / 36)
    rest ++ [Char.ofNat (if d < 10 then 48 + d else 65 + (d - 10))]

def AprsOutbound.nextMsgid (o : AprsOutbound) : Text × AprsOutbound :=
  let id := if o.nextId + 1 = 0 then 1 else o.nextId + 1
  (base36 5 id.toNat, { o with nextId := id })

/-- The addressee fills nine characters. -/
def addressee (c : Callsign) : Text :=
  let addr := (callText c).take 9
  addr ++ List.replicate (9 - addr.length) ' '

def messageInfo (dst : Callsign) (text msgid : Text) : List UInt8 :=
  utf8 (':' :: addressee dst ++ ':' :: text.take 67 ++ Char.ofNat 0x7B :: msgid)

/-! ### The transmit path -/

/-- The frame with its price. -/
def queuedItem (p : Pump) (frame : Ax25Frame) (cls : TransmitScheduler.Class) (account : Text)
    (expectsReply : Bool) : Queued Ax25Frame :=
  ⟨frame, cls, String.ofList account, (Governor.new p.cfg.airtime).airtimeFor frame.octets, p.clock,
    expectsReply⟩

/-- `TncHandle::enqueue`: the frame is pushed, and the pump notified. -/
def tncEnqueue (p : Pump) (frame : Ax25Frame) (cls : TransmitScheduler.Class) (account : Text)
    (expectsReply : Bool) : Bool × Pump :=
  let item := queuedItem p frame cls account expectsReply
  match p.scheduler.push item with
  | (.ok (), _) => (true, ((p.next (.enqueue item)).1.next .unlock).1)
  | (.error _, _) => (false, (p.next (.enqueue item)).1)

namespace Gateway

def available (g : Gateway) : Bool := g.radio.enabled && g.radio.tnc

def interlockDown (g : Gateway) : Bool := g.radio.tnc && g.pump.shared.interlockFailed

def countStats (g : Gateway) (f : Stats → Stats) : Gateway :=
  { g with radio := { g.radio with stats := f g.radio.stats } }

def refuse (g : Gateway) : Gateway :=
  g.countStats fun st => { st with framesRefused := st.framesRefused + 1 }

def dropped (g : Gateway) : Gateway :=
  g.countStats fun st => { st with framesDropped := st.framesDropped + 1 }

def sent (g : Gateway) (octets : ℕ) : Gateway :=
  g.countStats fun st => { st with framesTx := st.framesTx + 1, bytesTx := st.bytesTx + octets }

/-- The frame a transmission becomes, unless the transmitter takes none. -/
def transmittable (g : Gateway) (dest : Callsign) (info : List UInt8) : Option Ax25Frame :=
  match g.radio.source with
  | none => none
  | some source =>
    if g.radio.tnc && g.radio.enabled && !g.pump.shared.interlockFailed then
      Ax25Frame.ui source dest g.radio.cfg.path info
    else none

def enqueueUi (g : Gateway) (dest : Callsign) (info : List UInt8) (cls : TxClass)
    (expectsReply : Bool) (account : Text) : Gateway :=
  match g.transmittable dest info with
  | none => g
  | some ax =>
    match tncEnqueue g.pump ax cls.schedulerClass account expectsReply with
    | (true, pump) =>
      { { g with pump := pump }.sent ax.octets with
        radio := { ({ g with pump := pump }.sent ax.octets).radio with transmittedSinceId := true } }
    | (false, pump) => { g with pump := pump }.dropped

def transmitDirect (g : Gateway) (dest : Callsign) (frame : AircFrame) (cls : TxClass) : Gateway :=
  g.enqueueUi dest frame.encode cls frame.wantsAck (callText dest)

/-- A retransmission the session layer has decided on is not subject to admission again. -/
def transmitTo (g : Gateway) (dest : Callsign) (frame : AircFrame) : Gateway :=
  g.transmitDirect dest frame .control

/-- The follow-ups of a received frame. -/
def transmitAirc (g : Gateway) (dest : Callsign) (frame : AircFrame) : Gateway :=
  g.transmitDirect dest frame .ack

def transmitUi (g : Gateway) (dest : Callsign) (info : List UInt8) (cls : TxClass)
    (account : Callsign) : Gateway :=
  g.enqueueUi dest info cls false (callText account)

/-- Frames of one kind, one after the other. -/
def transmitAll (g : Gateway) (cls : TxClass) (frames : List (Callsign × AircFrame)) : Gateway :=
  frames.foldl (fun g e => g.transmitDirect e.1 e.2 cls) g

def withSessions (g : Gateway) (s : Sessions) : Gateway :=
  { g with radio := { g.radio with sessions := s } }

/-! ### Admission -/

def wireOctets (g : Gateway) (payload : ℕ) : ℕ :=
  let perFrame := headerLen + 7 * (2 + g.radio.cfg.path.length) + 4
  let max := g.radio.sessions.config.maxPayload
  payload + Nat.max ((payload + max - 1) / max) 1 * perFrame

def backlogHasRoom (g : Gateway) (octets : ℕ) (cls : TxClass) : Bool :=
  g.radio.tnc &&
    decide (((g.pump.shared.queued +
        (Governor.new g.pump.cfg.airtime).airtimeFor octets : ℕ) : ℚ) ≤
      g.radio.cfg.maxQueuedAirtime * cls.allowance)

def txRoomIn (g : Gateway) (cls : TxClass) : ℕ :=
  if g.radio.tnc then g.pump.scheduler.roomIn cls.schedulerClass else 0

def broadcastChunks (g : Gateway) (payload : List UInt8) : List (List UInt8) :=
  if payload = [] then [[]] else chunks g.radio.sessions.config.maxPayload payload

def broadcastFrames (kind : Kind) (seq : UInt16) (parts : List (List UInt8)) (flags : UInt8) :
    List AircFrame :=
  parts.mapIdx fun i part =>
    { (AircFrame.new kind seq part).withFlags flags with
      fragIndex := .ofNat i
      fragTotal := .ofNat parts.length }

def broadcastFlagged (g : Gateway) (kind : Kind) (payload : List UInt8) (cls : TxClass)
    (flags : UInt8) : Gateway :=
  if !g.available || g.interlockDown then g
  else
    let (seq, sessions) := g.radio.sessions.drawSeq
    let g := g.withSessions sessions
    let parts := g.broadcastChunks payload
    if 255 < parts.length then g.dropped
    else if !g.backlogHasRoom (g.wireOctets payload.length) cls then g.refuse
    else if g.txRoomIn cls < parts.length then g.refuse
    else g.transmitAll cls
      ((broadcastFrames kind seq parts flags).map (g.radio.cfg.destination, ·))

/-- The fragments a unicast is expected to need. -/
def expectedFragments (g : Gateway) (payload : List UInt8) : ℕ :=
  let max := g.radio.sessions.config.maxPayload
  if payload = [] then 1 else Nat.max ((payload.length + max - 1) / max) 1

/-- The message would wait behind one in flight. -/
def queuedBehind (g : Gateway) (dst : Callsign) (reliable : Bool) : Bool :=
  reliable && (g.radio.sessions.peer dst).any Peer.awaitingAck

def noteAirc (s : Sessions) (dst : Callsign) : Sessions :=
  match s.peer dst with
  | none => s
  | some p => s.store dst p.noteAirc

/-- Returns whether the session layer accepted the message. -/
def unicastFlagged (g : Gateway) (dst : Callsign) (kind : Kind) (payload : List UInt8)
    (reliable : Bool) (cls : TxClass) (flags : UInt8) (now : ℕ) : Bool × Gateway :=
  if !g.available || g.interlockDown then (false, g)
  else if !g.backlogHasRoom (g.wireOctets payload.length) cls then (false, g.refuse)
  else if !g.queuedBehind dst reliable && g.txRoomIn cls < g.expectedFragments payload then
    (false, g.refuse)
  else
    let (sessions, outcome) := g.radio.sessions.enqueue dst kind payload reliable now
    if !outcome.accepted then (false, g.withSessions sessions)
    else
      (true, (g.withSessions (noteAirc sessions dst)).transmitAll cls
        (outcome.frames.map fun f => (dst, f.withFlags flags)))

def wantsAprs (g : Gateway) (call : Callsign) : Bool :=
  g.radio.cfg.aprsOnly || (g.radio.sessions.peer call).any fun p => p.dialect = .aprs

/-! ### APRS chat -/

def withAprs (g : Gateway) (o : AprsOutbound) : Gateway :=
  { g with radio := { g.radio with aprsOut := o } }

def aprsTimeout (g : Gateway) : ℕ := secs (max g.radio.cfg.ackTimeoutSecs 1)

def startAprsChat (g : Gateway) (dst : Callsign) (text : Text) (cls : TxClass) (now : ℕ) :
    Bool × Gateway :=
  let (msgid, out) := g.radio.aprsOut.nextMsgid
  let g := g.withAprs out
  let info := messageInfo dst text msgid
  if !g.backlogHasRoom (info.length + 20) cls then (false, g.refuse)
  else
    let g := g.transmitUi aprsDestination info cls dst
    let entry : AprsInFlight := ⟨msgid, info, cls, 1, now + g.aprsTimeout⟩
    (true, g.withAprs { g.radio.aprsOut with pending := g.radio.aprsOut.pending.set dst entry })

/-- How many messages may wait for a station's acknowledgement. -/
def aprsWaitingMax : ℕ := 8

def enqueueAprsChat (g : Gateway) (dst : Callsign) (text : Text) (cls : TxClass) (now : ℕ) :
    Bool × Gateway :=
  if !g.available || g.interlockDown then (false, g)
  else
    let text := text.take 67
    if text = [] then (false, g)
    else if (g.radio.aprsOut.pending.get dst).isSome then
      let q := (g.radio.aprsOut.waiting.get dst).getD []
      if aprsWaitingMax ≤ q.length then (false, g.refuse)
      else
        let waiting := g.radio.aprsOut.waiting.set dst (q ++ [⟨text, cls⟩])
        (true, g.withAprs { g.radio.aprsOut with waiting := waiting })
    else g.startAprsChat dst text cls now

/-- The next message to a station that has none in flight. -/
def nextAprsChat (g : Gateway) (dst : Callsign) (now : ℕ) : Gateway :=
  match g.radio.aprsOut.waiting.get dst with
  | none => g
  | some [] =>
    g.withAprs { g.radio.aprsOut with waiting := g.radio.aprsOut.waiting.erase dst }
  | some (next :: rest) =>
    let waiting := if rest = [] then g.radio.aprsOut.waiting.erase dst
      else g.radio.aprsOut.waiting.set dst rest
    ((g.withAprs { g.radio.aprsOut with waiting := waiting }).startAprsChat dst next.text next.cls
      now).2

/-- `id` is the message number of an acknowledgement or rejection from the station. -/
def onAprsAck (g : Gateway) (src : Callsign) (id : Text) (now : ℕ) : Gateway :=
  match g.radio.aprsOut.pending.get src with
  | none => g
  | some pending =>
    if pending.msgid ≠ id then g
    else
      (g.withAprs { g.radio.aprsOut with pending := g.radio.aprsOut.pending.erase src }).nextAprsChat
        src now

/-- One message whose answer is overdue. -/
def retryAprs (g : Gateway) (call : Callsign) (now : ℕ) : Gateway :=
  match g.radio.aprsOut.pending.get call with
  | none => g
  | some pending =>
    if max g.radio.cfg.maxRetries 1 ≤ pending.attempts then
      (g.withAprs { g.radio.aprsOut with
        pending := g.radio.aprsOut.pending.erase call }).dropped.nextAprsChat call now
    else
      let attempts := pending.attempts + 1
      let entry := { pending with
        attempts := attempts
        nextRetry := now + g.aprsTimeout * min attempts 4 }
      let g := g.transmitUi aprsDestination pending.info pending.cls call
      g.withAprs { g.radio.aprsOut with pending := g.radio.aprsOut.pending.set call entry }

def tickAprs (g : Gateway) (now : ℕ) : Gateway :=
  if !g.available || g.interlockDown then g
  else
    let due := (g.radio.aprsOut.pending.entries.filter fun e => e.2.nextRetry ≤ now).map Prod.fst
    due.foldl (fun g call => g.retryAprs call now) g

/-! ### Identification -/

def idDestination : Callsign := ⟨"ID", 0⟩

/-- Identification goes past the inhibit and the interlock, which hold it in the queue. -/
def transmitId (g : Gateway) (dest : Callsign) (frame : AircFrame) : Bool × Gateway :=
  if !g.radio.tnc then (false, g)
  else match g.radio.source with
    | none => (false, g)
    | some source =>
      match Ax25Frame.ui source dest g.radio.cfg.path frame.encode with
      | none => (false, g)
      | some ax =>
        match tncEnqueue g.pump ax .id ['i', 'd'] false with
        | (true, pump) => (true, { g with pump := pump }.sent ax.octets)
        | (false, pump) => (false, { g with pump := pump }.dropped)

def sendId (g : Gateway) (now : ℕ) : Bool × Gateway :=
  let payload := encodeFields [utf8 (g.radio.cfg.callsign ++ ' ' :: g.radio.cfg.idText)]
  let (seq, sessions) := g.radio.sessions.drawSeq
  match (g.withSessions sessions).transmitId idDestination (.new .id seq payload) with
  | (true, g) =>
    (true, { g with radio := { g.radio with transmittedSinceId := false, lastId := some now } })
  | (false, g) => (false, g)

def maybeIdentify (g : Gateway) (now : ℕ) : Gateway :=
  if !g.radio.tnc || !g.radio.transmittedSinceId then g
  else if g.radio.enabled && g.radio.lastId.any fun t => now - t < g.radio.cfg.idInterval then g
  else (g.sendId now).2

def idIfNeeded (g : Gateway) (now : ℕ) : Gateway :=
  if g.radio.transmittedSinceId && g.radio.tnc then (g.sendId now).2 else g

inductive IdentifyResult where
  | sent
  | rateLimited
  | notQueued
  deriving DecidableEq

def identifyNow (g : Gateway) (now : ℕ) : IdentifyResult × Gateway :=
  if !g.radio.transmittedSinceId &&
      g.radio.lastId.any fun t => now - t < g.radio.cfg.idInterval then (.rateLimited, g)
  else match g.sendId now with
    | (true, g) => (.sent, g)
    | (false, g) => (.notQueued, g)

/-! ### The operator, the timer and the receiver -/

def setInhibit (g : Gateway) (b : Bool) : Gateway :=
  if g.radio.tnc then { g with pump := ((g.pump.next (.setInhibit b)).1.next .notify).1 } else g

/-- `RADIO OFF`: a sign-off, then nothing more. -/
def radioOff (g : Gateway) (now : ℕ) : Gateway :=
  let g := g.idIfNeeded now
  { g with radio := { g.radio with enabled := false } }.setInhibit true

def radioOn (g : Gateway) : Gateway :=
  if g.radio.cfg.enabled then
    let g := g.setInhibit false
    { g with radio := { g.radio with enabled := true } }
  else g

def drainKeyed (g : Gateway) (now : ℕ) : Gateway :=
  { g.withSessions (g.keyed.foldl (fun s k => s.onKeyed k.dest k.seq now) g.radio.sessions) with
    keyed := [] }

def tickSessions (g : Gateway) (now : ℕ) : Gateway :=
  let (sessions, out) :=
    g.radio.sessions.tickRetries now (g.available && !g.interlockDown)
  (g.withSessions sessions).transmitAll .control out.transmit

def onReceive (g : Gateway) (src : Callsign) (frame : AircFrame) (now : ℕ) (forUs : Bool) :
    Gateway :=
  let (sessions, out) := g.radio.sessions.onReceive src frame now forUs
  (g.withSessions sessions).transmitAll .ack (out.transmit.map (src, ·))

def drainAcks (g : Gateway) : Gateway :=
  let (sessions, acks) := g.radio.sessions.drainAcks
  (g.withSessions sessions).transmitAll .ack acks

/-- The reports of the frames that were keyed; they are lost when nobody reads them. -/
def reports (fates : List Fate) : List Keyed :=
  fates.filterMap fun fate => match fate with
    | .keyed item =>
      (aircSeq item.payload.info).map fun seq => ⟨item.payload.destination.call, seq⟩
    | .dropped _ _ => none

def pumpStep (g : Gateway) (e : TransmitPump.Event) : Gateway :=
  let (pump, fates) := g.pump.next e
  { g with pump := pump, keyed := g.keyed ++ (reports fates).take (keyedCapacity - g.keyed.length) }

/-- A station was heard speaking APRS. -/
def aprsHeard (g : Gateway) (src : Callsign) (now : ℕ) : Gateway :=
  match g.radio.sessions.touched src now with
  | none => g
  | some p => g.withSessions (g.radio.sessions.store src p.noteAprs)

end Gateway

inductive Event where
  /-- The server transmits. -/
  | broadcast (kind : Kind) (payload : List UInt8) (cls : TxClass) (flags : UInt8)
  | unicast (dst : Callsign) (kind : Kind) (payload : List UInt8) (reliable : Bool) (cls : TxClass)
      (flags : UInt8) (now : ℕ)
  | transmitUi (dest : Callsign) (info : List UInt8) (cls : TxClass) (account : Callsign)
  | aprsChat (dst : Callsign) (text : Text) (cls : TxClass) (now : ℕ)
  /-- The server receives. -/
  | receive (src : Callsign) (frame : AircFrame) (now : ℕ) (forUs : Bool)
  | drainAcks
  | aprsHeard (src : Callsign) (now : ℕ)
  | aprsAck (src : Callsign) (id : Text) (now : ℕ)
  | forget (call : Callsign)
  /-- The server's timer. -/
  | drainKeyed (now : ℕ)
  | tickSessions (now : ℕ)
  | tickAprs (now : ℕ)
  | maybeIdentify (now : ℕ)
  /-- The operator. -/
  | idIfNeeded (now : ℕ)
  | identifyNow (now : ℕ)
  | radioOff (now : ℕ)
  | radioOn
  /-- The TNC task, the clock and the interlock. -/
  | pump (e : TransmitPump.Event)

/-- Frames reach the scheduler through the server only, which holds the lock for one step. -/
def Enabled (g : Gateway) : Event → Prop
  | .pump (.enqueue _) | .pump .unlock => False
  | .pump e => TransmitPump.Enabled g.pump e
  | .unicast _ kind _ _ _ _ _ => kind ≠ .ack
  | _ => True

instance (g : Gateway) (e : Event) : Decidable (Enabled g e) := by
  unfold Enabled
  split <;> infer_instance

def Gateway.next (g : Gateway) : Event → Gateway
  | .broadcast kind payload cls flags => g.broadcastFlagged kind payload cls flags
  | .unicast dst kind payload reliable cls flags now =>
    (g.unicastFlagged dst kind payload reliable cls flags now).2
  | .transmitUi dest info cls account => g.transmitUi dest info cls account
  | .aprsChat dst text cls now => (g.enqueueAprsChat dst text cls now).2
  | .receive src frame now forUs => g.onReceive src frame now forUs
  | .drainAcks => g.drainAcks
  | .aprsHeard src now => g.aprsHeard src now
  | .aprsAck src id now => g.onAprsAck src id now
  | .forget call => g.withSessions (g.radio.sessions.forget call)
  | .drainKeyed now => g.drainKeyed now
  | .tickSessions now => g.tickSessions now
  | .tickAprs now => g.tickAprs now
  | .maybeIdentify now => g.maybeIdentify now
  | .idIfNeeded now => g.idIfNeeded now
  | .identifyNow now => (g.identifyNow now).2
  | .radioOff now => g.radioOff now
  | .radioOn => g.radioOn
  | .pump e => g.pumpStep e

def Gateway.new (cfg : RadioConfig) (tnc : TncConfig) : Gateway :=
  ⟨.new cfg true, .new tnc, []⟩

end RadioGateway
