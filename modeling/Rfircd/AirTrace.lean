import Rfircd.AprsCodec

/-! What the server does with its radio.
Everything it may ask of the transmit side is one of the operations here, and the record of them
stands beside the gateway they lead to. -/
namespace AirTrace

open Basics MessageText Airc AircSession RadioGateway AprsCodec

def textFields (fields : List Text) : List UInt8 := encodeFields (fields.map utf8)

def flagsFor (truncated : Bool) : UInt8 := if truncated then Flags.truncated else 0

/-- What goes out to every station in range. -/
inductive Broadcast where
  | chat (channel nick text : Text) (truncated : Bool)
  | topic (channel nick topic : Text)
  | presence (channel nick : Text) (joined : Bool)
  deriving DecidableEq

namespace Broadcast

def kind : Broadcast → Kind
  | chat .. => .msg
  | topic .. => .notice
  | presence .. => .presence

def payload : Broadcast → List UInt8
  | chat channel nick text _ => textFields [channel, nick, text]
  | topic channel nick text => textFields [channel, nick, text]
  | presence channel nick joined => textFields [channel, nick, [if joined then '+' else '-']]

def flags : Broadcast → UInt8
  | chat _ _ _ truncated => flagsFor truncated
  | _ => 0

end Broadcast

/-- What goes out to one station. -/
inductive Addressed where
  | notice (text : Text)
  | error (code text : Text)
  | welcome (name motd : Text)
  | joined (channel count topic : Text)
  | names (channel names : Text)
  | pong (token : Text)
  | chat (sender text : Text) (truncated : Bool)
  | stored (sender text age : Text) (truncated : Bool)
  deriving DecidableEq

namespace Addressed

def kind : Addressed → Kind
  | notice _ => .notice
  | error .. => .error
  | welcome .. => .welcome
  | joined .. | names .. => .namesReply
  | pong _ => .pong
  | chat .. => .msg
  | stored .. => .stored

def payload (dst : Callsign) : Addressed → List UInt8
  | notice text => textFields [['*'], text]
  | error code text => textFields [code, text]
  | welcome name motd => textFields [name, motd]
  | joined channel count topic => textFields [channel, count, topic]
  | names channel list => textFields [channel, list]
  | pong token => textFields [token]
  | chat sender text _ => textFields [Callsign.toNick dst, sender, text]
  | stored sender text age _ => textFields [Callsign.toNick dst, sender, text, age]

/-- Errors, notices and answers to questions are not worth a retry. -/
def reliable : Addressed → Bool
  | welcome .. | joined .. | chat .. | stored .. => true
  | notice _ | error .. | names .. | pong _ => false

def cls : Addressed → TxClass
  | chat .. | stored .. => .direct
  | _ => .control

def flags : Addressed → UInt8
  | chat _ _ truncated | stored _ _ _ truncated => flagsFor truncated
  | _ => 0

end Addressed

/-- What the server notes about a station. -/
inductive PeerNote where
  | aprs
  | registered
  | dropped
  | joined (channel : Text)
  | left (channel : Text)
  | kicked (channel : Text)

def PeerNote.apply (p : Peer) : PeerNote → Peer
  | aprs => p.noteAprs
  | registered => { p with registered := true }
  | dropped => { p with dropped := p.dropped + 1 }
  | joined channel =>
    let p := { p with channels := insert (String.ofList channel) p.channels }
    p.clearKicked (String.ofList channel)
  | left channel => { p with channels := p.channels.erase (String.ofList channel) }
  | kicked channel => p.markKicked (String.ofList channel)

/-- What happens to the TNC task without the server. -/
def spontaneous : TransmitPump.Event → Bool
  | .step _ | .woken | .timer | .read | .heard | .linkDown | .setInterlock _ | .advance _ => true
  | .enqueue _ | .unlock | .setInhibit _ | .setDutyOverride _ | .setPacingOverride _ | .notify => false

structure PumpEvent where
  event : TransmitPump.Event
  own : spontaneous event = true

inductive RadioOp where
  | broadcast (b : Broadcast)
  | unicast (dst : Callsign) (m : Addressed) (now : ℕ)
  /-- Chat to an APRS station, in private or for a channel. -/
  | aprsChat (dst : Callsign) (body : Text) (channel : Bool) (now : ℕ)
  | aprsAck (dst : Callsign) (msgid : Text)
  | aprsRej (dst : Callsign) (msgid : Text)
  | aprsReply (dst : Callsign) (text : Text)
  | receive (src : Callsign) (frame : AircFrame) (now : ℕ) (forUs : Bool)
  | drainAcks
  | aprsAnswered (src : Callsign) (id : Text) (now : ℕ)
  | touch (call : Callsign) (now : ℕ)
  | note (call : Callsign) (n : PeerNote)
  | ban (call : Callsign)
  | liftBan (call : Callsign)
  | forget (call : Callsign)
  | takeEvicted
  | refuse
  | drainKeyed (now : ℕ)
  | tickSessions (now : ℕ)
  | tickAprs (now : ℕ)
  | maybeIdentify (now : ℕ)
  | idIfNeeded (now : ℕ)
  | identifyNow (now : ℕ)
  | radioOff (now : ℕ)
  | radioOn
  | limitDuty (percent : Option ℕ)
  | limitPacing (ms : Option ℕ)
  /-- The TNC task, the clock and the interlock, between the server's operations. -/
  | pump (e : PumpEvent)

def chatClass (channel : Bool) : TxClass := if channel then .chat else .direct

/-- The override is stored, and the pump notified. -/
def overrideWith (g : Gateway) (e : TransmitPump.Event) : Gateway :=
  if g.radio.tnc then { g with pump := ((g.pump.next e).1.next .notify).1 } else g

def perform (g : Gateway) : RadioOp → Gateway
  | .broadcast b => g.broadcastFlagged b.kind b.payload .chat b.flags
  | .unicast dst m now =>
    (g.unicastFlagged dst m.kind (m.payload dst) m.reliable m.cls m.flags now).2
  | .aprsChat dst body channel now => (g.enqueueAprsChat dst body (chatClass channel) now).2
  | .aprsAck dst msgid => g.transmitUi aprsDestination (ackInfo dst msgid) .ack dst
  | .aprsRej dst msgid => g.transmitUi aprsDestination (rejInfo dst msgid) .ack dst
  | .aprsReply dst text => g.transmitUi aprsDestination (replyInfo dst text) .control dst
  | .receive src frame now forUs => g.onReceive src frame now forUs
  | .drainAcks => g.drainAcks
  | .aprsAnswered src id now => g.onAprsAck src id now
  | .touch call now =>
    match g.radio.sessions.touched call now with
    | none => g
    | some p => g.withSessions (g.radio.sessions.store call p)
  | .note call n =>
    match g.radio.sessions.peer call with
    | none => g
    | some p => g.withSessions (g.radio.sessions.store call (n.apply p))
  | .ban call => g.withSessions (g.radio.sessions.ban call)
  | .liftBan call => g.withSessions (g.radio.sessions.liftBan call)
  | .forget call => g.withSessions (g.radio.sessions.forget call)
  | .takeEvicted => g.withSessions { g.radio.sessions with evicted := [] }
  | .refuse => g.refuse
  | .drainKeyed now => g.drainKeyed now
  | .tickSessions now => g.tickSessions now
  | .tickAprs now => g.tickAprs now
  | .maybeIdentify now => g.maybeIdentify now
  | .idIfNeeded now => g.idIfNeeded now
  | .identifyNow now => (g.identifyNow now).2
  | .radioOff now => g.radioOff now
  | .radioOn => g.radioOn
  | .limitDuty percent => overrideWith g (.setDutyOverride percent)
  | .limitPacing ms => overrideWith g (.setPacingOverride ms)
  | .pump e => g.pumpStep e.event

/-- The gateway as the server starts with it. -/
def startGateway (cfg : RadioConfig) (attached : Bool) (tnc : TransmitPump.TncConfig) : Gateway :=
  ⟨.new cfg attached, .new tnc, []⟩

/-- The gateway with everything that was done to reach it. -/
structure Air where
  cfg : RadioConfig
  attached : Bool
  tnc : TransmitPump.TncConfig
  performed : List RadioOp
  gateway : Gateway
  faithful : gateway = performed.foldl AirTrace.perform (startGateway cfg attached tnc)

namespace Air

def new (cfg : RadioConfig) (attached : Bool) (tnc : TransmitPump.TncConfig) : Air :=
  ⟨cfg, attached, tnc, [], startGateway cfg attached tnc, rfl⟩

def start (a : Air) : Gateway := startGateway a.cfg a.attached a.tnc

def perform (a : Air) (op : RadioOp) : Air where
  cfg := a.cfg
  attached := a.attached
  tnc := a.tnc
  performed := a.performed ++ [op]
  gateway := AirTrace.perform a.gateway op
  faithful := by
    rw [List.foldl_append, ← a.faithful]
    rfl

@[simp] theorem perform_gateway (a : Air) (op : RadioOp) :
    (a.perform op).gateway = AirTrace.perform a.gateway op := rfl

@[simp] theorem perform_start (a : Air) (op : RadioOp) : (a.perform op).start = a.start := rfl

@[simp] theorem perform_performed (a : Air) (op : RadioOp) :
    (a.perform op).performed = a.performed ++ [op] := rfl

/-- The gateway before each operation. -/
def befores : Gateway → List RadioOp → List (Gateway × RadioOp)
  | _, [] => []
  | g, op :: ops => (g, op) :: befores (AirTrace.perform g op) ops

/-- Every operation, with the gateway it met. -/
def steps (a : Air) : List (Gateway × RadioOp) := befores a.start a.performed

/-- What an operation keeps under a condition on each, all of them keep. -/
theorem preserved {P : Gateway → Prop} {guard : Gateway → RadioOp → Prop}
    (hstep : ∀ g op, guard g op → P g → P (AirTrace.perform g op)) :
    ∀ (ops : List RadioOp) (g : Gateway), (∀ e ∈ befores g ops, guard e.1 e.2) → P g →
      P (ops.foldl AirTrace.perform g) := by
  intro ops
  induction ops with
  | nil =>
    intro g _ h
    exact h
  | cons op ops ih =>
    intro g hguard h
    have hop : guard g op := hguard (g, op) List.mem_cons_self
    apply ih
    · intro e he
      exact hguard e (List.mem_cons_of_mem _ he)
    · exact hstep g op hop h

/-- It holds between the operations as well. -/
theorem preserved_throughout {P : Gateway → Prop} {guard : Gateway → RadioOp → Prop}
    (hstep : ∀ g op, guard g op → P g → P (AirTrace.perform g op)) :
    ∀ (ops : List RadioOp) (g : Gateway), (∀ e ∈ befores g ops, guard e.1 e.2) → P g →
      ∀ e ∈ befores g ops, P e.1 := by
  intro ops
  induction ops with
  | nil =>
    intro g _ _ e he
    exact absurd he List.not_mem_nil
  | cons op ops ih =>
    intro g hguard h e he
    rcases List.mem_cons.mp he with rfl | he
    · exact h
    · have hop : guard g op := hguard (g, op) List.mem_cons_self
      exact ih _ (fun e he => hguard e (List.mem_cons_of_mem _ he)) (hstep g op hop h) e he

end Air

end AirTrace
