import Rfircd.AirTrace
import Rfircd.RadioGateway
import Rfircd.StationDisplay
import Rfircd.TransitionSystem

/-! The client program of a station: what its operator types, its timer, and its main loop.
`taken` is the answer of the transmit queue to each frame in turn. -/
namespace StationClient

open Airc AircSession AirTrace Ax25 Basics IrcMessage MessageText RadioGateway StationDisplay
open TransitionSystem

/-! ### Lines that are typed -/

inductive Command where
  | quit (reason : Text)
  | join (chan : Text)
  | part (chan : Text)
  | names (chan : Text)
  | msg (rest : Text)
  | ping
  | help
  | unknown (cmd : Text)
  | chat (line : Text)
  deriving DecidableEq

/-- The first word of a line and the rest. -/
def splitCommand (line : Text) : Text × Text :=
  match splitOnce ' ' line with
  | some (cmd, rest) => (cmd, trim rest)
  | none => (line, [])

/-- How a line is read, unless it is empty. -/
def Command.parse (line : Text) : Option Command :=
  let line := trim line
  if line = [] then none
  else
    let (cmd, rest) := splitCommand line
    some <|
      if cmd = "/quit" ∨ cmd = "/q" then .quit rest
      else if cmd = "/join" ∨ cmd = "/j" then .join rest
      else if cmd = "/part" then .part rest
      else if cmd = "/names" ∨ cmd = "/who" then .names rest
      else if cmd = "/msg" ∨ cmd = "/m" then .msg rest
      else if cmd = "/ping" then .ping
      else if cmd = "/help" then .help
      else if cmd.head? = some '/' then .unknown cmd
      else .chat line

def protocolDest : Callsign := ⟨"AIRC", 0⟩

/-- Direct RF when the nick is a callsign, in either spelling; other nicks go via the gateway. -/
def rfDest (who : Text) : Option Callsign :=
  ((Callsign.fromStr who).or (Callsign.fromNick who)).filter Callsign.looksLikeAmateurCall

/-- `{:04X}`. -/
def epochText (epoch : UInt16) : Text :=
  let digits := (Nat.toDigits 16 epoch.toNat).map toAsciiUpper
  List.replicate (4 - digits.length) '0' ++ digits

/-! ### The station -/

structure Client where
  station : Station
  gateway : Callsign
  current : Option Text
  epoch : UInt16
  lastHello : ℕ
  keyed : List Keyed

def transmitAll (st : Station) (taken : ℕ → Bool) (frames : List (Callsign × AircFrame)) : Station :=
  frames.zipIdx.foldl (fun st e => st.transmitTo (taken e.2) e.1.1 e.1.2) st

namespace Client

variable (c : Client) (now : ℕ) (taken : ℕ → Bool)

def say (line : Text) : Client := { c with station := c.station.say line }

/-- Frames go out under another state of the sessions. -/
def transmit (sessions : Sessions) (frames : List (Callsign × AircFrame)) : Client :=
  { c with station := transmitAll { c.station with sessions := sessions } taken frames }

def sendTo (dest : Callsign) (kind : Kind) (fields : List Text) (reliable : Bool) : Client :=
  let (sessions, out) := c.station.sessions.enqueue dest kind (textFields fields) reliable now
  let (sessions, acks) := sessions.drainAcks
  c.transmit taken sessions (out.frames.map (dest, ·) ++ acks)

/-- Queue a message for the gateway. -/
def send (kind : Kind) (fields : List Text) (reliable : Bool) : Client :=
  c.sendTo now taken c.gateway kind fields reliable

/-- Channel chat is one broadcast. The gateway's record lends the sequence number. -/
def sendChat (fields : List Text) : Client :=
  let (sessions, out) := c.station.sessions.enqueue c.gateway .msg (textFields fields) false now
  c.transmit taken sessions (out.frames.map (protocolDest, ·))

def sendHello : Client :=
  { c.send now taken .hello ["rfirc-station/1", epochText c.epoch] true with lastHello := now }

/-- The channel a command is about: the current one when none is named. -/
def channelOr (chan : Text) : Text := if chan = [] then c.current.getD [] else chan

/-- `false` ends the main loop. -/
def obey : Command → Client × Bool
  | .quit reason => (c.send now taken .quit [reason] false, false)
  | .join chan =>
    if chan = [] then (c.say "usage: /join #channel", true)
    else ({ c.send now taken .join [chan] true with current := some chan }, true)
  | .part chan =>
    let chan := c.channelOr chan
    if chan = [] then (c, true)
    else
      let c' := c.send now taken .part [chan] true
      (if c.current = some chan then { c' with current := none } else c', true)
  | .names chan =>
    let chan := c.channelOr chan
    if chan = [] then (c.say "join a channel first", true)
    else (c.send now taken .names [chan] true, true)
  | .msg rest =>
    match splitOnce ' ' rest with
    | none => (c.say "usage: /msg <nick> <text>", true)
    | some (who, text) =>
      if text = [] then (c.say "usage: /msg <nick> <text>", true)
      else
        let c' := match rfDest who with
          | some dest => c.sendTo now taken dest .msg [who, text] true
          | none => c.send now taken .msg [who, text] true
        (c'.say ("-> " ++ who ++ ": " ++ text), true)
  | .ping => (c.send now taken .ping ["s"] false, true)
  | .help => (c.say "/join #chan  /part  /names  /msg <nick> <text>  /ping  /quit", true)
  | .unknown cmd => (c.say ("unknown command: " ++ cmd), true)
  | .chat line =>
    match c.current with
    | none => (c.say "join a channel first: /join #rf", true)
    | some chan => (c.sendChat now taken [chan, line], true)

def handleInput (line : Text) : Client × Bool :=
  match Command.parse line with
  | none => (c, true)
  | some cmd => c.obey now taken cmd

def handleRf (ax : Ax25Frame) : Client := { c with station := c.station.handleRf ax now taken }

/-! ### The timer -/

/-- The TNC reports a frame that it wrote. -/
def noteKeyed (k : Keyed) : Client :=
  if c.keyed.length < keyedCapacity then { c with keyed := c.keyed ++ [k] } else c

def drainKeyed : Client :=
  { c with
    keyed := []
    station.sessions := c.keyed.foldl (fun s k => s.onKeyed k.dest k.seq now) c.station.sessions }

/-- We were in contact, have heard nobody for five minutes, and did not say HELLO lately. -/
def wantsHello : Bool :=
  c.station.lastRx.any fun heard => secs (5 * 60) < now - heard && secs 60 < now - c.lastHello

/-- `clock` is the time when the HELLO is sent. The answer is whether a station was lost. -/
def tick (clock : ℕ) (helloTaken : ℕ → Bool) : Client × Bool :=
  let c := c.drainKeyed now
  let c := if c.wantsHello now then { c.sendHello clock helloTaken with lastHello := now } else c
  let (sessions, out) := c.station.sessions.tickRetries now true
  let (sessions, acks) := sessions.drainAcks
  (c.transmit taken sessions (out.transmit ++ acks), decide (out.lost ≠ []))

end Client

/-! ### The program -/

structure Args where
  call : Callsign
  gateway : Callsign
  channel : Option Text
  paclen : ℕ
  path : List Callsign
  quiet : Bool

def Args.config (args : Args) : SessionConfig := { SessionConfig.default with paclen := args.paclen }

/-- The largest frame that the TNC task takes. -/
def Args.maxFrame (args : Args) : ℕ := args.paclen + 64

def Args.new (args : Args) (epoch : UInt16) (now : ℕ) : Client where
  station := ⟨args.call, args.path, args.quiet, .new args.config, none, [], []⟩
  gateway := args.gateway
  current := none
  epoch := epoch
  lastHello := now
  keyed := []

/-- HELLO, and the channel of the command line. -/
def Args.start (args : Args) (epoch : UInt16) (now : ℕ) (helloTaken joinTaken : ℕ → Bool) : Client :=
  let c := (args.new epoch now).sendHello now helloTaken
  match args.channel with
  | none => c
  | some chan => { c.send now joinTaken .join [chan] true with current := some chan }

inductive Event where
  | hear (ax : Ax25Frame) (now : ℕ) (taken : ℕ → Bool)
  | type (line : Text) (now : ℕ) (taken : ℕ → Bool)
  | tick (now clock : ℕ) (helloTaken taken : ℕ → Bool)
  | keyed (k : Keyed)
  /-- The terminal or the radio is gone. -/
  | closed

/-- The main loop, with all that was typed and heard in it. -/
structure Loop where
  client : Client
  running : Bool
  typed : List Text
  heard : List Ax25Frame

namespace Loop

def next (l : Loop) : Event → Loop
  | .hear ax now taken =>
    { l with client := l.client.handleRf now taken ax, heard := l.heard ++ [ax] }
  | .type line now taken =>
    let (client, running) := l.client.handleInput now taken line
    { l with client := client, running := running, typed := l.typed ++ [line] }
  | .tick now clock helloTaken taken =>
    { l with client := (l.client.tick now taken clock helloTaken).1 }
  | .keyed k => { l with client := l.client.noteKeyed k }
  | .closed => { l with running := false }

/-- Any frames, any lines and any answers of the transmit queue, in any order. -/
def system (args : Args) (epoch : UInt16) : System Loop Event :=
  .ofNext (fun l => ∃ now helloTaken joinTaken,
      l = ⟨args.start epoch now helloTaken joinTaken, true, [], []⟩)
    (fun l _ => l.running = true) next

end Loop

/-! ### What was asked for -/

/-- A message that a command, or the start of the program, puts on the air. -/
structure Request where
  dest : Callsign
  kind : Kind
  fields : List Text
  reliable : Bool
  deriving DecidableEq

/-- The channel that a command names; the current one is meant when it names none. -/
def named (current : Option Text) (chan : Text) : Text :=
  if chan = [] then current.getD [] else chan

def aboutChannel (gateway : Callsign) (kind : Kind) (chan : Text) : List Request :=
  if chan = [] then [] else [⟨gateway, kind, [chan], true⟩]

def privateMessage (gateway : Callsign) (rest : Text) : List Request :=
  ((splitOnce ' ' rest).filter fun p => p.2 ≠ []).toList.map fun p =>
    ⟨(rfDest p.1).getD gateway, .msg, [p.1, p.2], true⟩

namespace Command

def requests (gateway : Callsign) (current : Option Text) : Command → List Request
  | quit reason => [⟨gateway, .quit, [reason], false⟩]
  | join chan => aboutChannel gateway .join chan
  | part chan => aboutChannel gateway .part (named current chan)
  | names chan => aboutChannel gateway .names (named current chan)
  | msg rest => privateMessage gateway rest
  | ping => [⟨gateway, .ping, ["s"], false⟩]
  | chat line => current.toList.map fun chan => ⟨protocolDest, .msg, [chan, line], false⟩
  | help | unknown _ => []

/-- The channel of plain lines after the command. -/
def channel (current : Option Text) : Command → Option Text
  | join chan => if chan = [] then current else some chan
  | part chan => current.filter fun now => named current chan ≠ now ∨ now = []
  | _ => current

end Command

/-- All that was asked for, and the channel of plain lines. -/
structure Script where
  requests : List Request
  channel : Option Text

namespace Script

def read (gateway : Callsign) (s : Script) (line : Text) : Script :=
  ((Command.parse line).map fun cmd =>
    Script.mk (s.requests ++ cmd.requests gateway s.channel) (cmd.channel s.channel)).getD s

end Script

/-- It depends on the command line and on what was typed, not on what was heard, nor on time. -/
def Args.script (args : Args) (epoch : UInt16) (typed : List Text) : Script :=
  typed.foldl (Script.read args.gateway)
    ⟨⟨args.gateway, .hello, ["rfirc-station/1", epochText epoch], true⟩ ::
      args.channel.toList.map fun chan => ⟨args.gateway, .join, [chan], true⟩, args.channel⟩

end StationClient
