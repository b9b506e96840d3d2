import Rfircd.Bridge
import Rfircd.TransitionSystem

/-! Runs of the server: one task, one state, one ordering of events.
Connections, stations, password jobs and the clock send the events in any order. -/
namespace ServerRuns

open Basics Ax25 AircSession KeyedTable MessageText HostKey IrcMessage IrcState AirTrace
open RadioGateway Accounts ServerOutput ServerCore Bridge

inductive Event where
  | connected (id : ℕ) (host : Text) (listenOnly : Bool)
  | line (id : ℕ) (line : Text)
  | disconnected (id : ℕ) (reason : Text)
  /-- A password job comes back. -/
  | authFinished (job : Job) (result : Except AccountError (Option Text))
  /-- A frame heard on the air. -/
  | rf (frame : Ax25Frame)
  | tick
  | shutdown
  /-- A client's writer takes a line, or is gone. -/
  | written (id : ℕ)
  | writerGone (id : ℕ)
  /-- The TNC task, between the server's events. -/
  | pump (e : PumpEvent)

/-- What a job can come back with: it may always fail. -/
def Possible (verifies : Text → Text → Prop) : Work → Except AccountError (Option Text) → Prop
  | .hash password, .ok (some hash) => verifies password hash
  | .verify password hash, .ok none => verifies password hash
  | _, .ok _ => False
  | _, .error _ => True

end ServerRuns

namespace ServerCore.Server

open Basics Ax25 AircSession KeyedTable MessageText HostKey IrcMessage IrcState AirTrace
open RadioGateway Accounts ServerOutput Bridge ServerRuns

/-! ### Connections -/

/-- Two caps: the one for each host bounds nothing on its own. -/
def refuses (s : Server) (host : Text) : Bool :=
  s.accounts.isIpBanned host ||
    (decide (0 < s.cfg.maxClients) && decide (s.cfg.maxClients ≤ s.state.ipUsers)) ||
    (decide (0 < s.cfg.maxConnsPerHost) &&
      decide (s.cfg.maxConnsPerHost ≤ s.state.ipCountFromHost host))

def connect (s : Server) (m : Moment) (id : ℕ) (host : Text) (listenOnly : Bool) : Server :=
  let s := { s with clientIds := id :: s.clientIds }
  if s.refuses host then s
  else
    let o := s.outlet
    { s with
      outlet := { o with
        clients := o.clients.insert id
        ipConnections := o.ipConnections + 1 }
      state := s.state.insertUser { User.new (.ip id) host m.now with listenOnly := listenOnly } }

/-! ### Housekeeping -/

/-- A message of ours can push the quietest station out; its user goes as well. -/
def reapEvictedPeers (s : Server) (m : Moment) : Server :=
  s.outlet.sessions.evicted.foldl (fun s call => s.quitUser m (.rf call) "Replaced")
    (s.perform .takeEvicted)

/-- The stations that were lost leave. -/
def tickStations (s : Server) (m : Moment) : Server :=
  let s := s.perform (.drainKeyed m.now)
  let g := s.outlet.gateway
  let lost := (s.outlet.sessions.tickRetries m.now (g.available && !g.interlockDown)).2.lost
  lost.foldl (fun s call => s.quitUser m (.rf call) "Signal lost") (s.perform (.tickSessions m.now))

def tickAir (s : Server) (m : Moment) : Server :=
  let s := s.withPolicy (s.outlet.policy.expire m.now)
  let s := { s with outlet := expireAprsMsgids s.outlet m.now }
  let s := s.perform (.tickAprs m.now)
  let s := { s with outlet := { s.outlet with mailbox := s.outlet.mailbox.expire m.now } }
  s.perform (.maybeIdentify m.now)

def usersWith (s : Server) (p : User → Bool) : List UserId :=
  ((s.state.users.entries.map Prod.snd).filter p).map User.id

/-- Connections that never finished the handshake. -/
def expireUnregistered (s : Server) (m : Moment) : Server :=
  let stale := s.usersWith fun u =>
    !u.registered && !u.isRf && decide (secs s.cfg.registrationTimeoutSecs < m.now - u.connectedAt)
  stale.foldl (fun s uid =>
    (s.closeLink uid "ERROR :Registration timeout").quitUser m uid "Registration timeout") s

/-- The low digits differ between connections that are near in time. -/
def guestNick (id maxNickLen : ℕ) : Text :=
  let digits := natText id
  if ("Guest_" : Text).length + digits.length ≤ maxNickLen then "Guest_" ++ digits
  else "Guest_" ++ digits.drop (digits.length - (maxNickLen - 6))

def clientOf : UserId → ℕ
  | .ip id => id
  | .rf _ => 0

def identifyTimeout (s : Server) (m : Moment) (uid : UserId) : Server :=
  ((s.noticeUser m uid "This nick is registered. Disconnecting.").closeLink uid
    "ERROR :Identify timeout on a registered nick").quitUser m uid "Identify timeout"

/-- A registered nick that nobody identified to is released. -/
def releaseNick (s : Server) (m : Moment) (uid : UserId) : Server :=
  let guest := guestNick (clientOf uid) s.cfg.maxNickLen
  let old := (s.user uid).elim [] User.nick
  let s := s.modifyUser uid fun u => { u with identifyBy := none, callsign := none }
  if s.state.nickTaken guest then s.identifyTimeout m uid
  else
    let mask := (s.user uid).elim [] User.nickMask
    match s.state.setNick uid guest with
    | (false, _) => s.identifyTimeout m uid
    | (true, st) =>
      let s := { s with state := st }
      let s := s.send fun o st => o.broadcastPeers st m uid (.nickChange old mask guest) true
      let s := s.noticeUser m uid
        (old ++ " is registered. Your nick is now " ++ guest ++ ". IDENTIFY to reclaim it.")
      s.refreshPrivileges m uid

def expireUnidentified (s : Server) (m : Moment) : Server :=
  let stale := s.usersWith fun u => !u.isRf && !u.nickIdentified && u.identifyBy.any (· ≤ m.now)
  stale.foldl (fun s uid => s.releaseNick m uid) s

def warnNickStoreFailures (s : Server) (m : Moment) : Server :=
  if m.persistFailures ≤ s.persistFailSeen then s
  else
    let s := { s with persistFailSeen := m.persistFailures }
    (s.usersWith User.oper).foldl (fun s uid => s.noticeUser m uid
      ("Nick database write failed; registrations and grants in this process may not survive a " ++
        "restart. Check disk and permissions.")) s

def tick (s : Server) (m : Moment) : Server :=
  ((((s.tickStations m).tickAir m).expireUnregistered m).expireUnidentified m).warnNickStoreFailures m

/-- The station signs off. -/
def shutdown (s : Server) (m : Moment) : Server :=
  (s.perform (.idIfNeeded m.now)).send fun o _ =>
    o.clients.links.keys.foldl (fun o id => o.sendRaw id "ERROR :Server shutting down") o

/-! ### Events -/

def handleLine (s : Server) (m : Moment) (id : ℕ) (line : Text) : Server :=
  match Message.parse line with
  | none => s
  | some msg => s.handleClientMessage m id msg

def finishJob (s : Server) (m : Moment) (job : Job) (result : Except AccountError (Option Text)) :
    Server :=
  { s with jobs := s.jobs.erase job }.finishAuth m job.client job.kind job.nick result

def writeLine (c : Clients) (id : ℕ) : Clients :=
  match c.links.get id with
  | none => c
  | some link => { c with links := c.links.set id { link with queued := link.queued.tail } }

def stopWriter (c : Clients) (id : ℕ) : Clients :=
  match c.links.get id with
  | none => c
  | some link => { c with links := c.links.set id { link with alive := false } }

def withClients (s : Server) (f : Clients → Clients) : Server :=
  { s with outlet := { s.outlet with clients := f s.outlet.clients } }

def next (reader : BeaconReader) (s : Server) (e : Moment × ServerRuns.Event) : Server :=
  let m := e.1
  match e.2 with
  | .connected id host listenOnly => (s.connect m id host listenOnly).reapEvictedPeers m
  | .line id line => (s.handleLine m id line).reapEvictedPeers m
  | .disconnected id reason => (s.quitUser m (.ip id) reason).reapEvictedPeers m
  | .authFinished job result => (s.finishJob m job result).reapEvictedPeers m
  | .rf frame => (s.handleRfFrame reader m frame).reapEvictedPeers m
  | .tick => (s.tick m).reapEvictedPeers m
  | .shutdown => (s.shutdown m).reapEvictedPeers m
  | .written id => s.withClients fun c => writeLine c id
  | .writerGone id => s.withClients fun c => stopWriter c id
  | .pump e => s.perform (.pump e)

end ServerCore.Server

namespace ServerRuns

open Bridge ServerCore RadioGateway

def Initial (s : Server) : Prop :=
  ∃ cfg attached tnc accounts unix, s = Server.new cfg attached tnc accounts unix

/-- Connections have numbers of their own, and a job comes back once. -/
def Enabled (verifies : Basics.Text → Basics.Text → Prop) (s : Server) (e : ServerOutput.Moment × Event) :
    Prop :=
  match e.2 with
  | .connected id _ _ => id ∉ s.clientIds
  | .authFinished job result => job ∈ s.jobs ∧ Possible verifies job.work result
  | .pump e => TransmitPump.Enabled s.outlet.gateway.pump e.event
  | _ => True

/-- The server, for any reader of beacons and any password check. -/
def system (reader : BeaconReader) (verifies : Basics.Text → Basics.Text → Prop) :
    TransitionSystem.System Server (ServerOutput.Moment × Event) :=
  .ofNext Initial (Enabled verifies) (Server.next reader)

def everyStep (_ : Server) (_ : ServerOutput.Moment × Event) : Prop := True

instance (s : Server) (e : ServerOutput.Moment × Event) : Decidable (everyStep s e) :=
  inferInstanceAs (Decidable True)

instance (verifies : Basics.Text → Basics.Text → Prop) [∀ p h, Decidable (verifies p h)]
    (work : ServerCore.Work) (result : Except Accounts.AccountError (Option Basics.Text)) :
    Decidable (Possible verifies work result) := by
  unfold Possible
  split <;> infer_instance

instance (verifies : Basics.Text → Basics.Text → Prop) [∀ p h, Decidable (verifies p h)]
    (s : Server) (e : ServerOutput.Moment × Event) : Decidable (Enabled verifies s e) := by
  unfold Enabled
  split <;> infer_instance

/-! ### A small gateway

One bridged channel and one operator. A password verifies against itself. -/
namespace Small

open Basics Ax25 Airc AircSession MessageText IrcMessage IrcState AirTrace AirPolicy ServerOutput
open TransitionSystem

def radio : RadioConfig where
  enabled := true
  callsign := "SK0MT-1"
  gateway := some ⟨"SK0MT", 1⟩
  idText := "rfircd"
  idInterval := secs 600
  path := []
  destination := ⟨"AIRC", 0⟩
  maxQueuedAirtime := secs 120
  ackTimeoutSecs := 12
  maxRetries := 3
  aprsOnly := false
  sessions := .default

def policy : PolicyConfig where
  maxRfTextLen := 200
  rfMsgsPerMin := 20
  rfBurst := 10
  ipToRfMsgsPerMin := 20
  ipToRfBurst := 10
  blockApparentCiphertext := true
  denyCallsigns := []
  allowCallsigns := []
  rfChannelMsgsPerMin := 20
  rfChannelBurst := 10
  ipCmdsPerMin := 120
  ipCmdBurst := 30
  identifyPerMin := 10
  identifyBurst := 5

def config : ServerConfig where
  name := "gw"
  network := "net"
  motd := []
  maxNickLen := 16
  maxChannelsPerUser := 20
  password := none
  maxClients := 0
  maxConnsPerHost := 0
  registrationTimeoutSecs := 60
  minPasswordLen := 8
  identifyTimeoutSecs := 60
  opers := [⟨"root", "secret", false⟩]
  channels := [⟨"#rf", true, [], []⟩]
  radio := radio
  duty := ⟨true, 30, 600, 30, 30, 600, 600, 1200, 300, 50⟩
  txPacingMs := 1500
  aprs := true
  aprsChannel := "#rf"
  presenceNotices := true
  repeatRfTraffic := false
  noticeAirRelay := true
  rfNamesMax := 10
  mailboxEnabled := true
  mailboxPerStation := 10
  mailboxTotal := 100
  mailboxTtlSecs := 86400
  mailboxFlushBatch := 3
  maxRfFragments := 3
  policy := policy

def start : Server := .new config true .default .empty 0

def noBeacon : BeaconReader := fun _ _ => none

/-- So many seconds after the start. -/
def second (t : ℕ) : Moment := ⟨secs t, t, t, 0, [], 0, [], [], 0⟩

/-- One event every second. -/
def seconds (es : List Event) : List (Moment × Event) :=
  es.zipIdx.map fun e => (second (e.2 + 1), e.1)

def run (es : List Event) : Server := (seconds es).foldl (Server.next noBeacon) start

def Feasible (es : List Event) : Prop :=
  Runs everyStep (Enabled Eq) (Server.next noBeacon) start (seconds es)

instance (es : List Event) : Decidable (Feasible es) := decideRuns _ _ _ _ _

theorem reachable {es : List Event} (h : Feasible es) :
    Reachable (system noBeacon Eq) everyStep (run es) := by
  have hstart : Initial start := ⟨config, true, .default, .empty, 0, rfl⟩
  exact (Reachable.initial hstart).run h

/-- A frame to the gateway. -/
def frame (src : Callsign) (info : List UInt8) : Event :=
  .rf ⟨⟨⟨"SK0MT", 1⟩, true, false⟩, .new src, [], controlUi, some pidNoL3, info⟩

/-- An AIRC frame of a station, which asks for an acknowledgement. -/
def airc (src : Callsign) (kind : Kind) (seq : UInt16) (fields : List Text) : Event :=
  frame src ((AircFrame.new kind seq (textFields fields)).withFlags Flags.ackReq).encode

/-- An APRS message of a station. -/
def aprs (src : Callsign) (text : Text) : Event :=
  frame src (utf8 (":SK0MT-1  :" ++ text))

def station : Callsign := ⟨"SM0ABC", 7⟩

/-- A client connects and registers. -/
def joins (id : ℕ) (nick : Text) (listenOnly : Bool) : List Event :=
  [.connected id "10.0.0.1" listenOnly, .line id ("NICK " ++ nick), .line id "USER u 0 * :u"]

end Small

end ServerRuns
