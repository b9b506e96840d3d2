import Rfircd.AirPolicy
import Rfircd.AirTrace
import Rfircd.HeldMail

/-! What leaves the server: lines to its clients, and content for the air.
Nothing here changes who is connected or what a user may do. -/
namespace ServerOutput

open Basics KeyedTable MessageText HostKey IrcMessage IrcState HeldMail AprsCodec AirTrace AirPolicy
open Airc AircSession RadioGateway

structure ChannelConfig where
  name : Text
  rf : Bool
  topic : Text
  operators : List Text

/-- A password that is `hashed` is an Argon2 hash, by the judgement of the parser of hashes. -/
structure OperConfig where
  name : Text
  password : Text
  hashed : Bool

structure DutyConfig where
  enabled : Bool
  maxDutyPercent : ℕ
  windowSecs : ℕ
  maxContinuousSecs : ℕ
  cooldownSecs : ℕ
  hourlyAirtimeSecs : ℕ
  maxHoldSecs : ℕ
  baud : ℕ
  txdelayMs : ℕ
  txtailMs : ℕ

structure ServerConfig where
  name : Text
  network : Text
  motd : List Text
  maxNickLen : ℕ
  maxChannelsPerUser : ℕ
  password : Option Text
  maxClients : ℕ
  maxConnsPerHost : ℕ
  registrationTimeoutSecs : ℕ
  minPasswordLen : ℕ
  identifyTimeoutSecs : ℕ
  opers : List OperConfig
  channels : List ChannelConfig
  radio : RadioConfig
  duty : DutyConfig
  txPacingMs : ℕ
  aprs : Bool
  aprsChannel : Text
  presenceNotices : Bool
  repeatRfTraffic : Bool
  noticeAirRelay : Bool
  rfNamesMax : ℕ
  mailboxEnabled : Bool
  mailboxPerStation : ℕ
  mailboxTotal : ℕ
  mailboxTtlSecs : ℕ
  mailboxFlushBatch : ℕ
  maxRfFragments : ℕ
  policy : PolicyConfig

/-- The channel in which beacons are shown. -/
def ServerConfig.aprsListenChannel (cfg : ServerConfig) : Option Text :=
  if cfg.aprsChannel ≠ [] then some cfg.aprsChannel
  else (cfg.channels.find? ChannelConfig.rf).map ChannelConfig.name

/-- The clocks, and the gauges that only texts show. -/
structure Moment where
  now : ℕ
  unix : ℕ
  uptimeSecs : ℕ
  etaSecs : ℕ
  duty : Text
  coolingMs : ℕ
  airtime : Text
  queue : Text
  persistFailures : ℕ

/-! ### Deliveries -/

inductive Delivery where
  | privmsg (fromNick fromMask target text : Text) (notice truncated : Bool) (origin : Origin)
  | join (nick mask channel : Text)
  | part (nick mask channel reason : Text)
  | quit (nick mask reason : Text)
  | nickChange (oldNick mask newNick : Text)
  | topic (nick mask channel topic : Text) (origin : Origin)

inductive RfEmission where
  | chat (fromNick target text : Text) (truncated unicast : Bool) (origin : Origin)
  | topic (nick channel topic : Text) (origin : Origin)
  | presence (nick channel : Text) (joined : Bool)
  deriving DecidableEq

/-- The only events that may be radiated. -/
def Delivery.rfEmission (presenceNotices : Bool) : Delivery → Option RfEmission
  | privmsg fromNick _ target text false truncated origin =>
    match parseCtcp text with
    | some (cmd, rest) =>
      if eqIgnoreAsciiCase cmd "ACTION" then
        some (.chat fromNick target ("/me " ++ rest) truncated (!isChannelName target) origin)
      else none
    | none => some (.chat fromNick target text truncated (!isChannelName target) origin)
  | privmsg _ _ _ _ true _ _ => none
  | topic nick _ channel text origin => some (.topic nick channel (text.take 64) origin)
  | join nick _ channel => if presenceNotices then some (.presence nick channel true) else none
  | part nick _ channel _ => if presenceNotices then some (.presence nick channel false) else none
  | quit .. | nickChange .. => none

def renderIrc : Delivery → Message
  | .privmsg _ mask target text notice _ _ =>
    (Message.new (if notice then "NOTICE" else "PRIVMSG") [target, text]).withPrefix mask
  | .join _ mask channel => (Message.new "JOIN" [channel]).withPrefix mask
  | .part _ mask channel reason => (Message.new "PART" [channel, reason]).withPrefix mask
  | .quit _ mask reason => (Message.new "QUIT" [reason]).withPrefix mask
  | .nickChange _ mask newNick => (Message.new "NICK" [newNick]).withPrefix mask
  | .topic _ mask channel topic _ => (Message.new "TOPIC" [channel, topic]).withPrefix mask

/-! ### Clients -/

/-- A client's write side. The writer is gone when it is not alive. -/
structure Link where
  queued : List Text
  alive : Bool
  deriving DecidableEq

def outputQueue : ℕ := 1024

/-- `lines` keeps every line that was taken for a client, `hungUp` every link that was cut. -/
structure Clients where
  links : Table ℕ Link
  lines : List (ℕ × Text)
  hungUp : List ℕ

namespace Clients

def new : Clients := ⟨.empty, [], []⟩

def insert (c : Clients) (id : ℕ) : Clients := { c with links := c.links.set id ⟨[], true⟩ }

def disconnect (c : Clients) (id : ℕ) : Clients :=
  if (c.links.get id).isSome then
    { c with links := c.links.erase id, hungUp := c.hungUp ++ [id] }
  else c

/-- Writes one line, or drops the client. -/
def send (c : Clients) (id : ℕ) (line : Text) : Clients :=
  match c.links.get id with
  | none => c
  | some link =>
    if link.alive && decide (link.queued.length < outputQueue) then
      { c with
        links := c.links.set id { link with queued := link.queued ++ [line] }
        lines := c.lines ++ [(id, line)] }
    else c.disconnect id

end Clients

/-! ### The outlet -/

/-- Content in a frame, or in an APRS message, that was handed to the radio. -/
structure Aired where
  origin : Origin
  text : Text
  deriving DecidableEq

structure Outlet where
  cfg : ServerConfig
  air : Air
  framesRx : ℕ
  ipConnections : ℕ
  policy : Policy
  mailbox : Mailbox
  aprsMsgid : Table (Callsign × Text) ℕ
  aprsBeacon : Table (Callsign × Text) ℕ
  airNotices : Table (UserId × Text) ℕ
  clients : Clients
  aired : List Aired

namespace Outlet

/-- The text limit is clamped to what the permitted number of frames can carry. -/
def clampedPolicy (cfg : ServerConfig) : PolicyConfig :=
  let cap := cfg.radio.sessions.maxPayload * max cfg.maxRfFragments 1 - 48
  if 0 < cap ∧ cap < cfg.policy.maxRfTextLen then { cfg.policy with maxRfTextLen := cap }
  else cfg.policy

def new (cfg : ServerConfig) (attached : Bool) (tnc : TransmitPump.TncConfig) : Outlet where
  cfg := cfg
  air := .new cfg.radio attached tnc
  framesRx := 0
  ipConnections := 0
  policy := .new (clampedPolicy cfg)
  mailbox := .new cfg.mailboxEnabled cfg.mailboxPerStation cfg.mailboxTotal (secs cfg.mailboxTtlSecs)
  aprsMsgid := .empty
  aprsBeacon := .empty
  airNotices := .empty
  clients := .new
  aired := []

def gateway (o : Outlet) : Gateway := o.air.gateway

def sessions (o : Outlet) : Sessions := o.gateway.radio.sessions

def peer (o : Outlet) (call : Callsign) : Option Peer := o.sessions.peer call

def perform (o : Outlet) (op : RadioOp) : Outlet := { o with air := o.air.perform op }

def record (o : Outlet) (origin : Origin) (text : Text) : Outlet :=
  { o with aired := o.aired ++ [⟨origin, text⟩] }

/-! ### Lines to clients -/

def sendRaw (o : Outlet) (id : ℕ) (line : Text) : Outlet :=
  { o with clients := o.clients.send id line }

def numeric (o : Outlet) (st : State) (uid : UserId) (code : Text) (params : List Text) : Outlet :=
  match uid with
  | .rf _ => o
  | .ip id =>
    let nick := (st.user uid).elim ['*'] User.nick
    o.sendRaw id ((Message.new code (nick :: params)).withPrefix o.cfg.name).toText

/-- A notice to a station is a courtesy: one frame, without a retry. -/
def noticeUser (o : Outlet) (st : State) (m : Moment) (uid : UserId) (text : Text) : Outlet :=
  match uid with
  | .ip id =>
    let nick := (st.user uid).elim ['*'] User.nick
    o.sendRaw id ((Message.new "NOTICE" [nick, text]).withPrefix o.cfg.name).toText
  | .rf call => o.perform (.unicast call (.notice (text.take 80)) m.now)

/-- Several notices to one user. -/
def noticeAll (o : Outlet) (st : State) (m : Moment) (uid : UserId) (texts : List Text) : Outlet :=
  texts.foldl (fun o text => o.noticeUser st m uid text) o

/-- Several replies with one code. -/
def numerics (o : Outlet) (st : State) (uid : UserId) (code : Text) (rows : List (List Text)) :
    Outlet :=
  rows.foldl (fun o params => o.numeric st uid code params) o

/-- One line to every Internet member of a list. -/
def sendToMembers (o : Outlet) (members : List UserId) (line : Text) : Outlet :=
  members.foldl (fun o uid => match uid with
    | .ip id => o.sendRaw id line
    | .rf _ => o) o

/-! ### Content for the air -/

def airc (o : Outlet) : Bool := !o.cfg.radio.aprsOnly

def speaksAirc (o : Outlet) (call : Callsign) : Bool :=
  (o.peer call).any fun p => p.dialect = .airc

def speaksAprs (o : Outlet) (call : Callsign) : Bool :=
  (o.peer call).any fun p => p.dialect = .aprs

/-- The text as an APRS station reads it. -/
def aprsBody (fromNick text : Text) (truncated : Bool) : Text :=
  fromNick ++ ": " ++ text ++ (if truncated then ['\u2026'] else [])

def aprsChat (o : Outlet) (m : Moment) (call : Callsign) (body : Text) : Bool × Outlet :=
  ((o.gateway.enqueueAprsChat call body .direct m.now).1, o.perform (.aprsChat call body false m.now))

def unicast (o : Outlet) (m : Moment) (call : Callsign) (a : Addressed) : Bool × Outlet :=
  ((o.gateway.unicastFlagged call a.kind (a.payload call) a.reliable a.cls a.flags m.now).1,
    o.perform (.unicast call a m.now))

/-- What was accepted is on the record. -/
def recordIf (o : Outlet) (accepted : Bool) (origin : Origin) (text : Text) : Outlet :=
  if accepted then o.record origin text else o

def emitDirectChatRf (o : Outlet) (m : Moment) (call : Callsign) (fromNick text : Text)
    (truncated : Bool) (origin : Origin) : Outlet :=
  let (accepted, o) :=
    if o.gateway.wantsAprs call then o.aprsChat m call (aprsBody fromNick text truncated)
    else o.unicast m call (.chat fromNick text truncated)
  o.recordIf accepted origin text

def needsAirc (o : Outlet) (rfCalls : List Callsign) : Bool :=
  o.airc && (rfCalls.isEmpty || rfCalls.any o.speaksAirc)

def aprsTargets (o : Outlet) (rfCalls : List Callsign) : List Callsign :=
  if o.airc then rfCalls.filter o.speaksAprs else rfCalls

def emitChannelChatRfTo (o : Outlet) (m : Moment) (channel : Text) (rfCalls : List Callsign)
    (fromNick text : Text) (truncated : Bool) (origin : Origin) : Outlet :=
  let o := o.record origin text
  let o := if o.needsAirc rfCalls then o.perform (.broadcast (.chat channel fromNick text truncated))
    else o
  (o.aprsTargets rfCalls).foldl (fun o call =>
    o.perform (.aprsChat call (aprsBody fromNick text truncated) true m.now)) o

def emitTopic (o : Outlet) (m : Moment) (nick channel topic : Text) (origin : Origin) : Outlet :=
  if !o.airc then o
  else
    let (ok, policy) := o.policy.topicRateOk channel m.now
    let o := { o with policy := policy }
    if !ok then o
    else (o.record origin topic).perform (.broadcast (.topic channel nick topic))

def emitPresence (o : Outlet) (m : Moment) (nick channel : Text) (joined : Bool) : Outlet :=
  if !o.airc then o
  else
    let (ok, policy) := o.policy.presenceRateOk channel m.now
    let o := { o with policy := policy }
    if !ok then o else o.perform (.broadcast (.presence channel nick joined))

/-- Channel chat is not handed out here: it is fanned out with the channel. -/
def deliverRf (o : Outlet) (m : Moment) (call : Callsign) (d : Delivery) : Outlet :=
  match d.rfEmission o.cfg.presenceNotices with
  | some (.chat fromNick _ text truncated true origin) =>
    o.emitDirectChatRf m call fromNick text truncated origin
  | some (.topic nick channel topic origin) => o.emitTopic m nick channel topic origin
  | some (.presence nick channel joined) => o.emitPresence m nick channel joined
  | some (.chat _ _ _ _ false _) | none => o

def deliver (o : Outlet) (m : Moment) (uid : UserId) (d : Delivery) : Outlet :=
  match uid with
  | .ip id => o.sendRaw id (renderIrc d).toText
  | .rf call => o.deliverRf m call d

/-- With `allowRf` false the event stays on IRC. -/
def broadcastChannelEx (o : Outlet) (st : State) (m : Moment) (channel : Text) (d : Delivery)
    (except : Option UserId) (allowRf : Bool) : Outlet :=
  let members := (st.members channel).filter fun uid => some uid ≠ except
  let rfCalls := members.filterMap UserId.callsign
  let o := o.sendToMembers members (renderIrc d).toText
  if !allowRf then o
  else match d.rfEmission o.cfg.presenceNotices with
    | some (.chat fromNick _ text truncated false origin) =>
      o.emitChannelChatRfTo m channel rfCalls fromNick text truncated origin
    | some (.chat _ _ _ _ true _) | none => o
    | some (.topic ..) | some (.presence ..) =>
      if !o.airc then o
      else match rfCalls.head? <|> o.cfg.radio.gateway with
        | some call => o.deliverRf m call d
        | none => o

def broadcastChannel (o : Outlet) (st : State) (m : Moment) (channel : Text) (d : Delivery)
    (except : Option UserId) : Outlet :=
  o.broadcastChannelEx st m channel d except true

/-- The event goes on the air once at most. -/
def broadcastPeers (o : Outlet) (st : State) (m : Moment) (uid : UserId) (d : Delivery)
    (includeSelf : Bool) : Outlet :=
  let targets := st.peersOf uid ++ if includeSelf then [uid] else []
  (targets.foldl (fun (acc : Outlet × Bool) t =>
    let (o, rfDone) := acc
    if t.isRf then
      if rfDone || (d.rfEmission o.cfg.presenceNotices).isNone then (o, rfDone)
      else (o.deliver m t d, true)
    else (o.deliver m t d, rfDone)) (o, false)).1

end Outlet

end ServerOutput
