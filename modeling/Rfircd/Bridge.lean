import Rfircd.ServerCommands

/-! What happens when a frame arrives from the air.
Uplink is `MSG [target, text]`; downlink carries the sender's nick between the two, because a
station has no other way to know who spoke. -/
namespace Bridge

open Basics Ax25 Airc AircSession KeyedTable MessageText HostKey IrcMessage IrcState AprsCodec
open AirTrace AirPolicy AirScreen RadioGateway ServerOutput ServerCore

/-- Reads a position or status beacon, from the destination and the information field. -/
abbrev BeaconReader := Callsign → List UInt8 → Option Text

def isUi (f : Ax25Frame) : Bool := f.control &&& 0xEF == controlUi

/-- What a frame is to this gateway. -/
inductive Heard where
  | nothing
  | aprs (msg : AprsMessage)
  | beacon (summary : Text)
  | airc (frame : AircFrame) (forUs broadcast : Bool)

/-- The AIRC frame that the gateway reads. -/
def aircFrame : Heard → Option AircFrame
  | .airc f _ _ => some f
  | _ => none

def frameIsForUs (cfg : ServerConfig) (f : Ax25Frame) : Bool :=
  cfg.radio.gateway = some f.destination.call

/-- A protocol address such as `AIRC`; identification is not chat. -/
def frameIsProtocolBroadcast (f : Ax25Frame) : Bool :=
  !Callsign.looksLikeAmateurCall f.destination.call &&
    decide (callText f.destination.call ≠ ("ID" : Text))

def heardAirc (cfg : ServerConfig) (f : Ax25Frame) : Heard :=
  let forUs := frameIsForUs cfg f
  let broadcast := frameIsProtocolBroadcast f
  if !forUs && !broadcast then .nothing
  else match AircFrame.decode f.info with
    | .error _ => .nothing
    | .ok frame => .airc frame forUs broadcast

/-- APRS comes first: its messages name the addressee in the information field. -/
def heard (cfg : ServerConfig) (reader : BeaconReader) (f : Ax25Frame) : Heard :=
  if !isUi f || decide (f.pid ≠ some pidNoL3) then .nothing
  -- our own transmission, back through a digipeater
  else if cfg.radio.gateway = some f.source.call then .nothing
  else if !cfg.aprs then heardAirc cfg f
  else match AprsMessage.decode f.info, reader f.destination.call f.info with
    | some msg, _ => if cfg.radio.gateway.any msg.addressedTo then .aprs msg else .nothing
    | none, some summary => .beacon summary
    | none, none => heardAirc cfg f

def fieldTexts (f : AircFrame) : List Text := f.fields.map fromUtf8Lossy

/-- Channel chat on a protocol address has the uplink shape. Anything else is another gateway's
downlink, or noise. -/
def uplinkChatFromBroadcast (f : AircFrame) : Bool :=
  decide (f.kind = .msg ∨ f.kind = .notice) && decide (f.fields.length = 2)

/-- The text as it may be radiated, if it may. -/
def screenStation (p : Policy) (text : Text) : Option Screened :=
  match p.screenOutbound text with
  | .allow t => some ⟨t, false⟩
  | .truncated t => some ⟨t, true⟩
  | .deny _ => none

/-! ### Nicks of stations -/

/-- The callsign, and when somebody has it, the callsign with a number. -/
def stationNicks (call : Callsign) : List Text :=
  Callsign.toNick call ::
    (List.range 8).map fun i => Callsign.toNick call ++ '_' :: natText (i + 1)

def claimStationNick (st : State) (uid : UserId) : List Text → Option State
  | [] => none
  | nick :: rest =>
    match st.setNick uid nick with
    | (true, st) => some st
    | (false, _) => claimStationNick st uid rest

end Bridge

namespace ServerCore.Server

open Basics Ax25 Airc AircSession KeyedTable MessageText HostKey IrcMessage IrcState AprsCodec
open AirTrace AirPolicy AirScreen RadioGateway ServerOutput Bridge

def withPolicy (s : Server) (p : Policy) : Server :=
  { s with outlet := { s.outlet with policy := p } }

/-! ### Stations as users -/

def stationUser (s : Server) (m : Moment) (call : Callsign) : User :=
  { User.new (.rf call) (callText call ++ ".ax25") m.now with
    username := "rf"
    realname := callText call ++ " via " ++ s.cfg.radio.callsign
    callsign := some call
    registered := true }

/-- Returns whether the user is new. -/
def ensureRfUser (s : Server) (m : Moment) (call : Callsign) : Bool × Server :=
  let uid : UserId := .rf call
  if (s.user uid).isSome then (false, s)
  else
    let st := s.state.insertUser (s.stationUser m call)
    match claimStationNick st uid (stationNicks call) with
    | none => (false, { s with state := st.removeUser uid })
    | some st =>
      (true, ({ s with state := st }.perform (.touch call m.now)).perform (.note call .registered))

/-- A station that becomes a user gets its mail. -/
def greet (s : Server) (m : Moment) (call : Callsign) : Server :=
  match s.ensureRfUser m call with
  | (true, s) => s.send fun o _ => o.flushMailbox m call
  | (false, s) => s

/-! ### Channels -/

/-- The count answers the question people have; `NAMES` gets the list when it is asked for. -/
def joinReply (s : Server) (m : Moment) (call : Callsign) (display : Text) : Server :=
  match s.state.channel display with
  | none => s
  | some chan =>
    let topic := (chan.topic.getD []).take 64
    s.send fun o _ =>
      let (accepted, o) :=
        o.unicast m call (.joined display (natText chan.members.size ++ " here") topic)
      o.recordIf (accepted && chan.topic.isSome) chan.topicOrigin topic

/-- The other stations heard the `JOIN` themselves. A radio that speaks APRS cannot read the
reply. -/
def announceStation (s : Server) (m : Moment) (call : Callsign) (display : Text)
    (flags : MemberFlags) (aircReply : Bool) : Server :=
  let uid : UserId := .rf call
  let s := s.perform (.note call (.joined display))
  let (nick, mask) := s.signature uid
  let s := s.send fun o st =>
    o.broadcastChannelEx st m display (.join nick mask display) (some uid) false
  let s := if flags.voice then s.announceMode display s.cfg.name "+v" [nick] else s
  let s := if (s.state.channel display).any Channel.hasRfMembers then
      s.send fun o st => o.noticeRfAudience st m display
        ("RF station " ++ callText call ++
          " is on frequency. Messages from +v users will be radiated.")
    else s
  if aircReply then s.joinReply m call display else s

def rfJoin (s : Server) (m : Moment) (call : Callsign) (channel : Text) (aircReply : Bool) : Server :=
  if !isChannelName channel then s.rfError m call "403" "no such channel"
  else
    let display := s.channelDisplayName channel
    match s.state.channel display with
    | none => s.rfError m call "403" "no such channel"
    | some chan =>
      if !chan.rf then s.rfError m call "404" "channel is not bridged to RF"
      else match s.join (.rf call) display none with
        | none => s
        | some (flags, s) => s.announceStation m call display flags aircReply

def rfPart (s : Server) (m : Moment) (uid : UserId) (channel reason : Text) : Server :=
  match s.user uid, s.state.channel channel with
  | some user, some chan =>
    if !chan.isMember uid then s
    else
      let d : Delivery := .part user.nick user.nickMask channel
        (if reason = [] then "Leaving" else reason)
      let s := s.send fun o st => o.broadcastChannelEx st m channel d (some uid) false
      let s := { s with state := (s.state.part uid channel).2 }
      if (s.state.channel channel).all Channel.hasRfMembers then s
      else s.send fun o st => o.noticeRfAudience st m channel
        "No RF station remains in this channel. Messages stay on IRC until one joins."
  | _, _ => s

/-- At most so many names, and at most 160 octets. -/
def namesForAir (s : Server) (channel : Text) : Text :=
  let all := s.state.namesOf channel
  let (out, shown, _) := all.foldl (fun (acc : Text × ℕ × Bool) n =>
    let (out, shown, full) := acc
    if full || decide (s.cfg.rfNamesMax ≤ shown) || decide (160 < octets out + octets n + 1) then
      (out, shown, true)
    else ((if out = [] then n else out ++ ',' :: n), shown + 1, false)) ([], 0, false)
  if shown < all.length then out ++ ",+" ++ natText (all.length - shown) ++ " more" else out

/-- A station that was removed from a channel does not come back by talking. -/
def wasKickedFrom (s : Server) (call : Callsign) (display : Text) : Bool :=
  (s.outlet.peer call).any fun p => decide (String.ofList display ∈ p.kicked)

/-! ### Messages from AIRC stations -/

def rfStationRateOk (s : Server) (m : Moment) (src : Callsign) : Bool × Server :=
  let (ok, policy) := s.outlet.policy.rfStationRateOk (callText src) m.now
  (ok, s.withPolicy policy)

/-- Every station in range heard a message already. It is repeated when that is switched on, and
never when policy refuses it. -/
def rfSpeak (s : Server) (m : Moment) (src : Callsign) (user : User) (display text : Text)
    (notice : Bool) : Server :=
  let screened := if s.cfg.repeatRfTraffic then screenStation s.outlet.policy text else none
  let said := screened.getD ⟨text, false⟩
  s.relay m (.rf src) display
    (.privmsg user.nick user.nickMask display said.text notice said.truncated (.station src text))
    screened.isSome

/-- A lost `JOIN` is forgiven, a kick is not. -/
def rfChannelMessage (s : Server) (m : Moment) (src : Callsign) (user : User) (target text : Text)
    (notice : Bool) : Server :=
  let display := s.channelDisplayName target
  match s.state.channel display with
  | none => s.rfError m src "403" "no such channel"
  | some chan =>
    if !chan.rf then s.rfError m src "404" "channel is not bridged to RF"
    else if chan.isMember (.rf src) then s.rfSpeak m src user display text notice
    else if s.wasKickedFrom src display then s.rfError m src "442" "you're not on that channel"
    else (s.rfJoin m src display true).rfSpeak m src user display text notice

def rfPrivateMessage (s : Server) (m : Moment) (src : Callsign) (user : User) (target text : Text)
    (notice : Bool) : Server :=
  match findTarget s.state target with
  | none => s.rfError m src "401" "no such nick"
  | some targetId =>
    let screened := screenStation s.outlet.policy text
    if screened.isNone && targetId.isRf then s
    else
      let said := screened.getD ⟨text, false⟩
      s.send fun o _ => o.deliver m targetId
        (.privmsg user.nick user.nickMask target said.text notice said.truncated (.station src text))

def rfMessage (s : Server) (m : Moment) (src : Callsign) (target text : Text) (notice : Bool) :
    Server :=
  match s.rfStationRateOk m src with
  | (false, s) => s.perform (.note src .dropped)
  | (true, s) =>
    let text := sanitize text
    if text = [] then s
    else if s.outlet.sessions.isBanned src then
      s.rfError m src "442" "removed by control operator"
    else
      let s := s.greet m src
      match s.user (.rf src) with
      | none => s
      | some user =>
        if isChannelName target then s.rfChannelMessage m src user target text notice
        else s.rfPrivateMessage m src user target text notice

def rfHello (s : Server) (m : Moment) (src : Callsign) : Server :=
  let s := (s.perform (.liftBan src)).ensureRfUser m src |>.2
  let motd := (s.cfg.motd.head?.getD "welcome").take 48
  (s.perform (.unicast src (.welcome s.cfg.name motd) m.now)).send fun o _ => o.flushMailbox m src

def rfPartFrame (s : Server) (m : Moment) (src : Callsign) (channel reason : Text) : Server :=
  let display := s.channelDisplayName channel
  (s.rfPart m (.rf src) display (sanitize reason)).perform (.note src (.left display))

def rfQuit (s : Server) (m : Moment) (src : Callsign) (reason : Option Text) : Server :=
  let reason := sanitize (reason.getD "Signed off")
  s.quitUser m (.rf src) (if reason = [] then "Signed off" else reason)

def stationRegistered (s : Server) (src : Callsign) : Bool :=
  (s.outlet.peer src).any Peer.registered

/-- A control frame, as far as the rate limit allows. -/
def rfControl (s : Server) (m : Moment) (src : Callsign) (f : Server → Server) : Server :=
  match s.rfStationRateOk m src with
  | (false, s) => s
  | (true, s) => f s

def handleAircMessage (s : Server) (m : Moment) (src : Callsign) (msg : AircFrame) : Server :=
  let fields := fieldTexts msg
  match msg.kind with
  | .hello => s.rfControl m src fun s => s.rfHello m src
  | .join => s.rfControl m src fun s =>
    let s := s.perform (.liftBan src)
    match fields.head? with
    | none => s
    | some channel => (s.greet m src).rfJoin m src channel true
  | .part => s.rfControl m src fun s =>
    match fields.head? with
    | none => s
    | some channel => s.rfPartFrame m src channel (fields[1]?.getD [])
  | .quit => s.rfControl m src fun s => s.rfQuit m src fields.head?
  | .msg | .notice =>
    match fields with
    -- three fields are another gateway's downlink
    | [target, text] => s.rfMessage m src target text (msg.kind = .notice)
    | _ => s
  | .names => s.rfControl m src fun s =>
    if !s.stationRegistered src then s
    else match fields.head? with
      | none => s
      | some channel =>
        let display := s.channelDisplayName channel
        s.perform (.unicast src (.names display (s.namesForAir display)) m.now)
  | .ping => s.rfControl m src fun s =>
    if !s.stationRegistered src then s
    else s.perform (.unicast src (.pong ((fields.head?.getD []).take 8)) m.now)
  | .id | .ack | .welcome | .namesReply | .pong | .presence | .stored | .error => s

/-- The first frame from a new callsign is rationed: nobody knows who invents it. -/
def firstContactOk (s : Server) (m : Moment) (src : Callsign) : Bool × Server :=
  if (s.outlet.peer src).isSome then (true, s)
  else
    let (ok, policy) := s.outlet.policy.firstContactOk m.now
    (ok, s.withPolicy policy)

/-- The message that a frame completes, if it is one for the server. -/
def uplink (s : Server) (m : Moment) (src : Callsign) (f : AircFrame) (forUs broadcast : Bool) :
    Option AircFrame :=
  (s.outlet.sessions.onReceive src f m.now forUs).2.deliver.filter fun msg =>
    !broadcast || uplinkChatFromBroadcast msg

def handleAircFrame (s : Server) (m : Moment) (src : Callsign) (f : AircFrame)
    (forUs broadcast : Bool) : Server :=
  if !Callsign.looksLikeAmateurCall src || !s.outlet.policy.stationAllowed src then s
  else match s.firstContactOk m src with
    | (false, s) => s
    | (true, s) =>
      let deliver := s.uplink m src f forUs broadcast
      let s := s.perform (.receive src f m.now forUs)
      let s := match deliver with
        | none => s
        | some msg => s.handleAircMessage m src msg
      s.perform .drainAcks

/-! ### Messages from APRS stations -/

def aprsMsgidTtl : ℕ := secs (30 * 60)
def aprsBeaconTtl : ℕ := secs 90
def aprsMemoryMax : ℕ := 256

def expireAprsMsgids (o : Outlet) (now : ℕ) : Outlet :=
  { o with
    aprsMsgid := o.aprsMsgid.filterMap fun _ t => if now - t < aprsMsgidTtl then some t else none
    aprsBeacon := o.aprsBeacon.filterMap fun _ t => if now - t < aprsBeaconTtl then some t else none }

/-- A new entry takes the place of the oldest. -/
def rememberIn (t : Table (Callsign × Text) ℕ) (key : Callsign × Text) (now : ℕ) :
    Table (Callsign × Text) ℕ :=
  let t := if aprsMemoryMax ≤ t.size then
      match t.leastKey id with
      | some oldest => t.erase oldest
      | none => t
    else t
  t.set key now

def rememberAprsMsgid (o : Outlet) (src : Callsign) (id : Text) (now : ℕ) : Outlet :=
  let o := expireAprsMsgids o now
  { o with aprsMsgid := rememberIn o.aprsMsgid (src, id) now }

def aprsMsgidSeen (o : Outlet) (src : Callsign) (id : Text) (now : ℕ) : Bool :=
  (o.aprsMsgid.get (src, id)).any fun t => decide (now - t < aprsMsgidTtl)

def aprsBeaconSeen (o : Outlet) (src : Callsign) (summary : Text) (now : ℕ) : Bool :=
  (o.aprsBeacon.get (src, summary)).any fun t => decide (now - t < aprsBeaconTtl)

/-- A stock radio retries until it hears the acknowledgement, so every path ends in one. -/
def aprsAck (s : Server) (src : Callsign) (msg : AprsMessage) : Server :=
  match msg.msgid with
  | none => s
  | some id => s.perform (.aprsAck src id)

def aprsRejOrAck (s : Server) (src : Callsign) (msg : AprsMessage) : Server :=
  match msg.msgid with
  | none => s
  | some id => s.perform (.aprsRej src id)

/-- An acknowledgement, and a word about what was wrong. -/
def aprsRefuse (s : Server) (src : Callsign) (msg : AprsMessage) (reply : Text) : Server :=
  (s.aprsAck src msg).perform (.aprsReply src reply)

/-- `nick text`: to a user who is online. -/
def aprsPrivate (s : Server) (m : Moment) (src : Callsign) (msg : AprsMessage) (target : User)
    (body : Text) : Server :=
  if body = [] then s.aprsRefuse src msg "send nick text"
  else
    let s := s.greet m src
    match s.user (.rf src) with
    | none => s.aprsAck src msg
    | some user =>
      (s.send fun o _ => o.deliver m target.id
        (.privmsg user.nick user.nickMask target.nick body false false (.station src body))).aprsAck
        src msg

/-- The other stations of a channel that speak AIRC, who did not understand the APRS frame. -/
def aircOthers (s : Server) (src : Callsign) (display : Text) : List Callsign :=
  ((s.state.members display).filterMap UserId.callsign).filter fun call =>
    call ≠ src && s.outlet.speaksAirc call

/-- A channel line goes to IRC, and to the AIRC stations when there are any. -/
def aprsSpeak (s : Server) (m : Moment) (src : Callsign) (msg : AprsMessage) (user : User)
    (display body : Text) : Server :=
  let screened :=
    if s.aircOthers src display = [] then none else screenStation s.outlet.policy body
  let said := screened.getD ⟨body, false⟩
  let s := s.relay m (.rf src) display
    (.privmsg user.nick user.nickMask display said.text false said.truncated (.station src body))
    false
  let s := if screened.isSome then
      s.send fun o _ => (o.record (.station src body) said.text).perform
        (.broadcast (.chat display user.nick said.text said.truncated))
    else s
  s.aprsAck src msg

def aprsChannelLine (s : Server) (m : Moment) (src : Callsign) (msg : AprsMessage)
    (channel body : Text) : Server :=
  let display := s.channelDisplayName channel
  match s.state.channel display with
  | none => s.aprsRefuse src msg "no such channel"
  | some chan =>
    if !chan.rf then s.aprsRefuse src msg "channel is not bridged"
    else
      let s := s.greet m src
      if !chan.isMember (.rf src) && s.wasKickedFrom src display then
        s.aprsRefuse src msg "not on that channel"
      else
        let s := if chan.isMember (.rf src) then s else s.rfJoin m src display false
        match s.user (.rf src) with
        | none => s.aprsAck src msg
        | some user => s.aprsSpeak m src msg user display body

/-- Who is meant by `nick text`. -/
def aprsTarget (s : Server) (text : Text) : Option (User × Text) :=
  (splitOnce ' ' text).bind fun (first, rest) =>
    if isChannelName first then none
    else (s.state.byNick first).map fun target => (target, sanitize (trim rest))

def aprsText (s : Server) (m : Moment) (src : Callsign) (msg : AprsMessage) (text : Text) : Server :=
  if isHelp text then
    s.aprsRefuse src msg
      (if s.cfg.aprsChannel = [] then "send #chan text"
      else "send #chan text, or text for the default channel")
  else match s.aprsTarget text with
    | some (target, body) => s.aprsPrivate m src msg target body
    | none =>
      match splitChannelLine text s.cfg.aprsChannel with
      | none => s.aprsRefuse src msg "send #chan text"
      | some (channel, body) => s.aprsChannelLine m src msg channel body

/-- A message that was not seen before is remembered by its number. -/
def aprsFresh (s : Server) (m : Moment) (src : Callsign) (msg : AprsMessage) : Server :=
  if s.outlet.sessions.isBanned src then s.aprsRejOrAck src msg
  else match msg.msgid with
    | none => s.aprsText m src msg (sanitize msg.text)
    | some id =>
      if aprsMsgidSeen s.outlet src id m.now then s.aprsAck src msg
      else
        { s with outlet := rememberAprsMsgid s.outlet src id m.now }.aprsText m src msg
          (sanitize msg.text)

def handleAprsMessage (s : Server) (m : Moment) (src : Callsign) (msg : AprsMessage) : Server :=
  if !Callsign.looksLikeAmateurCall src || !s.outlet.policy.stationAllowed src then s
  else if msg.isAckOrRej then
    match msg.controlMsgid with
    | none => s
    | some id => s.perform (.aprsAnswered src id m.now)
  else match s.rfStationRateOk m src with
    | (false, s) => s.perform (.note src .dropped)
    | (true, s) =>
      match s.firstContactOk m src with
      | (false, s) => s
      | (true, s) =>
        if (s.outlet.sessions.touched src m.now).isNone then s.aprsAck src msg
        else ((s.perform (.touch src m.now)).perform (.note src .aprs)).aprsFresh m src msg

/-- A beacon is shown on IRC only: every station on frequency heard it. -/
def showBeacon (s : Server) (m : Moment) (src : Callsign) (summary display : Text) : Server :=
  let nick := Callsign.toNick src
  let mask := nick ++ "!rf@" ++ callText src ++ ".ax25"
  let o := s.outlet
  let s := { s with outlet := { o with
    aprsBeacon := rememberIn o.aprsBeacon (src, summary) m.now } }
  s.send fun o st => o.sendToMembers (st.members display)
    ((Message.new "NOTICE" [display, sanitize summary]).withPrefix mask).toText

def handleAprsBeacon (s : Server) (m : Moment) (src : Callsign) (summary : Text) : Server :=
  if !Callsign.looksLikeAmateurCall src || !s.outlet.policy.stationAllowed src ||
      s.outlet.sessions.isBanned src || aprsBeaconSeen s.outlet src summary m.now then s
  else match s.cfg.aprsListenChannel with
    | none => s
    | some channel =>
      let display := s.channelDisplayName channel
      if (s.state.channel display).any Channel.rf && decide (sanitize summary ≠ []) then
        s.showBeacon m src summary display
      else s

/-! ### Frames -/

def handleRfFrame (s : Server) (reader : BeaconReader) (m : Moment) (f : Ax25Frame) : Server :=
  let s := { s with outlet := { s.outlet with framesRx := s.outlet.framesRx + 1 } }
  let src := f.source.call
  match heard s.cfg reader f with
  | .nothing => s
  | .aprs msg => s.handleAprsMessage m src msg
  | .beacon summary => s.handleAprsBeacon m src summary
  | .airc frame forUs broadcast => s.handleAircFrame m src frame forUs broadcast

end ServerCore.Server
