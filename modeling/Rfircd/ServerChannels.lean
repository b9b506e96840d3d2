import Rfircd.ServerCore

/-! Channels: joining, leaving, topics, modes, and the messages in them. -/
namespace ServerCore.Server

open Basics KeyedTable MessageText HostKey IrcMessage IrcState HeldMail AprsCodec AirTrace AirPolicy
open AircSession RadioGateway AirScreen Accounts ServerOutput

/-- The nick and the prefix of a user. -/
def signature (s : Server) (uid : UserId) : Text × Text :=
  (s.user uid).elim ([], []) fun u => (u.nick, u.nickMask)

def needMore (s : Server) (uid : UserId) (command : Text) : Server :=
  s.numeric uid "461" [command, "Not enough parameters"]

def noSuchChannel (s : Server) (uid : UserId) (name : Text) : Server :=
  s.numeric uid "403" [name, "No such channel"]

def notOnChannel (s : Server) (uid : UserId) (name : Text) : Server :=
  s.numeric uid "442" [name, "You're not on that channel"]

def opNeeded (s : Server) (uid : UserId) (name : Text) : Server :=
  s.numeric uid "482" [name, "You're not channel operator"]

/-! ### Joining and leaving -/

/-- What the others and the new member are told. -/
def announceJoin (s : Server) (m : Moment) (uid : UserId) (name : Text) (flags : MemberFlags) :
    Server :=
  let real := s.channelDisplayName name
  let (nick, mask) := s.signature uid
  let s := s.send fun o st => o.broadcastChannel st m real (.join nick mask real) none
  let s := if flags.op then s.announceMode real s.cfg.name "+o" [nick] else s
  let s := if flags.voice then s.announceMode real s.cfg.name "+v" [nick] else s
  let s := s.send fun o st => (o.sendTopic st uid real false).sendNames st uid real
  if (s.state.channel real).any Channel.rf then
    s.send fun o st => o.noticeRfJoin st m uid real
  else s

def doJoin (s : Server) (m : Moment) (uid : UserId) (name key : Text) : Server :=
  let chan := s.state.channel name
  if !isChannelName name then s.noSuchChannel uid name
  else if chan.any fun c => c.isMember uid then
    -- clients join again to have the names anew
    let real := s.channelDisplayName name
    s.send fun o st => (o.sendTopic st uid real false).sendNames st uid real
  else if s.cfg.maxChannelsPerUser ≤ (s.user uid).elim 0 fun u => u.channels.length then
    s.numeric uid "405" [name, "You have joined too many channels"]
  else if chan.any fun c => c.key.any (· ≠ key) then
    s.numeric uid "475" [name, "Cannot join channel (+k)"]
  else if chan.any fun c => c.limit.any (· ≤ c.members.size) then
    s.numeric uid "471" [name, "Cannot join channel (+l)"]
  else
    -- which channels occupy the air is not for users to decide
    let s := { s with state := s.state.ensureChannel name false }
    match s.join uid name (some key) with
    | none => s
    | some (flags, s) => s.announceJoin m uid name flags

def doPart (s : Server) (m : Moment) (uid : UserId) (name reason : Text) : Server :=
  match s.state.channel name with
  | none => s.noSuchChannel uid name
  | some chan =>
    if !chan.isMember uid then s.notOnChannel uid chan.name
    else
      let (nick, mask) := s.signature uid
      let s := s.send fun o st =>
        o.broadcastChannel st m chan.name (.part nick mask chan.name reason) none
      { s with state := (s.state.part uid chan.name).2 }

def cmdJoin (s : Server) (m : Moment) (uid : UserId) (msg : Message) : Server :=
  match msg.param 0 with
  | none => s.needMore uid "JOIN"
  | some list =>
    if list = ['0'] then
      ((s.user uid).elim [] User.channels).foldl (fun s key =>
        s.doPart m uid ((s.state.channels.get key).elim key Channel.name) "Leaving") s
    else
      let keys := splitOn ',' ((msg.param 1).getD [])
      (splitOn ',' list).zipIdx.foldl (fun s e => s.doJoin m uid e.1 (keys.getD e.2 [])) s

def cmdPart (s : Server) (m : Moment) (uid : UserId) (msg : Message) : Server :=
  match msg.param 0 with
  | none => s.needMore uid "PART"
  | some list =>
    (splitOn ',' list).foldl (fun s name => s.doPart m uid name ((msg.param 1).getD "Leaving")) s

/-! ### Topics -/

def screenForAir (s : Server) (m : Moment) (uid : UserId) (text : Text) : Bool × Server :=
  let (screened, o) := s.outlet.screen s.state m uid text .now
  (screened.isSome, { s with outlet := o })

/-- The topic is stored first; then it goes through the same gate as chat. -/
def setTopic (s : Server) (m : Moment) (uid : UserId) (chan : Channel) (topic : Text) : Server :=
  let (nick, mask) := s.signature uid
  let s := s.modifyChannel chan.name fun c =>
    { c with topic := some topic, topicSetter := nick, topicTime := m.unix }
  let (allowRf, s) :=
    if chan.rf && chan.hasRfMembers && s.outlet.gateway.available then s.screenForAir m uid topic
    else (false, s)
  let origin : Origin := .ip uid (s.outlet.acceptance s.state uid allowRf)
  let s := s.modifyChannel chan.name fun c => { c with topicOrigin := origin }
  s.send fun o st =>
    o.broadcastChannelEx st m chan.name (.topic nick mask chan.name topic origin) none allowRf

def cmdTopic (s : Server) (m : Moment) (uid : UserId) (msg : Message) : Server :=
  match msg.param 0 with
  | none => s.needMore uid "TOPIC"
  | some name =>
    match s.state.channel name, msg.param 1 with
    | none, _ => s.noSuchChannel uid name
    | some _, none => s.send fun o st => o.sendTopic st uid name true
    | some chan, some topic =>
      match chan.members.get uid with
      | none => s.notOnChannel uid chan.name
      | some flags =>
        if chan.topicLocked && !flags.op && !s.isOper uid then s.opNeeded uid chan.name
        else if chan.topic = some (sanitize topic) then s
        else s.setTopic m uid chan (sanitize topic)

/-! ### Modes -/

/-- Where the reading of a mode line is. -/
structure ModeLine where
  adding : Bool
  argIndex : ℕ
  applied : Text
  args : List Text
  lastSign : Option Char
  refresh : List UserId

def ModeLine.start : ModeLine := ⟨true, 2, [], [], none, []⟩

/-- A letter that took effect, behind its sign where the sign changes. -/
def ModeLine.push (l : ModeLine) (letter : Char) : ModeLine :=
  let sign := if l.adding then '+' else '-'
  { l with
    applied := l.applied ++ if l.lastSign = some sign then [letter] else [sign, letter]
    lastSign := some sign }

def ModeLine.pushArg (l : ModeLine) (letter : Char) (arg : Text) : ModeLine :=
  { l.push letter with args := l.args ++ [arg] }

/-- Who changes the modes of which channel: the channel as it was, and whether an operator. -/
structure ModeChange where
  uid : UserId
  msg : Message
  chan : Channel
  oper : Bool

def ModeChange.arg (c : ModeChange) (l : ModeLine) : Option Text := c.msg.param l.argIndex

def modeFlag (s : Server) (c : ModeChange) (l : ModeLine) (letter : Char) (get : Channel → Bool)
    (set : Channel → Channel) : Server × ModeLine :=
  if (s.state.channel c.chan.name).any fun ch => get ch ≠ l.adding then
    (s.modifyChannel c.chan.name set, l.push letter)
  else (s, l)

/-- Bridging decides what is transmitted. A channel that becomes bridged is moderated, and keeps
no operator that was made by hand. -/
def bridged (adding : Bool) (ch : Channel) : Channel :=
  if adding then
    { ch with
      rf := true
      moderated := true
      members := ch.members.filterMap fun _ f => some { f with opManual := false } }
  else { ch with rf := false }

def modeBridge (s : Server) (c : ModeChange) (l : ModeLine) : Server × ModeLine :=
  if !c.oper then (s.numeric c.uid "481" ["Only a control operator may change +r"], l)
  else match s.state.channel c.chan.name with
    | none => (s, l)
    | some ch =>
      if ch.rf = l.adding then (s, l)
      else
        let pushed := l.push 'r'
        let pushed := if l.adding && !ch.moderated then pushed.push 'm' else pushed
        (s.modifyChannel c.chan.name (bridged l.adding), { pushed with refresh := ch.members.keys })

def modeKey (s : Server) (c : ModeChange) (l : ModeLine) : Server × ModeLine :=
  let key := c.arg l
  let l := { l with argIndex := l.argIndex + 1 }
  if l.adding then
    match key with
    | none | some [] => (s.needMore c.uid "MODE", l)
    | some k =>
      if (s.state.channel c.chan.name).any fun ch => ch.key ≠ some k then
        (s.modifyChannel c.chan.name fun ch => { ch with key := some k }, l.pushArg 'k' k)
      else (s, l)
  else if (s.state.channel c.chan.name).any fun ch => ch.key.isSome then
    (s.modifyChannel c.chan.name fun ch => { ch with key := none }, l.push 'k')
  else (s, l)

def modeLimit (s : Server) (c : ModeChange) (l : ModeLine) : Server × ModeLine :=
  let raw := c.arg l
  let l := { l with argIndex := l.argIndex + 1 }
  if l.adding then
    match (raw.bind (Outlet.parseNat (2 ^ 64))).filter (0 < ·) with
    | none => (s.needMore c.uid "MODE", l)
    | some limit =>
      if (s.state.channel c.chan.name).any fun ch => ch.limit ≠ some limit then
        (s.modifyChannel c.chan.name fun ch => { ch with limit := some limit },
          l.pushArg 'l' (natText limit))
      else (s, l)
  else if (s.state.channel c.chan.name).any fun ch => ch.limit.isSome then
    (s.modifyChannel c.chan.name fun ch => { ch with limit := none }, l.push 'l')
  else (s, l)

def grantFlag (f : MemberFlags) (letter : Char) (adding : Bool) : MemberFlags :=
  if letter = 'o' then { f with op := adding, opManual := adding }
  else { f with voice := adding, voiceManual := adding }

def holdsFlag (f : MemberFlags) (letter : Char) : Bool := if letter = 'o' then f.op else f.voice

/-- `o` and `v`. -/
def modeMember (s : Server) (c : ModeChange) (l : ModeLine) (letter : Char) : Server × ModeLine :=
  let who := c.arg l
  let l := { l with argIndex := l.argIndex + 1 }
  if letter = 'o' && c.chan.rf && !c.oper then
    (s.numeric c.uid "481" ["Only a control operator may grant +o on an RF channel"], l)
  else match who with
    | none => (s.needMore c.uid "MODE", l)
    | some who =>
      match findTarget s.state who with
      | none => (s.numeric c.uid "401" [who, "No such nick"], l)
      | some target =>
        match (s.state.channel c.chan.name).bind fun ch => ch.members.get target with
        | none => (s.numeric c.uid "441" [who, c.chan.name, "They aren't on that channel"], l)
        | some flags =>
          let s := s.modifyChannel c.chan.name fun ch =>
            { ch with members := ch.members.set target (grantFlag flags letter l.adding) }
          (s, if holdsFlag flags letter = l.adding then l else l.pushArg letter who)

def modeChar (s : Server) (c : ModeChange) (l : ModeLine) (letter : Char) : Server × ModeLine :=
  if letter = '+' then (s, { l with adding := true })
  else if letter = '-' then (s, { l with adding := false })
  else if letter = 'm' then
    if c.chan.rf && !c.oper then
      (s.numeric c.uid "481" ["Only a control operator may change +m on an RF channel"], l)
    else s.modeFlag c l 'm' Channel.moderated fun ch => { ch with moderated := l.adding }
  else if letter = 't' then
    s.modeFlag c l 't' Channel.topicLocked fun ch => { ch with topicLocked := l.adding }
  else if letter = 'r' then s.modeBridge c l
  else if letter = 'k' then s.modeKey c l
  else if letter = 'l' then s.modeLimit c l
  else if letter = 'o' || letter = 'v' then s.modeMember c l letter
  else (s, l)

def changeModes (s : Server) (m : Moment) (c : ModeChange) (changes : Text) : Server :=
  let (s, l) := changes.foldl (fun (e : Server × ModeLine) letter => e.1.modeChar c e.2 letter)
    (s, ModeLine.start)
  if l.applied = [] then s
  else
    let mask := (s.user c.uid).elim [] User.nickMask
    let s := s.announceMode c.chan.name mask l.applied l.args
    l.refresh.foldl (fun s member => s.refreshPrivileges m member) s

def userModes (s : Server) (uid : UserId) : Text :=
  match s.isOper uid, (s.user uid).any User.rfTx with
  | true, true => "+oR"
  | true, false => "+o"
  | false, true => "+R"
  | false, false => "+i"

def cmdMode (s : Server) (m : Moment) (uid : UserId) (msg : Message) : Server :=
  match msg.param 0 with
  | none => s.needMore uid "MODE"
  | some target =>
    if !isChannelName target then
      if lower target ≠ (s.user uid).elim [] fun u => lower u.nick then
        s.numeric uid "502" ["Can't change mode for other users"]
      else s.numeric uid "221" [s.userModes uid]
    else match s.state.channel target, msg.param 1 with
      | none, _ => s.noSuchChannel uid target
      | some chan, none => s.numeric uid "324" [chan.name, chan.modeString]
      | some chan, some changes =>
        if !((chan.members.get uid).any MemberFlags.op) && !s.isOper uid then
          s.opNeeded uid chan.name
        else s.changeModes m ⟨uid, msg, chan, s.isOper uid⟩ changes

/-! ### Removal -/

def rfError (s : Server) (m : Moment) (call : Callsign) (code text : Text) : Server :=
  s.perform (.unicast call (.error code text) m.now)

def isChanop (s : Server) (uid : UserId) (chan : Channel) : Bool :=
  s.isOper uid || (chan.members.get uid).any MemberFlags.op

def cmdKick (s : Server) (m : Moment) (uid : UserId) (msg : Message) : Server :=
  match msg.param 0, msg.param 1 with
  | none, _ | some _, none => s.needMore uid "KICK"
  | some channel, some who =>
    match s.state.channel channel with
    | none => s.noSuchChannel uid channel
    | some chan =>
      if !s.isChanop uid chan then s.opNeeded uid chan.name
      else match findTarget s.state who with
        | none => s.numeric uid "401" [who, "No such nick"]
        | some target =>
          if !chan.isMember target then
            s.numeric uid "441" [who, chan.name, "They aren't on that channel"]
          else
            let mask := (s.user uid).elim [] User.nickMask
            let line := ((Message.new "KICK" [chan.name, who, (msg.param 2).getD "Kicked"]).withPrefix
              mask).toText
            let s := s.send fun o st => o.sendToMembers (st.members chan.name) line
            let s := { s with state := (s.state.part target chan.name).2 }
            match target with
            | .ip _ => s
            | .rf call =>
              (s.perform (.note call (.kicked chan.name))).rfError m call "442" "kicked from channel"

/-! ### Messages -/

def channelMessage (s : Server) (m : Moment) (uid : UserId) (sender : User) (chan : Channel)
    (text : Text) (notice : Bool) : Server :=
  let accepted := s.outlet.acceptance s.state uid
  let (screened, o) := s.outlet.channelForAir s.state m uid chan text notice
  let s := { s with outlet := o }
  let (text, truncated) := screened.elim (text, false) (deliveryTextAfterScreen text)
  let d : Delivery := .privmsg sender.nick sender.nickMask chan.name text notice truncated
    (.ip uid (accepted screened.isSome))
  let s := s.relay m uid chan.name d screened.isSome
  if screened.isSome && s.cfg.noticeAirRelay && !notice then
    s.noticeUser m uid (s.outlet.relayNotice m chan)
  else s

def cmdPrivmsg (s : Server) (m : Moment) (uid : UserId) (msg : Message) (notice : Bool) : Server :=
  match msg.param 0, msg.param 1 with
  | none, _ => s.numeric uid "401" ["*", "No recipient given"]
  | some _, none | some _, some [] => s.numeric uid "412" ["No text to send"]
  | some target, some text =>
    match s.user uid with
    | none => s
    | some sender =>
      if isChannelName target then
        match s.state.channel target with
        | none => s.noSuchChannel uid target
        | some chan =>
          match chan.members.get uid with
          | none => s.numeric uid "404" [chan.name, "Cannot send to channel"]
          | some flags =>
            if chan.moderated && !(flags.op || flags.voice) then
              s.numeric uid "404"
                [chan.name, "Channel is moderated (+m); identify with CALLSIGN for +v"]
            else s.channelMessage m uid sender chan text notice
      else match findTarget s.state target with
        | none => s.send fun o st => o.offerMailbox st m uid sender.nick target text notice
        | some targetId =>
          s.send fun o st => o.privateMessage st m uid sender target text notice targetId

end ServerCore.Server
