import Rfircd.Accounts
import Rfircd.AirScreen

/-! Answers to questions: they go to the one who asked, and change nothing else. -/
namespace ServerOutput.Outlet

open Basics KeyedTable MessageText HostKey IrcMessage IrcState HeldMail AprsCodec AirTrace AirPolicy
open AircSession RadioGateway AirScreen Accounts

def version : Text := "0.10.0"

/-! ### Channels -/

def sendTopic (o : Outlet) (st : State) (uid : UserId) (channel : Text) (explicit : Bool) : Outlet :=
  match st.channel channel with
  | none => o
  | some chan =>
    match chan.topic with
    | some topic =>
      let o := o.numeric st uid "332" [chan.name, topic]
      if chan.topicSetter = [] then o
      else o.numeric st uid "333" [chan.name, chan.topicSetter, natText chan.topicTime]
    | none => if explicit then o.numeric st uid "331" [chan.name, "No topic is set"] else o

/-- Names in lines of at most 400 octets. -/
def chunkNames : List Text → List Text → ℕ → List (List Text)
  | [], [], _ => []
  | [], chunk, _ => [chunk]
  | n :: ns, chunk, used =>
    if chunk ≠ [] ∧ 400 < used + octets n + 1 then chunk :: chunkNames ns [n] (octets n + 1)
    else chunkNames ns (chunk ++ [n]) (used + octets n + 1)

def sendNames (o : Outlet) (st : State) (uid : UserId) (channel : Text) : Outlet :=
  match st.channel channel with
  | none => o.numeric st uid "403" [channel, "No such channel"]
  | some chan =>
    (o.numerics st uid "353" ((chunkNames (st.namesOf channel) [] 0).map fun chunk =>
      ["=", chan.name, joinWith [' '] chunk])).numeric st uid "366"
      [chan.name, "End of /NAMES list"]

/-- The display names of the channels that a user is in. -/
def channelNames (st : State) (uid : UserId) : List Text :=
  (st.user uid).elim [] fun u =>
    u.channels.filterMap fun k => (st.channels.get k).map Channel.name

def cmdNames (o : Outlet) (st : State) (uid : UserId) (msg : Message) : Outlet :=
  match msg.param 0 with
  | some chan => o.sendNames st uid chan
  | none =>
    let chans := channelNames st uid
    if chans = [] then o.numeric st uid "366" ["*", "End of /NAMES list"]
    else chans.foldl (fun o ch => o.sendNames st uid ch) o

def cmdList (o : Outlet) (st : State) (uid : UserId) : Outlet :=
  ((o.numeric st uid "321" ["Channel", "Users  Name"]).numerics st uid "322"
    (st.channels.entries.map fun (_, c) =>
      [c.name, natText c.members.size,
        if c.rf then "[RF] " ++ c.topic.getD [] else c.topic.getD []])).numeric st uid "323"
    ["End of /LIST"]

/-! ### Users -/

/-- Listen-only clients see no addresses but their own. -/
def visibleHost (st : State) (viewer : UserId) (target : User) : Text :=
  let listenOnly := (st.user viewer).any User.listenOnly
  let oper := (st.user viewer).any User.oper
  if !listenOnly || oper || target.isRf || target.id = viewer then target.host else "hidden"

def whoRow (st : State) (uid : UserId) (server mask : Text) (u : User) : List Text :=
  let flags := [if u.away.isSome then 'G' else 'H'] ++ (if u.oper then ['*'] else []) ++
    if isChannelName mask then
      ((st.channel mask).bind fun c => c.members.get u.id).elim [] MemberFlags.sigil
    else []
  [mask, u.username, visibleHost st uid u, server, u.nick, flags, "0 " ++ u.realname]

def cmdWho (o : Outlet) (st : State) (uid : UserId) (msg : Message) : Outlet :=
  let mask := (msg.param 0).getD ['*']
  let users :=
    if isChannelName mask then (st.members mask).filterMap st.user
    else if mask = ['*'] ∨ mask = [] then st.users.entries.map Prod.snd
    else (st.byNick mask).toList
  (o.numerics st uid "352" (users.map (whoRow st uid o.cfg.name mask))).numeric st uid "315"
    [mask, "End of /WHO list"]

def row (code : Text) (params : List Text) : Text × List Text := (code, params)

/-- The lines about a user, with their codes. -/
def whoisRows (o : Outlet) (st : State) (m : Moment) (uid : UserId) (target : User) :
    List (Text × List Text) :=
  let desc : Text := match target.callsign with
    | some c =>
      if target.isRf then "Radio station " ++ callText c ++ ", heard via the gateway"
      else "Identified as " ++ callText c ++ " (connected over the Internet)"
    | none => "Not identified with a callsign"
  let heard := match target.id.callsign.bind o.peer with
    | some p =>
      let idle := natText ((m.now - p.lastHeard) / secs 1)
      [row "317" [target.nick, idle, "last heard " ++ idle ++ "s ago, " ++
        natText p.queueDepth ++ " queued, " ++ natText p.dropped ++ " dropped"]]
    | none => []
  let channels := target.channels.filterMap fun k => (st.channels.get k).map fun c =>
    (c.members.get target.id).elim [] MemberFlags.sigil ++ c.name
  [row "311" [target.nick, target.username, visibleHost st uid target, "*", target.realname],
    row "312" [target.nick, o.cfg.name, desc]] ++
  (if target.oper then [row "313" [target.nick, "is a control operator"]] else []) ++
  (if target.nickIdentified then [row "307" [target.nick, "is a registered nick"]] else []) ++
  (if target.rfTx && !target.isRf then
    [row "320" [target.nick, "has RF-TX privilege (messages may be radiated)"]] else []) ++
  heard ++
  (if channels = [] then [] else [row "319" [target.nick, joinWith [' '] channels]]) ++
  (target.away.toList.map fun away => row "301" [target.nick, away]) ++
  [row "318" [target.nick, "End of /WHOIS list"]]

def cmdWhois (o : Outlet) (st : State) (m : Moment) (uid : UserId) (msg : Message) : Outlet :=
  match msg.param 0 with
  | none => o.numeric st uid "431" ["No nickname given"]
  | some nick =>
    match st.byNick nick with
    | none => o.numeric st uid "401" [nick, "No such nick"]
    | some target =>
      (o.whoisRows st m uid target).foldl (fun o row => o.numeric st uid row.1 row.2) o

/-- No nick history is kept. -/
def cmdWhowas (o : Outlet) (st : State) (uid : UserId) (msg : Message) : Outlet :=
  match msg.param 0 with
  | none => o.numeric st uid "431" ["No nickname given"]
  | some nick =>
    (o.numeric st uid "406" [nick, "There was no such nickname"]).numeric st uid "369"
      [nick, "End of WHOWAS"]

def cmdIson (o : Outlet) (st : State) (uid : UserId) (msg : Message) : Outlet :=
  if msg.params = [] then o.numeric st uid "461" ["ISON", "Not enough parameters"]
  else
    let online := (msg.params.flatMap words).filter fun nick => (st.byNick nick).isSome
    o.numeric st uid "303" [joinWith [' '] online]

def userhostReply (st : State) (uid : UserId) (u : User) : Text :=
  u.nick ++ (if u.oper then ['*'] else []) ++ '=' :: (if u.away.isSome then '-' else '+') ::
    u.username ++ '@' :: visibleHost st uid u

def cmdUserhost (o : Outlet) (st : State) (uid : UserId) (msg : Message) : Outlet :=
  if msg.params = [] then o.numeric st uid "461" ["USERHOST", "Not enough parameters"]
  else
    let replies := ((msg.params.take 5).filterMap st.byNick).map (userhostReply st uid)
    o.numeric st uid "302" [joinWith [' '] replies]

def sendLusers (o : Outlet) (st : State) (uid : UserId) : Outlet :=
  let total := st.users.size
  let rf := (st.users.keys.filter UserId.isRf).length
  (o.numeric st uid "251" ["There are " ++ natText total ++ " users online, " ++ natText rf ++
    " of them on RF"]).numeric st uid "255"
    ["I have " ++ natText (total - rf) ++ " clients and 0 servers"]

/-! ### The server -/

def sendMotd (o : Outlet) (st : State) (uid : UserId) : Outlet :=
  if o.cfg.motd = [] then o.numeric st uid "422" ["MOTD File is missing"]
  else
    ((o.numeric st uid "375" ["- " ++ o.cfg.name ++ " Message of the day -"]).numerics st uid "372"
      (o.cfg.motd.map fun line => ["- " ++ line])).numeric st uid "376" ["End of /MOTD command"]

def capLine (o : Outlet) (id : ℕ) (nick verb rest : Text) : Outlet :=
  o.sendRaw id ((Message.new "CAP" [nick, verb, rest]).withPrefix o.cfg.name).toText

def cmdCap (o : Outlet) (st : State) (uid : UserId) (msg : Message) : Outlet :=
  match uid with
  | .rf _ => o
  | .ip id =>
    let sub := ((msg.param 0).getD []).map toAsciiUpper
    let nick := (st.user uid).elim ['*'] fun u => if u.registered then u.nick else ['*']
    if sub = "LS".toList ∨ sub = "LIST".toList then o.capLine id nick sub []
    else if sub = "REQ".toList then o.capLine id nick "NAK" ((msg.param 1).getD [])
    else o

def cmdVersion (o : Outlet) (st : State) (uid : UserId) : Outlet :=
  o.numeric st uid "351"
    ["rfircd-" ++ version, o.cfg.name, "IRC + AX.25 gateway. See HELP. Air is always in the clear."]

/-- Days since 1970 to year, month and day. -/
def civilFromDays (days : ℕ) : ℕ × ℕ × ℕ :=
  let z := days + 719468
  let era := z / 146097
  let doe := z % 146097
  let yoe := (doe - doe / 1460 + doe / 36524 - doe / 146096) / 365
  let doy := doe - (365 * yoe + yoe / 4 - yoe / 100)
  let mp := (5 * doy + 2) / 153
  let month := if mp < 10 then mp + 3 else mp - 9
  (yoe + era * 400 + (if month ≤ 2 then 1 else 0), month, doy - (153 * mp + 2) / 5 + 1)

def twoDigits (n : ℕ) : Text := if n < 10 then '0' :: natText n else natText n

def utcText (unix : ℕ) : Text :=
  let (year, month, day) := civilFromDays (unix / 86400)
  let wday : List Text := ["Thu", "Fri", "Sat", "Sun", "Mon", "Tue", "Wed"]
  let mon : List Text := ["Jan", "Feb", "Mar", "Apr", "May", "Jun", "Jul", "Aug", "Sep", "Oct",
    "Nov", "Dec"]
  let rem := unix % 86400
  wday.getD (unix / 86400 % 7) [] ++ ", " ++ twoDigits day ++ " " ++ mon.getD (month - 1) [] ++ " " ++
    natText year ++ " " ++ twoDigits (rem / 3600) ++ ":" ++ twoDigits (rem % 3600 / 60) ++ ":" ++
    twoDigits (rem % 60) ++ " +0000"

example : utcText (86400 + 3661) = "Fri, 02 Jan 1970 01:01:01 +0000".toList := by decide +kernel

def cmdTime (o : Outlet) (st : State) (m : Moment) (uid : UserId) : Outlet :=
  o.numeric st uid "391" [o.cfg.name, utcText m.unix]

def cmdAdmin (o : Outlet) (st : State) (uid : UserId) : Outlet :=
  (((o.numeric st uid "256" [o.cfg.name, "Administrative info"]).numeric st uid "257"
    ["This is an amateur-radio packet gateway, not a public IRC network."]).numeric st uid "258"
    ["The control operator is whoever can OPER on this process."]).numeric st uid "259"
    ["See MOTD and the station licence."]

def cmdInfo (o : Outlet) (st : State) (uid : UserId) : Outlet :=
  (o.numerics st uid "371" [
    ["rfircd " ++ version ++ " — IRC server with an AX.25 gateway"],
    ["Single server; no linking, no services, no DCC, no on-air encryption."],
    ["The air is an allowlist: PRIVMSG chat and /me, plus TOPIC. Anything"],
    ["not named stays on IRC — a new event type does not transmit until listed."],
    ["https://github.com/mashu/rfircd"]]).numeric st uid "374" ["End of /INFO list"]

def helpBody (topic : Text) : List Text :=
  if topic ∈ (["air", "radio", "rf"] : List Text) then [
    "Allowlist: PRIVMSG chat and /me, plus TOPIC (AIRC mode only).",
    "JOIN/PART only if presence_notices is on (AIRC). APRS messages",
    "to the gateway enter a +r channel or query a nick. Replies and",
    "channel chat reach APRS HTs as addressed APRS when needed.",
    "positions/status beacons are IRC NOTICE only, never retransmitted.",
    "NOTICE, CTCP, MODE, KICK, numerics stay on IRC until listed."]
  else [
    "NICK USER PASS QUIT PING PONG JOIN PART PRIVMSG NOTICE TOPIC",
    "NAMES LIST WHO WHOIS WHOWAS MODE MOTD LUSERS AWAY KICK INVITE",
    "ISON USERHOST VERSION TIME ADMIN INFO HELP STATS LINKS CAP",
    "OPER CALLSIGN REGISTER IDENTIFY UNREGISTER RADIO",
    "OPER also: KILL ACCOUNTS DROPNICK UNCLAIM KLINE UNKLINE KLINES PASSWD",
    "HELP AIR — what is transmitted vs what stays on IRC"]

def cmdHelp (o : Outlet) (st : State) (uid : UserId) (msg : Message) : Outlet :=
  let topic := ((msg.param 0).getD "index").map toAsciiLower
  ((o.numeric st uid "704" [topic, "Help"]).numerics st uid "705"
    ((helpBody topic).map fun line => [topic, line])).numeric st uid "706" [topic, "End of /HELP"]

def uptimeText (up : ℕ) : Text :=
  "Server Up " ++ natText (up / 86400) ++ " days " ++ twoDigits (up % 86400 / 3600) ++ ":" ++
    twoDigits (up % 3600 / 60) ++ ":" ++ twoDigits (up % 60)

def cmdStats (o : Outlet) (st : State) (m : Moment) (uid : UserId) (msg : Message) : Outlet :=
  let what := toAsciiLower (((msg.param 0).bind List.head?).getD 'u')
  (if what = 'u' then o.numeric st uid "242" [uptimeText m.uptimeSecs]
    else o.noticeUser st m uid "STATS u (uptime)").numeric st uid "219" [[what], "End of /STATS"]

def cmdLinks (o : Outlet) (st : State) (uid : UserId) : Outlet :=
  (o.numeric st uid "364" [o.cfg.name, o.cfg.name, "0 rfircd (no server linking)"]).numeric st uid
    "365" ["*", "End of /LINKS list"]

def cmdPing (o : Outlet) (id : ℕ) (msg : Message) : Outlet :=
  o.sendRaw id ((Message.new "PONG" [o.cfg.name, (msg.param 0).getD []]).withPrefix o.cfg.name).toText

/-- INVITE is an IRC-side courtesy. It is never put on the air. -/
def cmdInvite (o : Outlet) (st : State) (m : Moment) (uid : UserId) (msg : Message) : Outlet :=
  match msg.param 0, msg.param 1 with
  | some who, some channel =>
    match st.channel channel with
    | none => o.numeric st uid "403" [channel, "No such channel"]
    | some chan =>
      if !chan.isMember uid then
        o.numeric st uid "442" [chan.name, "You're not on that channel"]
      else match findTarget st who with
        | none => o.numeric st uid "401" [who, "No such nick"]
        | some target =>
          if chan.isMember target then
            o.numeric st uid "443" [who, chan.name, "is already on channel"]
          else
            let mask := (st.user uid).elim [] User.nickMask
            let o := o.numeric st uid "341" [who, chan.name]
            match target with
            | .ip id =>
              o.sendRaw id ((Message.new "INVITE" [who, chan.name]).withPrefix mask).toText
            | .rf _ =>
              o.noticeUser st m uid
                "That station is on the radio. Invite is IRC-only; they join from the air."
  | _, _ => o.numeric st uid "461" ["INVITE", "Not enough parameters"]

/-! ### The radio -/

def radioStatus (o : Outlet) (st : State) (m : Moment) (uid : UserId) : Outlet :=
  let o := o.noticeUser st m uid (o.statusLine m)
  if (st.user uid).any User.oper then
    let s := o.gateway.radio.stats
    let up := m.uptimeSecs
    let o := o.noticeUser st m uid
      ("up " ++ natText (up / 3600) ++ "h" ++ twoDigits (up % 3600 / 60) ++ "m; frames rx " ++
        natText o.framesRx ++ " tx " ++ natText s.framesTx ++ " refused " ++
        natText s.framesRefused ++ " dropped " ++ natText s.framesDropped ++ " (" ++
        natText s.bytesTx ++ " bytes); stations " ++ natText o.sessions.peers.size ++ "; mail " ++
        natText o.mailbox.len)
    if o.gateway.radio.tnc then o.noticeUser st m uid m.airtime else o
  else o

def sortTexts (l : List Text) : List Text := l.mergeSort fun a b => decide (a ≤ b)

def radioHeard (o : Outlet) (st : State) (m : Moment) (uid : UserId) : Outlet :=
  let rows := sortTexts (o.sessions.peers.entries.map fun (call, p) =>
    callText call ++ " last heard " ++ natText ((m.now - p.lastHeard) / secs 1) ++ "s ago, " ++
      natText p.channels.card ++ " channels, " ++ natText p.queueDepth ++ " queued, " ++
      natText p.dropped ++ " dropped")
  o.noticeAll st m uid (if rows = [] then ["No stations heard."] else rows)

def radioDuty (o : Outlet) (st : State) (m : Moment) (uid : UserId) : Outlet :=
  if !o.gateway.radio.tnc then o.noticeUser st m uid "No TNC; there is no airtime to report."
  else
    let d := o.cfg.duty
    o.noticeAll st m uid [m.airtime,
      if d.enabled then
        "limits: " ++ natText d.maxDutyPercent ++ "% of " ++ natText d.windowSecs ++ "s, max " ++
          natText d.maxContinuousSecs ++ "s continuous then " ++ natText d.cooldownSecs ++
          "s cooldown, " ++ natText d.hourlyAirtimeSecs ++
          "s per rolling hour, frames dropped after " ++ natText d.maxHoldSecs ++ "s held (baud " ++
          natText d.baud ++ ", txdelay " ++ natText d.txdelayMs ++ "ms, txtail " ++
          natText d.txtailMs ++ "ms)"
      else
        "The airtime governor is DISABLED in the configuration. " ++
          "Nothing is protecting the finals or the channel."]

/-- What is accepted and not yet radiated, in the three places where it can wait. -/
def radioQueue (o : Outlet) (st : State) (m : Moment) (uid : UserId) : Outlet :=
  let waiting := sortTexts ((o.sessions.peers.entries.filter fun e => 0 < e.2.queueDepth).map
    fun (call, p) => "  " ++ callText call ++ ": " ++ natText p.queueDepth ++
      " message(s) awaiting acknowledgement, " ++ natText p.dropped ++ " dropped")
  let stats := o.gateway.radio.stats
  let queue : Text :=
    if o.gateway.radio.tnc then
      "transmit queue: " ++ natText o.gateway.pump.shared.queuedFrames ++ " frame(s), " ++ m.queue ++
        " (budget " ++ natText (o.cfg.radio.maxQueuedAirtime / secs 1) ++ "s)"
    else "No TNC; nothing can be queued."
  let inFlight : List Text :=
    if waiting = [] then ["No per-station messages in flight."]
    else ("Per-station (reliable, awaiting ACK):" : Text) :: waiting
  let held : Text := "Held for stations out of range: " ++ natText o.mailbox.len ++ " message(s). " ++
    "Refused for backlog since start: " ++ natText stats.framesRefused ++
    ". Dropped at the transmitter: " ++ natText stats.framesDropped ++ "."
  o.noticeAll st m uid (queue :: inFlight ++ [held])

def radioMail (o : Outlet) (st : State) (m : Moment) (uid : UserId) : Outlet :=
  let rows := o.mailbox.summary
  o.noticeAll st m uid (if rows = [] then ["No messages held."]
    else rows.map fun (call, depth) => callText call ++ ": " ++ natText depth ++ " message(s) held")

/-- A number of an unsigned type, as `from_str` reads it. -/
def parseNat (limit : ℕ) (t : Text) : Option ℕ :=
  let digits := if t.head? = some '+' then t.tail else t
  if digits = [] ∨ ¬ digits.all isAsciiDigit then none
  else
    let n := digits.foldl (fun n c => n * 10 + (c.toNat - 48)) 0
    if n < limit then some n else none

/-- `off`, or a number. -/
def parseLimit (limit : ℕ) (v : Text) : Option (Option ℕ) :=
  if eqIgnoreAsciiCase v "off" then some none else (parseNat limit v).map some

def limitDuty (o : Outlet) (st : State) (m : Moment) (uid : UserId) (asked : Option ℕ) : Outlet :=
  let o := o.perform (.limitDuty asked)
  let applied := min (asked.getD 0) 50
  o.noticeUser st m uid (
    if applied = 0 then "Duty override cleared; the configured limit applies."
    else if some applied ≠ asked then
      "Duty cycle limited to " ++ natText applied ++ "% — the ceiling is " ++ natText applied ++
        "%, whatever was asked for."
    else "Duty cycle limited to " ++ natText applied ++ "% until further notice.")

def limitPacing (o : Outlet) (st : State) (m : Moment) (uid : UserId) (ms : Option ℕ) : Outlet :=
  let o := o.perform (.limitPacing ms)
  let configured := o.cfg.txPacingMs
  o.noticeUser st m uid (match ms with
    | none => "Pacing override cleared; the configured gap applies."
    | some asked =>
      let applied := max asked configured
      if asked < applied then
        "Minimum gap set to " ++ natText applied ++ "ms — pacing can only slow the " ++
          "station (configured floor is " ++ natText configured ++ "ms)."
      else
        "Minimum gap between transmissions set to " ++ natText applied ++ "ms. " ++
          "This slows the station down; it cannot speed it past the duty-cycle limit.")

def radioLimit (o : Outlet) (st : State) (m : Moment) (uid : UserId) (msg : Message) : Outlet :=
  let what := ((msg.param 1).getD []).map toAsciiUpper
  if !o.gateway.radio.tnc then o.noticeUser st m uid "No TNC; there is nothing to limit."
  else match msg.param 2 with
    | some v =>
      if what = "DUTY".toList then
        match parseLimit (2 ^ 32) v with
        | some asked => o.limitDuty st m uid asked
        | none => o.noticeUser st m uid "Usage: RADIO LIMIT DUTY <1-50|off>"
      else if what = "PACING".toList then
        match parseLimit (2 ^ 64) v with
        | some ms => o.limitPacing st m uid ms
        | none => o.noticeUser st m uid "Usage: RADIO LIMIT PACING <milliseconds|off>"
      else o.noticeUser st m uid limitUsage
    | none => o.noticeUser st m uid limitUsage
where
  limitUsage : Text :=
    "RADIO LIMIT DUTY <1-50|off> | RADIO LIMIT PACING <ms|off>. " ++
      "Both take effect on the next frame and are not saved to the configuration file."

def radioId (o : Outlet) (st : State) (m : Moment) (uid : UserId) : Outlet :=
  let result := (o.gateway.identifyNow m.now).1
  (o.perform (.identifyNow m.now)).noticeUser st m uid (match result with
    | .sent => "Station identification transmitted."
    | .rateLimited =>
      "Station identification was already sent recently. " ++
        "Wait for the identification interval, or transmit first."
    | .notQueued => "Station identification was not transmitted. Check RADIO STATUS.")

/-- The members of every bridged channel are told. -/
def noticeBridged (o : Outlet) (st : State) (m : Moment) (text : Text) : Outlet :=
  ((st.channels.entries.map Prod.snd).filter Channel.rf).foldl
    (fun o c => o.noticeRfAudience st m c.name text) o

def radioOff (o : Outlet) (st : State) (m : Moment) (uid : UserId) : Outlet :=
  let o := (o.perform (.radioOff m.now)).noticeUser st m uid
    "Transmitter disabled and the transmit queue purged. The IRC side keeps running."
  o.noticeBridged st m (o.statusLine m)

def radioOn (o : Outlet) (st : State) (m : Moment) (uid : UserId) : Outlet :=
  if o.cfg.radio.enabled then
    let o := (o.perform .radioOn).noticeUser st m uid "Transmitter enabled."
    o.noticeBridged st m (o.statusLine m)
  else o.noticeUser st m uid "Radio support is disabled in the configuration."

/-! ### Accounts -/

def accountErrorText (o : Outlet) : AccountError → Text
  | .tooShort => "Password too short (minimum " ++ natText o.cfg.minPasswordLen ++ " characters)."
  | .tooLong => "Password too long."
  | .hash => "Could not hash the password."
  | .io => "Could not write the nick database."
  | .taken => "That nick is already registered. IDENTIFY to claim it."
  | .badPassword => "Password incorrect."
  | .notRegistered => "That nick is not registered. REGISTER <password> first."
  | .callsignTaken => "That callsign is already registered to another nick."

def noticeAccountError (o : Outlet) (st : State) (m : Moment) (uid : UserId) (e : AccountError) :
    Outlet :=
  o.noticeUser st m uid (o.accountErrorText e)

def accountRow (a : NickAccount) : Text :=
  a.nick ++ "  " ++ a.callsign.getD ['-'] ++ "  " ++ if a.rfTx then ("yes" : Text) else "no"

def listAccounts (o : Outlet) (st : State) (m : Moment) (uid : UserId) (accounts : Store) : Outlet :=
  let rows := accounts.list.map accountRow
  o.noticeAll st m uid (if rows = [] then ["No registered nicks."]
    else ("nick  callsign  rf-tx" : Text) :: rows)

def listBans (o : Outlet) (st : State) (m : Moment) (uid : UserId) (accounts : Store) : Outlet :=
  o.noticeAll st m uid (if accounts.ipBans = [] then ["No IP bans."]
    else accounts.ipBans.map fun b => "KLINE " ++ b)

end ServerOutput.Outlet
