import Rfircd.ServerOutput

/-! Messages of Internet users, and the gate between them and the transmitter.
Every refusal happens before the message is committed, and says something to the sender. -/
namespace AirScreen

open Basics KeyedTable MessageText HostKey IrcMessage IrcState HeldMail AprsCodec AirTrace AirPolicy
open AircSession RadioGateway ServerOutput

/-- RF stations always may: they are already on the air. -/
def userMayTxRf (st : State) (uid : UserId) : Bool :=
  (st.user uid).any fun u => u.isRf || u.oper || u.rfTx

/-- Never the nick, which its owner can change at will. -/
def rateKey (st : State) (uid : UserId) : Text :=
  match st.user uid with
  | none => "unknown"
  | some u =>
    if u.isRf then u.callsign.elim u.nick callText else "ip:" ++ u.host

def findTarget (st : State) (name : Text) : Option UserId := (st.byNick name).map User.id

structure Screened where
  text : Text
  truncated : Bool
  deriving DecidableEq

/-- When a screened message would reach the air. -/
inductive AirTiming where
  | now
  | held
  deriving DecidableEq

/-- Ordinary text and `/me`; anything else stays on IRC. -/
def chatForAir (text : Text) (notice : Bool) : Option Text :=
  if notice then none
  else match parseCtcp text with
    | some (cmd, rest) =>
      if eqIgnoreAsciiCase cmd "ACTION" then some ("/me " ++ rest) else none
    | none => some text

/-- The screened body back in the delivery, as an ACTION when it was one. -/
def deliveryTextAfterScreen (original : Text) (s : Screened) : Text × Bool :=
  if (parseCtcp original).any fun p => eqIgnoreAsciiCase p.1 "ACTION" then
    match stripPrefix "/me " s.text with
    | some rest => ("\x01ACTION " ++ rest ++ ['\x01'], s.truncated)
    | none =>
      if s.text = "/me".toList then ("\x01ACTION\x01", s.truncated) else (s.text, s.truncated)
  else (s.text, s.truncated)

end AirScreen

namespace ServerOutput.Outlet

open Basics KeyedTable MessageText HostKey IrcMessage IrcState HeldMail AprsCodec AirTrace AirPolicy
open AircSession RadioGateway AirScreen

/-! ### Status -/

def statusLine (o : Outlet) (m : Moment) : Text :=
  let radio := o.gateway.radio
  let call := o.cfg.radio.callsign
  if !o.cfg.radio.enabled then
    "Radio gateway is disabled. This is a plain IRC server; nothing is radiated."
  else if !radio.tnc then
    "Radio gateway: no TNC attached. Station " ++ call ++ ". Nothing is being radiated."
  else if !radio.enabled then
    "Radio gateway: transmitter OFF. Station " ++ call ++ ". Nothing is being radiated."
  else if o.gateway.interlockDown then
    "Radio gateway: station " ++ call ++ ", transmitter BLOCKED by the safety interlock. " ++
      "Nothing is being radiated. Station identification is held until it is safe."
  else
    "Radio gateway: transmitter ON, station " ++ call ++ ", " ++ natText o.sessions.peers.size ++
      " RF station(s) heard, " ++ natText radio.stats.framesTx ++ " frames TX / " ++
      natText o.framesRx ++ " RX (" ++ natText radio.stats.bytesTx ++ " bytes on air). " ++ m.duty ++
      "% duty." ++
      (if 0 < m.coolingMs then " PA cooling for " ++ natText (m.coolingMs / 1000) ++ "s." else [])

def channelAirLine (o : Outlet) (st : State) (channel : Text) : Text :=
  match st.channel channel with
  | none => []
  | some chan =>
    if !chan.rf then channel ++ " is Internet-only. Nothing here goes on the air."
    else if !o.gateway.available then
      channel ++ " is +r (bridged) but the transmitter is OFF. Messages stay on IRC."
    else if o.gateway.interlockDown then
      channel ++ " is +r (bridged) but the safety interlock is holding the transmitter. " ++
        "Messages stay on IRC."
    else if !chan.hasRfMembers then
      channel ++ " is +r, transmitter ON (" ++ o.cfg.radio.callsign ++
        "). No RF station is in the channel yet. " ++
        "Users with RF-TX can still CQ; others stay on IRC."
    else
      channel ++ " is +r, transmitter ON (" ++ o.cfg.radio.callsign ++
        "). Messages from users with RF-TX privilege are sent on the air; others stay on IRC."

/-- Why a message stayed on IRC, once in ten minutes. -/
def noticeAirReason (o : Outlet) (st : State) (m : Moment) (uid : UserId) (channel why : Text) :
    Outlet :=
  let key := (uid, lower channel)
  if why = [] then o
  else if (o.airNotices.get key).any fun t => m.now - t < secs 600 then o
  else { o with airNotices := o.airNotices.set key m.now }.noticeUser st m uid why

/-- The Internet members of a channel are told. -/
def noticeRfAudience (o : Outlet) (st : State) (m : Moment) (channel text : Text) : Outlet :=
  ((st.members channel).filter fun uid => !uid.isRf).foldl
    (fun o uid => o.noticeUser st m uid text) o

def noticeRfJoin (o : Outlet) (st : State) (m : Moment) (uid : UserId) (channel : Text) : Outlet :=
  let air := o.channelAirLine st channel
  o.noticeAll st m uid ([
    channel ++ " is +rm: bridged to amateur radio. CALLSIGN grants +v " ++
      "(speak on IRC). Messages go on the air only after a control " ++
      "operator grants RF-TX to a registered nick (RADIO GRANT) — " ++
      "everyone else is heard on IRC only. You do not need channel " ++
      "operator (+o) to chat. With RF-TX you may CQ even if no " ++
      "station has joined yet.",
    o.statusLine m] ++ if air = [] then [] else [air])

/-! ### Screening -/

/-- The last test: is there room for the message now? -/
def screenBacklog (o : Outlet) (st : State) (m : Moment) (uid : UserId) (s : Screened) :
    Option Screened × Outlet :=
  if o.gateway.interlockDown then
    (none, o.noticeUser st m uid
      ("Not put on the air: the safety interlock is holding the transmitter. " ++
        "Your message stayed on IRC."))
  else if !o.gateway.backlogHasRoom (o.gateway.wireOctets (octets s.text + 40)) .chat then
    (none, (o.noticeUser st m uid
      ("Not put on the air: the transmit queue is " ++ natText m.etaSecs ++
        "s deep and the duty-cycle " ++
        "limit will not clear it in time. Your message was delivered on IRC. " ++
        "Try again shortly — or say it shorter.")).perform .refuse)
  else (some s, o)

def screenContent (o : Outlet) (st : State) (m : Moment) (uid : UserId) (text : Text)
    (timing : AirTiming) : Option Screened × Outlet :=
  match o.policy.screenOutbound text with
  | .deny reason => (none, o.noticeUser st m uid reason)
  | .allow t => if timing = .held then (some ⟨t, false⟩, o) else o.screenBacklog st m uid ⟨t, false⟩
  | .truncated t =>
    let o := o.noticeUser st m uid
      ("Your message was shortened to " ++ natText o.policy.config.maxRfTextLen ++
        " characters before transmission. " ++
        "The radio side carries sentences, not paragraphs.")
    if timing = .held then (some ⟨t, true⟩, o) else o.screenBacklog st m uid ⟨t, true⟩

/-- The gate for anything that an Internet user wants to put on the air. -/
def screen (o : Outlet) (st : State) (m : Moment) (uid : UserId) (text : Text)
    (timing : AirTiming) : Option Screened × Outlet :=
  if !o.gateway.available then
    (none, o.noticeUser st m uid "The transmitter is off; your message stayed on the wire.")
  else if !userMayTxRf st uid then
    (none, o.noticeUser st m uid
      ("Not relayed to RF: you do not have RF-TX privilege. " ++
        "Register this nick, then ask a control operator to RADIO GRANT it. " ++
        "CALLSIGN is also required. Until then your messages stay on IRC."))
  else match (st.user uid).bind User.callsign with
    | none =>
      (none, o.noticeUser st m uid
        ("Not relayed to RF: identify with CALLSIGN <yourcall> first. " ++
          "Everything transmitted here is third-party traffic under the " ++
          "gateway licensee's responsibility."))
    | some call =>
      if !o.policy.stationAllowed call then
        (none, o.noticeUser st m uid
          "Not relayed to RF: your callsign is not permitted on this gateway.")
      else
        let (ok, policy) := o.policy.ipRateOk (rateKey st uid) m.now
        let o := { o with policy := policy }
        if !ok then
          (none, o.noticeUser st m uid
            ("Not relayed to RF: you are sending faster than the channel can carry. " ++
              "Slow down; the radio side is " ++ natText o.cfg.duty.baud ++ " bits per second."))
        else o.screenContent st m uid text timing

/-- What holds of a user and a text when the text is taken for the air. -/
def acceptance (o : Outlet) (st : State) (uid : UserId) (screened : Bool) : Acceptance where
  mayTransmit := userMayTxRf st uid
  callPermitted := ((st.user uid).bind User.callsign).any o.policy.stationAllowed
  screened := screened

/-! ### PRIVMSG and NOTICE -/

/-- How long it will take, as the sender is told. -/
def relayNotice (o : Outlet) (m : Moment) (chan : Channel) : Text :=
  "Queued for RF (" ++ o.cfg.radio.callsign ++ "), " ++
    (if m.etaSecs < 2 then ("going out now" : Text)
      else "about " ++ natText m.etaSecs ++ "s of queue ahead of it") ++ ". " ++
    (if chan.rfMemberCount = 0 then ("CQ: no RF station in the channel yet." : Text)
      else natText chan.rfMemberCount ++ " station(s) on frequency.")

/-- Is the text to be put on the air? Returns the screened text. -/
def channelForAir (o : Outlet) (st : State) (m : Moment) (uid : UserId) (chan : Channel)
    (text : Text) (notice : Bool) : Option Screened × Outlet :=
  let air := chatForAir text notice
  let allowed := air.isSome && chan.rf && o.gateway.available &&
    (chan.hasRfMembers || (o.airc && userMayTxRf st uid))
  if allowed then
    let (ok, policy) := o.policy.rfChannelRateOk (rateKey st uid ++ ':' :: chan.name) m.now
    let o := { o with policy := policy }
    if !ok then
      -- the cap is on radiation, not on the Internet side
      (none, o.noticeUser st m uid
        "Flood protection: too many messages on the RF channel. Slow down.")
    else o.screen st m uid (air.getD text) .now
  else if chan.rf && air.isSome then
    (none, o.noticeAirReason st m uid chan.name (o.channelAirLine st chan.name))
  else (none, o)

/-- A message to a station that is not in range is held, if it can be. -/
def offerMailbox (o : Outlet) (st : State) (m : Moment) (uid : UserId) (sender target text : Text)
    (notice : Bool) : Outlet :=
  let noSuchNick := o.numeric st uid "401" [target, "No such nick/channel"]
  match chatForAir text notice, (Callsign.fromNick target).filter Callsign.looksLikeAmateurCall with
  | some air, some call =>
    if !o.mailbox.enabled || !o.cfg.radio.enabled then noSuchNick
    else
      let accepted := o.acceptance st uid true
      match o.screen st m uid air .held with
      | (none, o) => o
      | (some s, o) =>
        let (result, mailbox) :=
          o.mailbox.store call ⟨sender, s.text, notice, s.truncated, m.now, .ip uid accepted⟩
        let o := { o with mailbox := mailbox }
        match result with
        | .ok depth =>
          o.noticeUser st m uid
            (callText call ++ " is not on frequency. Held for delivery when the station is " ++
              "next heard (" ++ natText depth ++ " waiting, dropped after " ++
              natText (o.cfg.mailboxTtlSecs / 3600) ++ "h).")
        | .error e =>
          let reason : Text := match e with
            | .disabled => "the mailbox is disabled"
            | .stationFull => "that station already has as much mail as it can hold"
            | .gatewayFull => "the gateway mailbox is full"
          o.noticeUser st m uid ("Not held for " ++ callText call ++ ": " ++ reason ++ ".")
  | _, _ => noSuchNick

/-- To one user: a station's message goes through the gate first. -/
def privateMessage (o : Outlet) (st : State) (m : Moment) (uid : UserId) (sender : User)
    (target text : Text) (notice : Bool) (targetId : UserId) : Outlet :=
  let send := fun (o : Outlet) (text : Text) (truncated screened : Bool) =>
    let o := match (st.user targetId).bind User.away with
      | some away => o.numeric st uid "301" [target, away]
      | none => o
    o.deliver m targetId (.privmsg sender.nick sender.nickMask target text notice truncated
      (.ip uid (o.acceptance st uid screened)))
  if targetId.isRf then
    match chatForAir text notice with
    | none => o.noticeUser st m uid "Only PRIVMSG chat (including /me) is put on the air."
    | some air =>
      match o.screen st m uid air .now with
      | (none, o) => o
      | (some s, o) =>
        let (text, truncated) := deliveryTextAfterScreen text s
        send o text truncated true
  else send o text false false

/-! ### Held mail -/

/-- A held message as an APRS station reads it. -/
def mailBody (mail : StoredMessage) : Text :=
  (if mail.sender = [] then mail.text else mail.sender ++ ": " ++ mail.text) ++
    if mail.truncated then ['\u2026'] else []

/-- One held message, when there is room for it. Returns whether it was handed over. -/
def flushOne (o : Outlet) (m : Moment) (call : Callsign) (mail : StoredMessage) : Bool × Outlet :=
  let age := natText ((m.now - mail.storedAt) / secs 1)
  let handed := fun (e : Bool × Outlet) =>
    if e.1 then
      (true, { e.2.record mail.origin mail.text with mailbox := e.2.mailbox.dropFront call })
    else e
  if o.gateway.wantsAprs call then
    if !o.gateway.backlogHasRoom (min (octets (mailBody mail)) 67 + 20) .direct then (false, o)
    else handed (o.aprsChat m call (mailBody mail))
  else
    let stored : Addressed := .stored mail.sender mail.text age mail.truncated
    if !o.gateway.backlogHasRoom (o.gateway.wireOctets (stored.payload call).length) .direct then
      (false, o)
    else if !o.sessions.canAccept call then (false, o)
    else handed (o.unicast m call stored)

/-- A few at a time, until one cannot be handed over. -/
def flushBatch (o : Outlet) (m : Moment) (call : Callsign) : ℕ → Outlet
  | 0 => o
  | n + 1 =>
    match o.mailbox.peek call with
    | none => o
    | some mail =>
      match o.flushOne m call mail with
      | (true, o) => o.flushBatch m call n
      | (false, o) => o

/-- Mail stays where it is while nothing can be radiated. -/
def flushMailbox (o : Outlet) (m : Moment) (call : Callsign) : Outlet :=
  if o.mailbox.depth call = 0 then o
  else if !o.gateway.available || o.gateway.pump.shared.inhibit || o.gateway.interlockDown then o
  else o.flushBatch m call (max o.cfg.mailboxFlushBatch 1)

end ServerOutput.Outlet
