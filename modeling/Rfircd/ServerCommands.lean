import Rfircd.ServerAccess

/-! The commands of Internet clients, and which of them a client may give. -/
namespace ServerCore.Server

open Basics KeyedTable MessageText HostKey IrcMessage IrcState HeldMail AprsCodec AirTrace AirPolicy
open AircSession RadioGateway AirScreen Accounts ServerOutput

/-! ### Operators -/

def killedBy (reason : Text) : Text := "Killed (" ++ reason ++ ")"

def cmdKill (s : Server) (m : Moment) (uid : UserId) (msg : Message) : Server :=
  s.requireOper uid fun s =>
    match msg.param 0 with
    | none => s.needMore uid "KILL"
    | some who =>
      match findTarget s.state who with
      | none => s.numeric uid "401" [who, "No such nick"]
      | some target =>
        let reason := (msg.param 1).getD "Killed"
        (s.closeLink target ("ERROR :" ++ killedBy reason)).quitUser m target (killedBy reason)

def cmdKline (s : Server) (m : Moment) (uid : UserId) (msg : Message) : Server :=
  s.requireOper uid fun s =>
    match msg.param 0 with
    | none => s.needMore uid "KLINE"
    | some host =>
      let key := hostBanKey host
      if key = [] then s.noticeUser m uid "Usage: KLINE <host> [reason]"
      else
        let s := { s with
          accounts := (s.accounts.banIp key).2
          admissionBans :=
            if hostBanKey key = [] then s.admissionBans
            else s.admissionBans.insert (hostBanKey key) }
        let victims := (s.state.users.entries.map Prod.snd).filter fun u =>
          u.id ≠ uid && !u.isRf && decide (hostBanKey u.host = key)
        let s := victims.foldl (fun s u =>
          (s.closeLink u.id "ERROR :Banned from this server").quitUser m u.id "Banned") s
        s.noticeUser m uid ("Banned " ++ key ++ " (" ++ (msg.param 1).getD "Banned" ++
          "). Stored in the nick file.")

def cmdUnkline (s : Server) (m : Moment) (uid : UserId) (msg : Message) : Server :=
  s.requireOper uid fun s =>
    match msg.param 0 with
    | none => s.needMore uid "UNKLINE"
    | some host =>
      match s.accounts.unbanIp host with
      | (true, accounts) =>
        let key := hostBanKey host
        { s with
          accounts := accounts
          admissionBans := s.admissionBans.erase (hostBanKey key) }.noticeUser m uid
          ("Removed the ban on " ++ key ++ ".")
      | (false, _) => s.noticeUser m uid "That host is not banned."

/-- The connection password, until the next start. -/
def cmdPasswd (s : Server) (m : Moment) (uid : UserId) (msg : Message) : Server :=
  s.requireOper uid fun s =>
    match msg.param 0 with
    | none | some [] => s.needMore uid "PASSWD"
    | some arg =>
      if eqIgnoreAsciiCase arg "off" then
        { s with connectionPassword := none }.noticeUser m uid
          ("IRC connection password cleared for this process. " ++
            "A restart reloads the config file.")
      else
        { s with connectionPassword := some arg }.noticeUser m uid
          ("IRC connection password is now required (PASS). Not written to the config file; " ++
            "a restart restores whatever is in server.password.")

/-! ### The radio -/

/-- A station that is removed may not come back by itself. -/
def radioKick (s : Server) (m : Moment) (uid : UserId) (msg : Message) : Server :=
  match (msg.param 1).bind Callsign.fromStr with
  | none => s.noticeUser m uid "Usage: RADIO KICK <callsign>"
  | some call =>
    ((s.perform (.ban call)).quitUser m (.rf call) "Removed by control operator").noticeUser m uid
      "Station removed."

def radioGrant (s : Server) (m : Moment) (uid : UserId) (msg : Message) (grant : Bool) : Server :=
  match msg.param 1 with
  | none =>
    s.noticeUser m uid
      (if grant then "Usage: RADIO GRANT <nick>" else "Usage: RADIO REVOKE <nick>")
  | some nick => s.grantRfTx m uid nick grant

def radioCommand (s : Server) (m : Moment) (uid : UserId) (msg : Message) (sub : String) : Server :=
  match sub with
  | "OFF" => s.send fun o st => o.radioOff st m uid
  | "ON" => s.send fun o st => o.radioOn st m uid
  | "ID" => s.send fun o st => o.radioId st m uid
  | "HEARD" => s.send fun o st => o.radioHeard st m uid
  | "DUTY" => s.send fun o st => o.radioDuty st m uid
  | "QUEUE" => s.send fun o st => o.radioQueue st m uid
  | "LIMIT" => s.send fun o st => o.radioLimit st m uid msg
  | "MAIL" => s.send fun o st => o.radioMail st m uid
  | "KICK" => s.radioKick m uid msg
  | "GRANT" => s.radioGrant m uid msg true
  | "REVOKE" => s.radioGrant m uid msg false
  | _ =>
    s.noticeUser m uid
      ("RADIO STATUS | DUTY | QUEUE | LIMIT | ON | OFF | ID | HEARD | MAIL | " ++
        "KICK <callsign> | GRANT <nick> | REVOKE <nick>")

/-- Its status is for everyone, the rest for operators. -/
def cmdRadio (s : Server) (m : Moment) (uid : UserId) (msg : Message) : Server :=
  let sub := String.ofList (((msg.param 0).getD "STATUS").map toAsciiUpper)
  if sub = "STATUS" then s.send fun o st => o.radioStatus st m uid
  else s.requireOper uid fun s => s.radioCommand m uid msg sub

/-! ### The dispatcher -/

def cmdQuit (s : Server) (m : Moment) (uid : UserId) (msg : Message) : Server :=
  let reason := (msg.param 0).getD "Client quit"
  (s.closeLink uid ("ERROR :Closing link (" ++ reason ++ ")")).quitUser m uid reason

def cmdAway (s : Server) (uid : UserId) (msg : Message) : Server :=
  let away := (msg.param 0).filter (· ≠ [])
  let s := s.modifyUser uid fun u => { u with away := away }
  if away.isSome then s.numeric uid "306" ["You have been marked as being away"]
  else s.numeric uid "305" ["You are no longer marked as being away"]

/-- What a listen-only connection may do: watch, and register. -/
def listenOnlyCommand (cmd : String) (msg : Message) : Bool :=
  match cmd with
  | "CAP" | "PASS" | "NICK" | "USER" | "QUIT" | "PING" | "PONG" | "JOIN" | "PART" | "NAMES"
  | "LIST" | "WHO" | "WHOIS" | "WHOWAS" | "MOTD" | "LUSERS" | "AWAY" | "RADIO"
  | "VERSION" | "TIME" | "ADMIN" | "INFO" | "HELP" | "STATS" | "LINKS" | "ISON"
  | "USERHOST" => true
  | "MODE" | "TOPIC" => (msg.param 1).isNone
  | _ => false

/-- Before its registration a connection may only register. -/
def handshakeCommand (cmd : String) : Bool :=
  match cmd with
  | "PASS" | "NICK" | "USER" | "QUIT" | "PING" | "PONG" | "CAP" => true
  | _ => false

def unlimitedCommand (cmd : String) : Bool :=
  match cmd with
  | "PONG" | "PING" | "QUIT" => true
  | _ => false

/-- Questions, whose answers go to the client alone. -/
def query (o : Outlet) (st : State) (m : Moment) (id : ℕ) (msg : Message) (cmd : String) :
    Option Outlet :=
  let uid : UserId := .ip id
  match cmd with
  | "CAP" => some (o.cmdCap st uid msg)
  | "PING" => some (o.cmdPing id msg)
  | "PONG" => some o
  | "NAMES" => some (o.cmdNames st uid msg)
  | "LIST" => some (o.cmdList st uid)
  | "WHO" => some (o.cmdWho st uid msg)
  | "WHOIS" => some (o.cmdWhois st m uid msg)
  | "WHOWAS" => some (o.cmdWhowas st uid msg)
  | "ISON" => some (o.cmdIson st uid msg)
  | "USERHOST" => some (o.cmdUserhost st uid msg)
  | "VERSION" => some (o.cmdVersion st uid)
  | "TIME" => some (o.cmdTime st m uid)
  | "ADMIN" => some (o.cmdAdmin st uid)
  | "INFO" => some (o.cmdInfo st uid)
  | "HELP" => some (o.cmdHelp st uid msg)
  | "STATS" => some (o.cmdStats st m uid msg)
  | "LINKS" => some (o.cmdLinks st uid)
  | "MOTD" => some (o.sendMotd st uid)
  | "LUSERS" => some (o.sendLusers st uid)
  | "INVITE" => some (o.cmdInvite st m uid msg)
  | _ => none

def command (s : Server) (m : Moment) (id : ℕ) (msg : Message) (cmd : String) : Server :=
  let uid : UserId := .ip id
  match cmd with
  | "PASS" => s.cmdPass uid msg
  | "NICK" => s.cmdNick m uid msg
  | "USER" => s.cmdUser m uid msg
  | "QUIT" => s.cmdQuit m uid msg
  | "JOIN" => s.cmdJoin m uid msg
  | "PART" => s.cmdPart m uid msg
  | "PRIVMSG" => s.cmdPrivmsg m uid msg false
  | "NOTICE" => s.cmdPrivmsg m uid msg true
  | "TOPIC" => s.cmdTopic m uid msg
  | "MODE" => s.cmdMode m uid msg
  | "AWAY" => s.cmdAway uid msg
  | "OPER" => s.cmdOper m uid msg
  | "CALLSIGN" => s.cmdCallsign m uid msg
  | "RADIO" => s.cmdRadio m uid msg
  | "KICK" => s.cmdKick m uid msg
  | "KILL" => s.cmdKill m uid msg
  | "ACCOUNTS" => s.requireOper uid fun s => s.send fun o st => o.listAccounts st m uid s.accounts
  | "DROPNICK" => s.cmdDropnick m uid msg
  | "UNCLAIM" => s.cmdUnclaim m uid msg
  | "KLINE" => s.cmdKline m uid msg
  | "UNKLINE" => s.cmdUnkline m uid msg
  | "KLINES" => s.requireOper uid fun s => s.send fun o st => o.listBans st m uid s.accounts
  | "PASSWD" => s.cmdPasswd m uid msg
  | "REGISTER" => s.cmdRegister m uid msg
  | "IDENTIFY" => s.cmdIdentify m uid msg
  | "UNREGISTER" => s.cmdUnregister m uid msg
  | _ =>
    match query s.outlet s.state m id msg cmd with
    | some o => { s with outlet := o }
    | none => s.numeric uid "421" [msg.command, "Unknown command"]

/-- The rate limit for commands. -/
def cmdRateOk (s : Server) (m : Moment) (id : ℕ) (cmd : String) : Bool × Server :=
  if unlimitedCommand cmd then (true, s)
  else
    let (ok, policy) := s.outlet.policy.ipCmdRateOk (natText id) m.now
    (ok, { s with outlet := { s.outlet with policy := policy } })

def handleClientMessage (s : Server) (m : Moment) (id : ℕ) (msg : Message) : Server :=
  let uid : UserId := .ip id
  let cmd := String.ofList msg.command
  match s.user uid with
  | none => s
  | some user =>
    let s := s.modifyUser uid fun u => { u with lastActive := m.now }
    match s.cmdRateOk m id cmd with
    | (false, s) => s.noticeUser m uid "Slow down: command flood protection."
    | (true, s) =>
      if !user.registered && !handshakeCommand cmd then
        s.numeric uid "451" ["You have not registered"]
      else if user.listenOnly && !listenOnlyCommand cmd msg then
        s.numeric uid "484" [msg.command, "This connection is listen-only. Connect with TLS to " ++
          "speak, identify, or control the radio."]
      else s.command m id msg cmd

end ServerCore.Server
