import Rfircd.ServerReplies

/-! The server: who is connected, what they may do, and what is still being checked.
An event is handled to its end before the next one. -/
namespace ServerCore

open Basics KeyedTable MessageText HostKey IrcMessage IrcState HeldMail AprsCodec AirTrace AirPolicy
open AircSession RadioGateway AirScreen Accounts ServerOutput

inductive AuthKind where
  | identify
  | register
  | unregister
  | oper
  deriving DecidableEq

/-- What a password job computes away from the server. -/
inductive Work where
  | hash (password : Text)
  | verify (password hash : Text)
  /-- An unknown operator name costs as much as a known one. -/
  | refuse
  deriving DecidableEq

/-- A password job that has not come back. -/
structure Job where
  client : ℕ
  kind : AuthKind
  nick : Text
  work : Work
  deriving DecidableEq

/-! What happened, for the record. -/

/-- A user became a member: what the channel asked for, and what was given. -/
structure Joined where
  user : UserId
  channel : Text
  key : Option Text
  given : Option Text
  limit : Option ℕ
  members : ℕ
  deriving DecidableEq

/-- A message was relayed to a channel's members. -/
structure Relayed where
  sender : UserId
  channel : Text
  moderated : Bool
  flags : MemberFlags
  deriving DecidableEq

structure Server where
  outlet : Outlet
  state : State
  accounts : Store
  jobs : List Job
  connectionPassword : Option Text
  admissionBans : List Text
  persistFailSeen : ℕ
  clientIds : List ℕ
  joined : List Joined
  relayed : List Relayed

namespace Server

/-- The configured channels are there from the start. -/
def configuredChannels (cfg : ServerConfig) (unix : ℕ) : State :=
  cfg.channels.foldl (fun st ch =>
    (st.ensureChannel ch.name ch.rf).modifyChannel ch.name fun c =>
      let c := { c with configured := true, operators := ch.operators.map lower }
      if ch.topic = [] then c
      else { c with topic := some ch.topic, topicSetter := cfg.name, topicTime := unix }) .empty

def new (cfg : ServerConfig) (attached : Bool) (tnc : TransmitPump.TncConfig) (accounts : Store)
    (unix : ℕ) : Server where
  outlet := .new cfg attached tnc
  state := configuredChannels cfg unix
  accounts := accounts
  jobs := []
  connectionPassword := cfg.password
  admissionBans := (accounts.ipBans.map hostBanKey).filter fun key => key ≠ []
  persistFailSeen := 0
  clientIds := []
  joined := []
  relayed := []

def cfg (s : Server) : ServerConfig := s.outlet.cfg

def user (s : Server) (uid : UserId) : Option User := s.state.user uid

def isOper (s : Server) (uid : UserId) : Bool := (s.user uid).any User.oper

/-- Lines and content go out; nothing else changes. -/
def send (s : Server) (f : Outlet → State → Outlet) : Server :=
  { s with outlet := f s.outlet s.state }

def perform (s : Server) (op : RadioOp) : Server := s.send fun o _ => o.perform op

def numeric (s : Server) (uid : UserId) (code : Text) (params : List Text) : Server :=
  s.send fun o st => o.numeric st uid code params

def noticeUser (s : Server) (m : Moment) (uid : UserId) (text : Text) : Server :=
  s.send fun o st => o.noticeUser st m uid text

def noticeAccountError (s : Server) (m : Moment) (uid : UserId) (e : AccountError) : Server :=
  s.send fun o st => o.noticeAccountError st m uid e

def modifyUser (s : Server) (uid : UserId) (f : User → User) : Server :=
  { s with state := s.state.modifyUser uid f }

def modifyChannel (s : Server) (name : Text) (f : Channel → Channel) : Server :=
  { s with state := s.state.modifyChannel name f }

/-- The name as the channel has it. -/
def channelDisplayName (s : Server) (name : Text) : Text :=
  (s.state.channels.get (lower name)).elim name Channel.name

/-! ### Leaving -/

def quitUser (s : Server) (m : Moment) (uid : UserId) (reason : Text) : Server :=
  match s.user uid with
  | none => s
  | some u =>
    let s := if u.registered then
        s.send fun o st => o.broadcastPeers st m uid (.quit u.nick u.nickMask reason) false
      else s
    let rfChannels := if u.isRf then
        (u.channels.filterMap s.state.channels.get).filter Channel.rf
      else []
    let s := { s with
      state := s.state.removeUser uid
      outlet := { s.outlet with
        airNotices := s.outlet.airNotices.filterMap fun k t => if k.1 = uid then none else some t } }
    let s := match uid with
      | .ip id => s.send fun o _ => { o with clients := o.clients.disconnect id }
      | .rf call => s.perform (.forget call)
    rfChannels.foldl (fun s c =>
      if (s.state.channel c.name).all Channel.hasRfMembers then s
      else s.send fun o st => o.noticeRfAudience st m c.name
        "No RF station remains in this channel. Users with RF-TX can still CQ.") s

/-! ### Privileges -/

def announceMode (s : Server) (channel setter changes : Text) (args : List Text) : Server :=
  s.send fun o st => o.sendToMembers (st.members channel)
    ((Message.new "MODE" (channel :: changes :: args)).withPrefix setter).toText

/-- What an account gives its owner: the grant, and the callsign if he has none. `strip` takes the
callsign from everyone else. -/
def refreshRfTx (s : Server) (strip : Server → Callsign → Server) (uid : UserId) : Server :=
  match s.user uid with
  | none => s
  | some u =>
    if u.isRf then s
    else
      let granted := u.nickIdentified && s.accounts.grantsRfTx u.nick
      let storedCall := if u.nickIdentified then
          ((s.accounts.get u.nick).bind NickAccount.callsign).bind Callsign.fromStr
        else none
      let s := s.modifyUser uid fun u => { u with
        rfTx := u.oper || granted
        callsign := u.callsign <|> storedCall }
      match u.callsign, storedCall with
      | none, some c => strip s c
      | _, _ => s

/-- The operator and voice flags of a user in every channel are computed anew. -/
def reapplyFlags (s : Server) (uid : UserId) : Server :=
  let nick := (s.user uid).elim [] User.nick
  (Outlet.channelNames s.state uid).foldl (fun s ch =>
    match s.state.applyIntendedFlags uid ch with
    | (none, _) => s
    | (some (old, new), st) =>
      let s := { s with state := st }
      let s := if old.op ≠ new.op then
          s.announceMode ch s.cfg.name (if new.op then "+o" else "-o") [nick]
        else s
      if old.voice ≠ new.voice then
        s.announceMode ch s.cfg.name (if new.voice then "+v" else "-v") [nick]
      else s) s

/-- Everyone but `keep` who goes by a callsign loses it. -/
def stripWith (s : Server) (refresh : Server → UserId → Server) (m : Moment) (call : Callsign)
    (keep : Option UserId) (notice : Text) : Server :=
  let victims := (s.state.users.entries.map Prod.snd).filter fun u =>
    keep ≠ some u.id && decide (u.callsign = some call)
  victims.foldl (fun s u =>
    refresh ((s.modifyUser u.id fun u => { u with callsign := none }).noticeUser m u.id notice) u.id) s

def belongsToAnother (call : Callsign) : Text :=
  "Callsign " ++ callText call ++ " now belongs to another nick."

/-- Restoring one user's callsign can take it from another, whose own is then restored. No user is
restored twice, so there are no more rounds than users. -/
def refreshWith : ℕ → Server → Moment → UserId → Server
  | 0, s, _, uid => (s.refreshRfTx (fun s _ => s) uid).reapplyFlags uid
  | n + 1, s, m, uid =>
    (s.refreshRfTx (fun s c =>
      s.stripWith (fun s v => refreshWith n s m v) m c (some uid) (belongsToAnother c)) uid).reapplyFlags
      uid

def refreshPrivileges (s : Server) (m : Moment) (uid : UserId) : Server :=
  refreshWith s.state.users.size s m uid

def stripCallsignClaims (s : Server) (m : Moment) (call : Callsign) (keep : Option UserId)
    (notice : Text) : Server :=
  s.stripWith (fun s v => s.refreshPrivileges m v) m call keep notice

/-! ### Channels -/

/-- A user becomes a member, with what it gave for it. -/
def join (s : Server) (uid : UserId) (channel : Text) (given : Option Text) :
    Option (MemberFlags × Server) :=
  (s.state.join uid channel).map fun (flags, st) =>
    let chan := s.state.channel channel
    (flags, { s with
      state := st
      joined := s.joined ++ [⟨uid, channel, chan.bind Channel.key, given,
        chan.bind Channel.limit, chan.elim 0 fun c => c.members.size⟩] })

/-- A message goes to the members of a channel. -/
def relay (s : Server) (m : Moment) (sender : UserId) (channel : Text) (d : Delivery)
    (allowRf : Bool) : Server :=
  let chan := s.state.channel channel
  let s := s.send fun o st => o.broadcastChannelEx st m channel d (some sender) allowRf
  { s with relayed := s.relayed ++ [⟨sender, channel, chan.any Channel.moderated,
    (chan.bind fun c => c.members.get sender).getD .default⟩] }

end Server

end ServerCore
