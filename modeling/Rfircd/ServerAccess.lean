import Rfircd.ServerChannels

/-! Nicks, passwords and callsigns: who somebody is, and what follows from it.
A password is hashed or checked away from the server, and the result comes back later. -/
namespace ServerCore.Server

open Basics KeyedTable MessageText HostKey IrcMessage IrcState HeldMail AprsCodec AirTrace AirPolicy
open AircSession RadioGateway AirScreen Accounts ServerOutput

/-! ### Registration of a connection -/

def cmdPass (s : Server) (uid : UserId) (msg : Message) : Server :=
  match msg.param 0 with
  | none => s.needMore uid "PASS"
  | some given => s.modifyUser uid fun u => { u with passOk := s.connectionPassword.all (· = given) }

def isupport (s : Server) : List Text := [
  "CHANTYPES=#&",
  "PREFIX=(ov)@+",
  "NICKLEN=" ++ natText s.cfg.maxNickLen,
  "CHANNELLEN=50",
  "CASEMAPPING=rfc1459",
  "NETWORK=" ++ s.cfg.network,
  "MAXTARGETS=1",
  "TOPICLEN=200",
  "CHANMODES=k,l,r,mnt",
  "RADIO=" ++ if s.outlet.gateway.available then ("ON" : Text) else "OFF",
  "RFCALL=" ++ s.cfg.radio.callsign,
  "are supported by this server"]

/-- What a new user is told. -/
def welcome (s : Server) (m : Moment) (uid : UserId) (user : User) : Server :=
  let s := s.numeric uid "001"
    ["Welcome to the " ++ s.cfg.network ++ " amateur radio IRC network " ++ user.nick]
  let s := s.numeric uid "002"
    ["Your host is " ++ s.cfg.name ++ ", running rfircd " ++ Outlet.version]
  let s := s.numeric uid "003" ["This server was created at startup"]
  let s := s.numeric uid "004" [s.cfg.name, "rfircd-" ++ Outlet.version, "iow", "mnrtkl"]
  let s := s.numeric uid "005" s.isupport
  let s := s.send fun o st => (o.sendLusers st uid).sendMotd st uid
  let s := if user.listenOnly then
      s.noticeUser m uid ("This connection is listen-only (plaintext from off the machine). " ++
        "Connect with TLS to speak, identify, OPER, or control the radio. " ++
        "Everything that reaches the air is still in the clear.")
    else s
  let s := s.noticeUser m uid (s.outlet.statusLine m)
  let s := s.noticeUser m uid
    ("On +r channels CALLSIGN grants +v (speak on IRC). A control operator " ++
      "must RADIO GRANT a registered nick before that nick's messages are " ++
      "radiated. REGISTER/IDENTIFY keep the nick and the grant across restarts.")
  if s.accounts.isRegistered user.nick then
    s.noticeUser m uid (user.nick ++ " is registered. IDENTIFY <password> within " ++
      natText s.cfg.identifyTimeoutSecs ++ " seconds.")
  else s

def closeLink (s : Server) (uid : UserId) (line : Text) : Server :=
  match uid with
  | .ip id => s.send fun o _ => o.sendRaw id line
  | .rf _ => s

def tryCompleteRegistration (s : Server) (m : Moment) (uid : UserId) : Server :=
  match s.user uid with
  | none => s
  | some user =>
    if user.registered || !user.gotNick || !user.gotUser then s
    else if s.connectionPassword.isSome && !user.passOk then
      ((s.numeric uid "464" ["Password incorrect"]).closeLink uid
        "ERROR :Closing link (bad password)").quitUser m uid "Bad password"
    else (s.modifyUser uid fun u => { u with registered := true }).welcome m uid user

/-- A change of case is no change of identity. -/
def recaseNick (s : Server) (m : Moment) (uid : UserId) (user : User) (nick : Text) : Server :=
  let s := if user.nick = nick then s
    else
      let s := { s with state := (s.state.setNick uid nick).2 }
      if user.registered then
        s.send fun o st =>
          o.broadcastPeers st m uid (.nickChange user.nick user.nickMask nick) true
      else s
  if user.registered then s else s.tryCompleteRegistration m uid

/-- A new nick starts without a password and without a callsign. -/
def takeNick (s : Server) (m : Moment) (uid : UserId) (user : User) (nick : Text) : Server :=
  match s.state.setNick uid nick with
  | (false, _) => s.numeric uid "433" [nick, "Nickname is already in use"]
  | (true, st) =>
    let claimed := s.accounts.isRegistered nick
    let s := { s with state := st }
    let s := s.modifyUser uid fun u => { u with
      gotNick := true
      nickIdentified := false
      callsign := none
      identifyBy := if claimed then some (m.now + secs s.cfg.identifyTimeoutSecs) else none }
    let s := if claimed then
        s.noticeUser m uid ("This nick is registered. IDENTIFY <password> within " ++
          natText s.cfg.identifyTimeoutSecs ++ " seconds or it will be released.")
      else s
    if user.registered then
      (s.send fun o st =>
        o.broadcastPeers st m uid (.nickChange user.nick user.nickMask nick) true).refreshPrivileges m
        uid
    else s.tryCompleteRegistration m uid

def cmdNick (s : Server) (m : Moment) (uid : UserId) (msg : Message) : Server :=
  match msg.param 0 with
  | none => s.numeric uid "431" ["No nickname given"]
  | some nick =>
    if !isValidNick nick s.cfg.maxNickLen then s.numeric uid "432" [nick, "Erroneous nickname"]
    else if (reservedFromNick nick).isSome then
      s.numeric uid "432" [nick, "Callsign nicknames are reserved; use CALLSIGN to identify"]
    else match s.user uid with
      | none => s
      | some user =>
        if user.nick ≠ [] ∧ user.nick ≠ ['*'] ∧ lower user.nick = lower nick then
          s.recaseNick m uid user nick
        else if s.state.nickTaken nick then
          s.numeric uid "433" [nick, "Nickname is already in use"]
        else s.takeNick m uid user nick

/-- It stands in `nick!user@host`. -/
def usernameFromUserParam (raw : Text) : Option Text :=
  let name := raw.take 10
  if name = [] ∨ name.any fun c => c = '!' || c = '@' || c < ' ' || c = '\x7f' then none
  else some name

def cmdUser (s : Server) (m : Moment) (uid : UserId) (msg : Message) : Server :=
  if (s.user uid).any User.registered then s.numeric uid "462" ["You may not reregister"]
  else match msg.params with
    | name :: _ :: _ :: realname :: _ =>
      match usernameFromUserParam name with
      | none =>
        s.numeric uid "432" [name, "Username may not contain ! or @ or control characters"]
      | some username =>
        (s.modifyUser uid fun u => { u with
          username := username
          realname := realname
          gotUser := true }).tryCompleteRegistration m uid
    | _ => s.needMore uid "USER"

/-! ### Password jobs -/

def authRateOk (s : Server) (m : Moment) (uid : UserId) : Bool × Server :=
  let host := (s.user uid).elim [] User.host
  let (ok, policy) := s.outlet.policy.identifyRateOk host m.now
  let s := { s with outlet := { s.outlet with policy := policy } }
  (ok, if ok then s
    else s.noticeUser m uid "Slow down: too many password attempts from your host.")

/-- Only clients start jobs. -/
def runArgon2 (s : Server) (uid : UserId) (kind : AuthKind) (nick : Text) (work : Work) : Server :=
  match uid with
  | .rf _ => s
  | .ip id => { s with jobs := s.jobs ++ [⟨id, kind, nick, work⟩] }

def registerWith (s : Server) (m : Moment) (uid : UserId) (user : User) (password : Text) : Server :=
  if (reservedFromNick user.nick).isSome then
    s.noticeUser m uid "Callsign nicks cannot be registered; they belong to RF stations."
  else if octets password < s.cfg.minPasswordLen then s.noticeAccountError m uid .tooShort
  else if 128 < octets password then s.noticeAccountError m uid .tooLong
  else if !user.nickIdentified && s.accounts.isRegistered user.nick then
    s.noticeAccountError m uid .taken
  else s.runArgon2 uid .register user.nick (.hash password)

/-- `IDENTIFY` and `UNREGISTER`: the password is checked against the hash as it is now. -/
def verifyWith (s : Server) (m : Moment) (uid : UserId) (kind : AuthKind) (user : User)
    (password : Text) : Server :=
  match s.accounts.hashFor user.nick with
  | none => s.noticeAccountError m uid .notRegistered
  | some hash => s.runArgon2 uid kind user.nick (.verify password hash)

/-- The password commands for one's own nick differ in what they do with the password. -/
def withPassword (s : Server) (m : Moment) (uid : UserId) (msg : Message) (command : Text)
    (f : Server → User → Text → Server) : Server :=
  match msg.param 0 with
  | none => s.needMore uid command
  | some password =>
    match s.authRateOk m uid with
    | (false, s) => s
    | (true, s) =>
      match s.user uid with
      | none => s
      | some user => f s user password

def cmdRegister (s : Server) (m : Moment) (uid : UserId) (msg : Message) : Server :=
  s.withPassword m uid msg "REGISTER" fun s user password => s.registerWith m uid user password

def cmdIdentify (s : Server) (m : Moment) (uid : UserId) (msg : Message) : Server :=
  s.withPassword m uid msg "IDENTIFY" fun s user password =>
    s.verifyWith m uid .identify user password

def cmdUnregister (s : Server) (m : Moment) (uid : UserId) (msg : Message) : Server :=
  s.withPassword m uid msg "UNREGISTER" fun s user password =>
    s.verifyWith m uid .unregister user password

/-! ### Operators -/

def grantOper (s : Server) (m : Moment) (uid : UserId) : Server :=
  ((s.modifyUser uid fun u => { u with oper := true }).numeric uid "381"
    ["You are now a control operator"]).refreshPrivileges m uid

def passwordIncorrect (s : Server) (uid : UserId) : Server :=
  s.numeric uid "464" ["Password incorrect"]

/-- The last of the operators with this name. -/
def operNamed (s : Server) (name : Text) : Option OperConfig :=
  s.cfg.opers.reverse.find? fun o => lower o.name = lower name

/-- When a hash is configured, an unknown name costs as much time as a known one. -/
def operWith (s : Server) (m : Moment) (uid : UserId) (name password : Text) : Server :=
  let nick := (s.user uid).elim [] User.nick
  match s.operNamed name with
  | none =>
    if s.cfg.opers.any OperConfig.hashed then s.runArgon2 uid .oper nick .refuse
    else s.passwordIncorrect uid
  | some o =>
    if o.hashed then s.runArgon2 uid .oper nick (.verify password o.password)
    else if o.password ≠ password then s.passwordIncorrect uid
    else s.grantOper m uid

def cmdOper (s : Server) (m : Moment) (uid : UserId) (msg : Message) : Server :=
  match msg.param 0, msg.param 1 with
  | some name, some password =>
    match s.authRateOk m uid with
    | (false, s) => s
    | (true, s) => s.operWith m uid name password
  | _, _ => s.needMore uid "OPER"

def permissionDenied (s : Server) (uid : UserId) : Server :=
  s.numeric uid "481" ["Permission denied"]

/-- What only a control operator may do. -/
def requireOper (s : Server) (uid : UserId) (f : Server → Server) : Server :=
  if s.isOper uid then f s else s.permissionDenied uid

/-! ### Results -/

/-- A callsign that was claimed before is now bound to the nick. -/
def bindSessionCallsign (s : Server) (m : Moment) (uid : UserId) (takenNotice : Text) : Server :=
  match s.user uid with
  | none => s
  | some user =>
    match user.callsign with
    | none => s
    | some c =>
      match s.accounts.setCallsign user.nick (callText c) with
      | .ok accounts =>
        ({ s with accounts := accounts }.stripCallsignClaims m c (some uid)
          (belongsToAnother c)).noticeUser m uid
          ("Callsign " ++ callText c ++ " is bound to this nick. Nobody else can claim it.")
      | .error .callsignTaken =>
        (s.modifyUser uid fun u => { u with callsign := none }).noticeUser m uid takenNotice
      | .error e => s.noticeAccountError m uid e

def identified (u : User) : User := { u with nickIdentified := true, identifyBy := none }

def finishIdentify (s : Server) (m : Moment) (uid : UserId) (user : User) : Server :=
  if !s.accounts.isRegistered user.nick then s.noticeAccountError m uid .notRegistered
  else
    (((s.modifyUser uid identified).noticeUser m uid
      "Password accepted. You own this nick for this session.").bindSessionCallsign m uid
      "That callsign already belongs to another nick. CALLSIGN something else.").refreshPrivileges m uid

def finishRegister (s : Server) (m : Moment) (uid : UserId) (user : User) (hash : Option Text) :
    Server :=
  match hash with
  | none => s.noticeAccountError m uid .hash
  | some hash =>
    if user.nickIdentified && s.accounts.isRegistered user.nick then
      match s.accounts.setPasswordHash user.nick hash with
      | .error e => s.noticeAccountError m uid e
      | .ok accounts => { s with accounts := accounts }.noticeUser m uid "Password updated."
    else match s.accounts.insertHashed user.nick hash m.unix with
      | .error e => s.noticeAccountError m uid e
      | .ok accounts =>
        (((({ s with accounts := accounts }).modifyUser uid identified).bindSessionCallsign m uid
          ("Nick registered, but that callsign already belongs to another nick. " ++
            "CALLSIGN something else.")).noticeUser m uid
          ("Nick registered. The password is stored as an Argon2id hash, not recoverable. " ++
            "IDENTIFY on next connect.")).refreshPrivileges m uid

/-- The privileges that came with a nick. -/
def disowned (u : User) : User := { u with nickIdentified := false, rfTx := u.oper }

def finishUnregister (s : Server) (m : Moment) (uid : UserId) (user : User) : Server :=
  match s.accounts.dropNick user.nick with
  | .error e => s.noticeAccountError m uid e
  | .ok accounts =>
    ((({ s with accounts := accounts }).modifyUser uid disowned).noticeUser m uid
      "Nick unregistered.").refreshPrivileges m uid

/-- A job comes back. A nick that changed in the meantime is noticed; its account is not looked
at again. -/
def finishAuth (s : Server) (m : Moment) (id : ℕ) (kind : AuthKind) (nick : Text)
    (result : Except AccountError (Option Text)) : Server :=
  let uid : UserId := .ip id
  match s.user uid with
  | none => s
  | some user =>
    if lower user.nick ≠ lower nick then
      s.noticeUser m uid "Nick changed during password check; try again."
    else match result, kind with
      | .error _, .oper => s.passwordIncorrect uid
      | .error e, _ => s.noticeAccountError m uid e
      | .ok _, .identify => s.finishIdentify m uid user
      | .ok hash, .register => s.finishRegister m uid user hash
      | .ok _, .unregister => s.finishUnregister m uid user
      | .ok _, .oper => s.grantOper m uid

/-! ### Accounts, as operators change them -/

def grantRfTx (s : Server) (m : Moment) (oper : UserId) (nick : Text) (grant : Bool) : Server :=
  match s.accounts.setRfTx nick grant with
  | .error .notRegistered =>
    s.noticeUser m oper (nick ++ " is not registered. They must REGISTER first; the grant is " ++
      "stored in the nick file and restored on IDENTIFY.")
  | .error e => s.noticeAccountError m oper e
  | .ok accounts =>
    let s := { s with accounts := accounts }
    let s := match findTarget s.state nick with
      | none => s
      | some target =>
        (s.refreshPrivileges m target).noticeUser m target
          (if grant then
            "A control operator granted you RF-TX. After CALLSIGN, your messages in +r " ++
              "channels may be radiated."
          else "RF-TX revoked. Your messages stay on IRC.")
    s.noticeUser m oper ("RF-TX " ++ (if grant then ("granted" : Text) else "revoked") ++ " for " ++
      nick ++ " and stored in the nick file.")

def cmdDropnick (s : Server) (m : Moment) (uid : UserId) (msg : Message) : Server :=
  s.requireOper uid fun s =>
    match msg.param 0 with
    | none => s.needMore uid "DROPNICK"
    | some nick =>
      match s.accounts.dropNick nick with
      | .error e => s.noticeAccountError m uid e
      | .ok accounts =>
        let s := { s with accounts := accounts }
        let s := match findTarget s.state nick with
          | none => s
          | some target =>
            ((s.modifyUser target fun u => { disowned u with callsign := none }).noticeUser m target
              "A control operator unregistered this nick.").refreshPrivileges m target
        s.noticeUser m uid ("Unregistered " ++ nick ++ ".")

def cmdUnclaim (s : Server) (m : Moment) (uid : UserId) (msg : Message) : Server :=
  s.requireOper uid fun s =>
    match msg.param 0 with
    | none => s.needMore uid "UNCLAIM"
    | some arg =>
      match Callsign.fromStr arg with
      | none => s.noticeUser m uid "That is not a valid callsign."
      | some call =>
        match s.accounts.clearCallsign (callText call) with
        | .ok (owner, accounts) =>
          ({ s with accounts := accounts }.stripCallsignClaims m call none
            ("A control operator released callsign " ++ callText call ++ ".")).noticeUser m uid
            ("Callsign " ++ callText call ++ " is no longer bound to " ++ owner ++ ".")
        | .error .notRegistered => s.noticeUser m uid "That callsign is not bound to any nick."
        | .error e => s.noticeAccountError m uid e

/-! ### Callsigns -/

/-- Another user who goes by a callsign. -/
def holderOf (s : Server) (uid : UserId) (call : Callsign) : Option Text :=
  (((s.state.users.entries.map Prod.snd).find? fun u =>
    u.id ≠ uid && decide (u.callsign = some call))).map User.nick

/-- The claim of somebody who is identified is stored with the nick. -/
def bindClaim (s : Server) (m : Moment) (uid : UserId) (user : User) (call : Callsign) :
    Except AccountError Server :=
  if user.nickIdentified then
    (s.accounts.setCallsign user.nick (callText call)).map fun accounts =>
      { s with accounts := accounts }.stripCallsignClaims m call (some uid) (belongsToAnother call)
  else .ok s

def claimCallsign (s : Server) (m : Moment) (uid : UserId) (user : User) (call : Callsign) : Server :=
  match s.bindClaim m uid user call with
  | .error e => s.noticeAccountError m uid e
  | .ok s =>
    let s := s.modifyUser uid fun u => { u with callsign := some call }
    let s := s.noticeUser m uid
      ("Callsign recorded as " ++ callText call ++ ". This is an unverified claim and is logged " ++
        "as such. You are responsible for your own transmissions.")
    let s := s.noticeUser m uid
      (if user.nickIdentified then
        "Callsign " ++ callText call ++ " is bound to this nick. Nobody else can claim it."
      else
        "This claim lasts for this session only. REGISTER <password> to bind the nick " ++
          "and this callsign so nobody else can use them.")
    s.refreshPrivileges m uid

def cmdCallsign (s : Server) (m : Moment) (uid : UserId) (msg : Message) : Server :=
  match s.user uid, msg.param 0 with
  | none, _ => s
  | some user, none =>
    s.noticeUser m uid ("Your callsign is set to: " ++ user.callsign.elim ("none" : Text) callText)
  | some user, some arg =>
    match Callsign.fromStr arg with
    | none => s.noticeUser m uid "That is not a valid callsign."
    | some call =>
      if !Callsign.looksLikeAmateurCall call then
        s.noticeUser m uid "That does not look like an amateur callsign."
      else if !s.outlet.policy.stationAllowed call then
        s.noticeUser m uid "That callsign is not permitted on this gateway."
      else match (s.accounts.ownerOfCallsign (callText call)).filter fun owner =>
          lower owner ≠ lower user.nick with
        | some owner =>
          s.noticeUser m uid ("Callsign " ++ callText call ++ " is registered to " ++ owner ++
            ". Choose another, or ask a control operator.")
        | none =>
          match s.holderOf uid call with
          | some holder =>
            s.noticeUser m uid ("Callsign " ++ callText call ++ " is already claimed by " ++ holder ++
              ".")
          | none => s.claimCallsign m uid user call

end ServerCore.Server
