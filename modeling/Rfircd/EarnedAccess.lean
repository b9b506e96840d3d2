import Rfircd.AccessEvents
import Rfircd.AprsAnswers
import Rfircd.ChannelStatus

/-! Who gets in, and how.
Being registered, being in a channel and being a control operator are kept with the user, and the
password was given by an earlier line, or its check comes back much later. Over a whole run, each
of them goes back to a line of that very connection. -/
namespace EarnedAccess

open Basics KeyedTable MessageText HostKey IrcMessage IrcState Accounts RadioGateway ServerOutput
open ServerCore ServerCore.Server Bridge ServerRuns ServerSteps ServerInvariants TransitionSystem
open AccessFrames AccessCommands AccessEvents StateConsistency

variable {G : Gain} {s t : Server} {m : Moment} {uid : UserId} {id : ℕ} {msg : Message}
    {user : User}
  {reader : BeaconReader} {verifies : Text → Text → Prop} {cmd : String}
  {e : Moment × ServerRuns.Event} {es : List (Moment × ServerRuns.Event)} {s₀ : Server}

/-! ### What an event can earn -/

/-- A connection gives a command that it may give. -/
def Gives (s : Server) (e : Moment × ServerRuns.Event) (id : ℕ) (cmd : String) (msg : Message) :
    Prop :=
  ∃ line u, e.2 = .line id line ∧ Message.parse line = some msg ∧ String.ofList msg.command = cmd ∧
    s.user (.ip id) = some u ∧ (handshakeCommand cmd = false → u.registered = true) ∧
    (u.listenOnly && !listenOnlyCommand cmd msg) = false

/-- The connection password is not asked for, or this connection gave it. -/
def Passes (s : Server) (id : ℕ) : Prop :=
  s.connectionPassword = none ∨ (s.user (.ip id)).any User.passOk = true

/-- What an event can earn, and whom. -/
inductive Earns (s : Server) (e : Moment × ServerRuns.Event) : Mark → UserId → Prop where
  | passed {id : ℕ} {msg : Message} {given : Text} : Gives s e id "PASS" msg →
      msg.param 0 = some given → s.connectionPassword.all (· = given) = true →
      Earns s e .passed (.ip id)
  | registered {id : ℕ} {cmd : String} {msg : Message} : Gives s e id cmd msg →
      cmd = "NICK" ∨ cmd = "USER" → Passes s id → Earns s e .registered (.ip id)
  | member {id : ℕ} {msg : Message} : Gives s e id "JOIN" msg → Earns s e .member (.ip id)
  | oper {id : ℕ} {msg : Message} {name password : Text} {o : OperConfig} :
      Gives s e id "OPER" msg → msg.param 0 = some name → msg.param 1 = some password →
      s.operNamed name = some o → o.hashed = false → o.password = password →
      Earns s e .oper (.ip id)
  | verified {job : Job} {v : Option Text} : e.2 = .authFinished job (.ok v) → job.kind = .oper →
      Earns s e .oper (.ip job.client)

/-- What is checked for somebody who wants to be an operator. -/
inductive Checks (s : Server) (name password : Text) : Work → Prop where
  | unknown : Checks s name password .refuse
  | known {o : OperConfig} : s.operNamed name = some o → o.hashed = true →
      Checks s name password (.verify password o.password)

/-- Which job a line can start. -/
inductive Starts (s : Server) (e : Moment × ServerRuns.Event) : Job → Prop where
  | account {j : Job} : j.kind ≠ .oper → Starts s e j
  | oper {id : ℕ} {msg : Message} {name password nick : Text} {work : Work} :
      Gives s e id "OPER" msg → msg.param 0 = some name → msg.param 1 = some password →
      Checks s name password work → Starts s e ⟨id, .oper, nick, work⟩

def Connects (e : Moment × ServerRuns.Event) (uid : UserId) : Prop :=
  ∃ id host listenOnly, e.2 = .connected id host listenOnly ∧ uid = .ip id

/-- What an event can give anybody. -/
def earned (s : Server) (e : Moment × ServerRuns.Event) : Gain :=
  ⟨Connects e, Earns s e, Starts s e⟩

/-! ### Registration of a connection -/

/-- What a step leaves that gives nothing to anybody. -/
def nothing : Gain := ⟨fun _ => False, fun _ _ => False, fun _ => False⟩

/-- Whoever is let in by a password gave it before. -/
theorem passed_before (h : Within nothing s t) (hpassed : (t.user uid).any User.passOk = true) :
    (s.user uid).any User.passOk = true := by
  obtain ⟨v, hv, hpass⟩ := (Option.any_eq_true _ _).mp hpassed
  rcases h.users uid v hv with hnew | ⟨u, hu, hgrows⟩
  · exact (hnew.marks .passed hpass).elim
  · rw [hu]
    exact (hgrows.marks .passed hpass).resolve_right fun h => h.elim

theorem within_cmdPass (s : Server) (msg : Message)
    (hmay : ∀ given, msg.param 0 = some given → s.connectionPassword.all (· = given) = true →
      G.mark .passed uid) : Within G s (s.cmdPass uid msg) := by
  unfold cmdPass
  split
  · simp only [within_needMore, within_self]
  · rename_i given hgiven
    refine within_modifyUser (fun u => ⟨fun hu => hu, fun mark hmark => ?_⟩) (within_self s)
    cases mark with
    | passed => exact .inr (hmay given hgiven hmark)
    | _ => cases uid <;> exact .inl hmark

theorem within_welcome (h : Within G s t) : Within G s (t.welcome m uid user) := by
  unfold welcome
  dsimp only
  split_ifs <;> simpa only [within_noticeUser, within_send, within_numeric] using h

theorem within_tryCompleteRegistration (h : Within G s t)
    (hmay : t.connectionPassword = none ∨ (t.user uid).any User.passOk = true →
      G.mark .registered uid) : Within G s (t.tryCompleteRegistration m uid) := by
  unfold tryCompleteRegistration
  split
  · exact h
  · rename_i user hu
    split_ifs with hready hpass
    · exact h
    · exact within_quitUser _ ((within_closeLink _).mpr ((within_numeric ..).mpr h))
    · have hpasses : t.connectionPassword = none ∨ (t.user uid).any User.passOk = true := by
        rw [hu]
        cases hpassword : t.connectionPassword with
        | none => exact .inl rfl
        | some p =>
          rw [hpassword] at hpass
          exact .inr (by simpa using hpass)
      refine within_welcome (within_modifyUser (fun u => ⟨fun _ => rfl, fun mark hmark => ?_⟩) h)
      cases mark with
      | registered => exact .inr (hmay hpasses)
      | _ => cases uid <;> exact .inl hmark

/-- A step before the registration that earns nothing leaves the question of the password as it
was. -/
theorem Passes.before (h : Within nothing s t)
    (hpassword : t.connectionPassword = s.connectionPassword)
    (hpasses : t.connectionPassword = none ∨ (t.user (.ip id)).any User.passOk = true) :
    Passes s id := by
  rw [hpassword] at hpasses
  exact hpasses.imp_right (passed_before h)

theorem within_cmdUser (s : Server) (m : Moment) (msg : Message)
    (hmay : Passes s id → G.mark .registered (.ip id)) : Within G s (s.cmdUser m (.ip id) msg) := by
  have hnamed : ∀ (G : Gain) (username realname : Text), Within G s (s.modifyUser (.ip id) fun u =>
      { u with username := username, realname := realname, gotUser := true }) :=
    fun G _ _ => within_modifyUser (fun _ => .of_same rfl) (within_self s)
  unfold cmdUser
  split_ifs
  · simp only [within_numeric, within_self]
  · split
    · split
      · simp only [within_numeric, within_self]
      · exact within_tryCompleteRegistration (hnamed G ..) fun h =>
          hmay (.before (hnamed nothing ..) rfl h)
    · simp only [within_needMore, within_self]

theorem within_recaseNick {nick : Text} (s : Server) (m : Moment)
    (hmay : Passes s id → G.mark .registered (.ip id)) :
    Within G s (s.recaseNick m (.ip id) user nick) := by
  have hnamed : ∀ G, Within G s { s with state := (s.state.setNick (.ip id) nick).2 } :=
    fun G => within_setNick (Prod.ext rfl rfl) (within_self s)
  unfold recaseNick
  extract_lets named recased
  have hrecased : (∀ G, Within G s recased) ∧
      recased.connectionPassword = s.connectionPassword := by
    simp only [recased]
    split_ifs
    · exact ⟨fun G => within_self s, rfl⟩
    · exact ⟨fun G => (within_send _).mpr (hnamed G), rfl⟩
    · exact ⟨hnamed, rfl⟩
  split_ifs
  · exact hrecased.1 G
  · exact within_tryCompleteRegistration (hrecased.1 G) fun h =>
      hmay (.before (hrecased.1 nothing) hrecased.2 h)

theorem within_takeNick {nick : Text} (s : Server) (m : Moment)
    (hmay : Passes s id → G.mark .registered (.ip id)) :
    Within G s (s.takeNick m (.ip id) user nick) := by
  unfold takeNick
  rcases hset : s.state.setNick (.ip id) nick with ⟨ok, st⟩
  cases ok with
  | false => simp only [within_numeric, within_self]
  | true =>
    dsimp -zeta only
    extract_lets claimed named taken told
    have htaken : ∀ G, Within G s taken := fun G =>
      within_modifyUser (fun _ => .of_same rfl) (within_setNick hset (within_self s))
    have htold : (∀ G, Within G s told) ∧ told.connectionPassword = s.connectionPassword := by
      simp only [told]
      split_ifs
      · exact ⟨fun G => (within_noticeUser _).mpr (htaken G), rfl⟩
      · exact ⟨htaken, rfl⟩
    split_ifs
    · exact within_refreshPrivileges ((within_send _).mpr (htold.1 G))
    · exact within_tryCompleteRegistration (htold.1 G) fun h =>
        hmay (.before (htold.1 nothing) htold.2 h)

theorem within_cmdNick (s : Server) (m : Moment) (msg : Message)
    (hmay : Passes s id → G.mark .registered (.ip id)) : Within G s (s.cmdNick m (.ip id) msg) := by
  unfold cmdNick
  split
  · simp only [within_numeric, within_self]
  · split
    · simp only [within_numeric, within_self]
    · split
      · simp only [within_numeric, within_self]
      · split
        · exact within_self s
        · split_ifs
          · exact within_recaseNick s m hmay
          · simp only [within_numeric, within_self]
          · exact within_takeNick s m hmay

/-! ### Operators -/

theorem within_grantOper (s : Server) (m : Moment) (hmay : G.mark .oper uid) :
    Within G s (s.grantOper m uid) := by
  refine within_refreshPrivileges ((within_numeric ..).mpr ?_)
  refine within_modifyUser (fun u => ?_) (within_self s)
  refine ⟨fun hu => hu, fun mark hmark => ?_⟩
  cases mark with
  | oper => exact .inr hmay
  | _ => cases uid <;> exact .inl hmark

theorem within_operWith (s : Server) (m : Moment) {name password : Text}
    (hmay : ∀ o, s.operNamed name = some o → o.hashed = false → o.password = password →
      G.mark .oper (.ip id))
    (hjob : ∀ nick work, Checks s name password work → G.job ⟨id, .oper, nick, work⟩) :
    Within G s (s.operWith m (.ip id) name password) := by
  have hstart : ∀ nick work, Checks s name password work →
      Within G s (s.runArgon2 (.ip id) .oper nick work) := fun nick work hwork =>
    within_runArgon2 (fun j hj => UserId.ip.inj hj ▸ hjob nick work hwork) (within_self s)
  unfold operWith
  split
  · split_ifs
    · exact hstart _ _ .unknown
    · simp only [within_passwordIncorrect, within_self]
  · rename_i o hknown
    split_ifs with hhashed hpassword
    · exact hstart _ _ (.known hknown hhashed)
    · simp only [within_passwordIncorrect, within_self]
    · exact within_grantOper s m
        (hmay o hknown (by simpa using hhashed) (not_not.mp hpassword))

theorem within_cmdOper (s : Server) (m : Moment) (msg : Message)
    (hmay : ∀ name password o, msg.param 0 = some name → msg.param 1 = some password →
      s.operNamed name = some o → o.hashed = false → o.password = password → G.mark .oper (.ip id))
    (hjob : ∀ name password nick work, msg.param 0 = some name → msg.param 1 = some password →
      Checks s name password work → G.job ⟨id, .oper, nick, work⟩) :
    Within G s (s.cmdOper m (.ip id) msg) := by
  unfold cmdOper
  split
  · rename_i name password hname hpassword
    rcases hauth : s.authRateOk m (.ip id) with ⟨ok, t⟩
    have hcounted : Within G s t := within_authRateOk hauth
    have hcfg : t.cfg = s.cfg := (steps_config (authRateOk_steps (L := anything) hauth).1).1
    have hnamed : t.operNamed name = s.operNamed name := by
      rw [operNamed, operNamed, hcfg]
    cases ok with
    | false => exact hcounted
    | true =>
      refine hcounted.trans (within_operWith t m (fun o ho => ?_) fun nick work hwork => ?_)
      · exact hmay name password o hname hpassword (hnamed ▸ ho)
      · refine hjob name password nick work hname hpassword ?_
        cases hwork with
        | unknown => exact .unknown
        | known ho hhashed => exact .known (hnamed ▸ ho) hhashed
  · simp only [within_needMore, within_self]

theorem within_finishAuth {kind : AuthKind} {nick : Text}
    {result : Except AccountError (Option Text)}
    (s : Server) (m : Moment)
    (hmay : ∀ v, result = .ok v → kind = .oper → G.mark .oper (.ip id)) :
    Within G s (s.finishAuth m id kind nick result) := by
  unfold finishAuth
  dsimp only
  split
  · exact within_self s
  · split_ifs
    · simp only [within_noticeUser, within_self]
    · split
      · simp only [within_passwordIncorrect, within_self]
      · simp only [within_noticeAccountError, within_self]
      · exact within_finishIdentify ..
      · exact within_finishRegister ..
      · exact within_finishUnregister ..
      · exact within_grantOper s m (hmay _ rfl rfl)

/-! ### Events -/

/-- A command that a connection may give earns it what the command says, and nobody else
anything. -/
theorem within_command (m : Moment) (hgives : Gives s e id cmd msg) (hbefore : Within nothing s t)
    (hpassword : t.connectionPassword = s.connectionPassword) (hcfg : t.cfg = s.cfg) :
    Within (earned s e) t (t.command m id msg cmd) := by
  have hnamed : ∀ name, t.operNamed name = s.operNamed name := by
    intro name
    rw [operNamed, operNamed, hcfg]
  have hpasses : ∀ h : cmd = "NICK" ∨ cmd = "USER", Passes t id →
      (earned s e).mark .registered (.ip id) :=
    fun h hpass => .registered hgives h (.before hbefore hpassword hpass)
  have hjobs : ∀ j : Job, j.kind ≠ .oper → (earned s e).job j := fun _ h => .account h
  unfold command
  dsimp only
  split
  · refine within_cmdPass t msg fun given hgiven hpass => .passed hgives hgiven ?_
    rw [← hpassword]
    exact hpass
  · exact within_cmdNick t m msg (hpasses (.inl rfl))
  · exact within_cmdUser t m msg (hpasses (.inr rfl))
  · exact within_quitUser _ ((within_closeLink _).mpr (within_self t))
  · exact within_cmdJoin (Earns.member hgives) t m msg
  · exact within_cmdPart ..
  · exact within_cmdPrivmsg ..
  · exact within_cmdPrivmsg ..
  · exact within_cmdTopic ..
  · exact within_cmdMode ..
  · exact within_cmdAway ..
  · refine within_cmdOper t m msg (fun name password o hname hgiven ho hplain hsame => ?_)
      fun name password nick work hname hgiven hchecks => ?_
    · exact .oper hgives hname hgiven ((hnamed name).symm.trans ho) hplain hsame
    · refine .oper hgives hname hgiven ?_
      cases hchecks with
      | unknown => exact .unknown
      | known ho hhashed => exact .known ((hnamed name).symm.trans ho) hhashed
  · exact within_cmdCallsign ..
  · exact within_cmdRadio ..
  · exact within_cmdKick ..
  · exact within_cmdKill ..
  · exact within_requireOper t ((within_send _).mpr (within_self t))
  · exact within_cmdDropnick ..
  · exact within_cmdUnclaim ..
  · exact within_cmdKline ..
  · exact within_cmdUnkline ..
  · exact within_requireOper t ((within_send _).mpr (within_self t))
  · exact within_cmdPasswd ..
  · exact within_withPassword t m msg _ fun t user password =>
      within_registerWith hjobs t m user password
  · exact within_withPassword t m msg _ fun t user password =>
      within_verifyWith hjobs t m (by decide) user password
  · exact within_withPassword t m msg _ fun t user password =>
      within_verifyWith hjobs t m (by decide) user password
  · split
    · exact (within_mk ..).mpr (within_self t)
    · simp only [within_numeric, within_self]

theorem within_cmdRateOk {ok : Bool} (h : s.cmdRateOk m id cmd = (ok, t)) :
    Within G s t ∧ t.connectionPassword = s.connectionPassword := by
  obtain rfl := congrArg Prod.snd h
  unfold cmdRateOk
  split_ifs
  · exact ⟨within_self s, rfl⟩
  · exact ⟨(within_mk ..).mpr (within_self s), rfl⟩

theorem within_handleLine (s : Server) (m : Moment) (id : ℕ) (line : Text) :
    Within (earned s (m, .line id line)) s (s.handleLine m id line) := by
  unfold handleLine
  split
  · exact within_self s
  · rename_i msg hparse
    unfold handleClientMessage
    extract_lets uid cmd active
    split
    · exact within_self s
    · rename_i user hu
      have hactive : ∀ G, Within G s active :=
        fun G => within_modifyUser (fun _ => .of_same rfl) (within_self s)
      rcases hrate : active.cmdRateOk m id cmd with ⟨ok, t⟩
      have ht : ∀ G, Within G s t := fun G => (hactive G).trans (within_cmdRateOk hrate).1
      cases ok with
      | false => exact (within_noticeUser _).mpr (ht _)
      | true =>
        dsimp only
        split_ifs with hreg hspeaks
        · exact (within_numeric ..).mpr (ht _)
        · exact (within_numeric ..).mpr (ht _)
        · have hcfg : t.cfg = s.cfg := (steps_config (counted_steps (L := anything) hrate).1).1
          have hgives : Gives s (m, .line id line) id cmd msg := by
            refine ⟨line, user, rfl, hparse, rfl, hu, fun hcmd => ?_, by simpa using hspeaks⟩
            simpa [hcmd] using hreg
          have hpassword := (within_cmdRateOk (G := nothing) hrate).2
          exact (ht _).trans (within_command m hgives (ht nothing) hpassword hcfg)

theorem within_finishJob (s : Server) (m : Moment) (job : Job)
    (result : Except AccountError (Option Text)) :
    Within (earned s (m, .authFinished job result)) s (s.finishJob m job result) := by
  have hdone : Within (earned s (m, .authFinished job result)) s
    { s with jobs := s.jobs.erase job } :=
    ⟨fun _ v hv => .inr ⟨v, hv, .refl v⟩, fun _ hj => .inl (List.mem_of_mem_erase hj)⟩
  refine hdone.trans (within_finishAuth _ m fun v hv hkind => ?_)
  exact .verified (by rw [hv]) hkind

/-- An event gives nobody more than it can earn. -/
theorem within_next (reader : BeaconReader) (s : Server) (e : Moment × ServerRuns.Event) :
    Within (earned s e) s (s.next reader e) := by
  obtain ⟨m, e⟩ := e
  have hreaped : ∀ {G : Gain} {t : Server}, Within G s t → Within G s (t.reapEvictedPeers m) :=
    fun h => h.trans (within_reapEvictedPeers ..)
  cases e with
  | connected id host listenOnly =>
    have hmay : Connects (m, .connected id host listenOnly) (.ip id) :=
      ⟨id, host, listenOnly, rfl, rfl⟩
    exact hreaped (within_connect hmay ..)
  | line id line => exact hreaped (within_handleLine ..)
  | disconnected id reason => exact hreaped (within_quitUser _ (within_self s))
  | authFinished job result => exact hreaped (within_finishJob ..)
  | rf frame => exact hreaped (within_handleRfFrame ..)
  | tick => exact hreaped (within_tick ..)
  | shutdown => exact hreaped (within_shutdown ..)
  | written id => exact (within_mk ..).mpr (within_self s)
  | writerGone id => exact (within_mk ..).mpr (within_self s)
  | pump e => exact (within_perform _).mpr (within_self s)

/-! ### Runs -/

/-- It happened at some point of the run. -/
def Occurred (reader : BeaconReader) (s₀ : Server) (es : List (Moment × ServerRuns.Event))
    (P : Server → Moment × ServerRuns.Event → Prop) : Prop :=
  ∃ before e after, es = before ++ e :: after ∧ P (before.foldl (Server.next reader) s₀) e

/-- A connection asked to be made an operator. -/
def Asked (reader : BeaconReader) (s₀ : Server) (es : List (Moment × ServerRuns.Event)) (id : ℕ)
    (name password : Text) : Prop :=
  Occurred reader s₀ es fun s e => ∃ msg, Gives s e id "OPER" msg ∧ msg.param 0 = some name ∧
    msg.param 1 = some password

/-- It gave the connection password, as it was then, or when none was asked for. -/
def GavePassword (reader : BeaconReader) (s₀ : Server) (es : List (Moment × ServerRuns.Event))
    (id : ℕ) : Prop :=
  Occurred reader s₀ es fun s e => ∃ msg given, Gives s e id "PASS" msg ∧ msg.param 0 = some given ∧
    s.connectionPassword.all (· = given) = true

/-- It registered when no password was asked for, or after it had given it. -/
def CameIn (reader : BeaconReader) (s₀ : Server) (es : List (Moment × ServerRuns.Event)) (id : ℕ) :
    Prop :=
  ∃ before e after, es = before ++ e :: after ∧
    (∃ cmd msg, (cmd = "NICK" ∨ cmd = "USER") ∧
      Gives (before.foldl (Server.next reader) s₀) e id cmd msg) ∧
    ((before.foldl (Server.next reader) s₀).connectionPassword = none ∨
      GavePassword reader s₀ before id)

/-- The password is the operator's. -/
def Proves (verifies : Text → Text → Prop) (o : OperConfig) (password : Text) : Prop :=
  if o.hashed then verifies password o.password else o.password = password

/-- Every right goes back to a line of the run. -/
structure Accounted (verifies : Text → Text → Prop) (reader : BeaconReader) (s₀ : Server)
    (es : List (Moment × ServerRuns.Event)) (s : Server) : Prop where
  oper : ∀ uid u, s.user uid = some u → u.oper = true → ∃ id name password o, uid = .ip id ∧
    Asked reader s₀ es id name password ∧ s₀.operNamed name = some o ∧ Proves verifies o password
  jobs : ∀ j ∈ s.jobs, j.kind = .oper → ∃ name password, Asked reader s₀ es j.client name password ∧
    Checks s₀ name password j.work
  passed : ∀ id u, s.user (.ip id) = some u → u.passOk = true → GavePassword reader s₀ es id
  registered : ∀ id u, s.user (.ip id) = some u → u.registered = true → CameIn reader s₀ es id
  member : ∀ id u, s.user (.ip id) = some u → u.channels ≠ [] → u.registered = true

theorem Occurred.later {P : Server → Moment × ServerRuns.Event → Prop}
    (h : Occurred reader s₀ es P) : Occurred reader s₀ (es ++ [e]) P := by
  obtain ⟨before, x, after, rfl, hx⟩ := h
  exact ⟨before, x, after ++ [e], by simp, hx⟩

theorem Occurred.now {P : Server → Moment × ServerRuns.Event → Prop}
    (h : P (es.foldl (Server.next reader) s₀) e) : Occurred reader s₀ (es ++ [e]) P :=
  ⟨es, e, [], rfl, h⟩

theorem CameIn.later (h : CameIn reader s₀ es id) : CameIn reader s₀ (es ++ [e]) id := by
  obtain ⟨before, x, after, rfl, hx⟩ := h
  exact ⟨before, x, after ++ [e], by simp, hx⟩

theorem operNamed_congr (h : s.cfg = s₀.cfg) (name : Text) :
    s.operNamed name = s₀.operNamed name := by
  rw [operNamed, operNamed, h]

theorem Checks.congr {name password : Text} {work : Work} (h : s.cfg = s₀.cfg)
    (hchecks : Checks s name password work) : Checks s₀ name password work := by
  cases hchecks with
  | unknown => exact .unknown
  | known ho hhashed => exact .known ((operNamed_congr h name).symm.trans ho) hhashed

/-- A check that comes back well was one of the right password. -/
theorem Checks.proves {name password : Text} {work : Work} {v : Option Text}
    (hchecks : Checks s₀ name password work) (hpossible : Possible verifies work (.ok v)) :
    ∃ o, s₀.operNamed name = some o ∧ Proves verifies o password := by
  cases hchecks with
  | unknown => exact hpossible.elim
  | known ho hhashed =>
    refine ⟨_, ho, ?_⟩
    rw [Proves, if_pos hhashed]
    cases v with
    | none => exact hpossible
    | some hash => exact hpossible.elim

/-- Nobody is there at the start. -/
theorem accounted_initial (h : Initial s₀) : Accounted verifies reader s₀ [] s₀ := by
  have hnobody : ∀ uid, s₀.user uid = none := by
    obtain ⟨cfg, attached, tnc, accounts, unix, rfl⟩ := h
    intro uid
    change (configuredChannels cfg unix).users.get uid = none
    rw [(configuredChannels_vacant cfg unix).1]
    rfl
  have hnone : ∀ {uid u} {P : Prop}, s₀.user uid = some u → P := by
    intro uid u P hu
    rw [hnobody] at hu
    cases hu
  have hjobs : s₀.jobs = [] := by
    obtain ⟨cfg, attached, tnc, accounts, unix, rfl⟩ := h
    rfl
  refine ⟨fun _ _ hu => hnone hu, fun j hj => ?_, fun _ _ hu => hnone hu, fun _ _ hu => hnone hu,
    fun _ _ hu => hnone hu⟩
  rw [hjobs] at hj
  cases hj

/-- Whoever has a mark had it before, or has just earned it. -/
theorem marked_before (h : Within G s t) {v : User} (hv : t.user uid = some v) (mark : Mark)
    (hmark : mark.of uid v = true) :
    (∃ u, s.user uid = some u ∧ mark.of uid u = true) ∨ G.mark mark uid := by
  rcases h.users uid v hv with hnew | ⟨u, hu, hgrows⟩
  · exact .inr (hnew.marks mark hmark)
  · exact (hgrows.marks mark hmark).imp_left fun hold => ⟨u, hu, hold⟩

theorem accounted_next (hcfg : s.cfg = s₀.cfg) (hs : s = es.foldl (Server.next reader) s₀)
    (he : ServerRuns.Enabled verifies s e) (h : Accounted verifies reader s₀ es s) :
    Accounted verifies reader s₀ (es ++ [e]) (s.next reader e) := by
  have hwithin := within_next reader s e
  have hnow : ∀ {P : Server → Moment × ServerRuns.Event → Prop}, P s e →
      Occurred reader s₀ (es ++ [e]) P := fun hp => .now (hs ▸ hp)
  refine ⟨fun uid v hv hoper => ?_, fun j hj hkind => ?_, fun id v hv hpassed => ?_,
    fun id v hv hreg => ?_, fun id v hv hmember => ?_⟩
  · rcases marked_before hwithin hv .oper hoper with ⟨u, hu, hold⟩ | hearned
    · obtain ⟨id, name, password, o, huid, hasked, ho⟩ := h.oper uid u hu hold
      exact ⟨id, name, password, o, huid, hasked.later, ho⟩
    · cases hearned with
      | @oper id msg name password o hgives hname hgiven ho hplain hsame =>
        refine ⟨id, name, password, o, rfl, hnow ⟨msg, hgives, hname, hgiven⟩,
          (operNamed_congr hcfg name).symm.trans ho, ?_⟩
        rw [Proves, if_neg (by simp [hplain])]
        exact hsame
      | @verified job v hfinished hkind =>
        have hback : job ∈ s.jobs ∧ Possible verifies job.work (.ok v) := by
          rwa [ServerRuns.Enabled, hfinished] at he
        obtain ⟨name, password, hasked, hchecks⟩ := h.jobs job hback.1 hkind
        obtain ⟨o, ho, hproves⟩ := hchecks.proves hback.2
        exact ⟨job.client, name, password, o, rfl, hasked.later, ho, hproves⟩
  · rcases hwithin.jobs j hj with hold | hstarted
    · obtain ⟨name, password, hasked, hchecks⟩ := h.jobs j hold hkind
      exact ⟨name, password, hasked.later, hchecks⟩
    · cases hstarted with
      | account hother => exact absurd hkind hother
      | @oper id msg name password nick work hgives hname hgiven hchecks =>
        exact ⟨name, password, hnow ⟨msg, hgives, hname, hgiven⟩, hchecks.congr hcfg⟩
  · rcases marked_before hwithin hv .passed hpassed with ⟨u, hu, hold⟩ | hearned
    · exact (h.passed id u hu hold).later
    · cases hearned with
      | @passed id msg given hgives hgiven hpass => exact hnow ⟨msg, given, hgives, hgiven, hpass⟩
  · rcases marked_before hwithin hv .registered hreg with ⟨u, hu, hold⟩ | hearned
    · exact (h.registered id u hu hold).later
    · cases hearned with
      | @registered id cmd msg hgives hcmd hpasses =>
        refine ⟨es, e, [], rfl, ⟨cmd, msg, hcmd, hs ▸ hgives⟩, ?_⟩
        rw [← hs]
        refine hpasses.imp_right fun hpassed => ?_
        obtain ⟨u, hu, hpass⟩ := (Option.any_eq_true _ _).mp hpassed
        exact h.passed id u hu hpass
  · have hmark : Mark.member.of (.ip id) v = true := by simpa [Mark.of] using hmember
    -- whoever joins is there already, and registered
    have hjoins : (earned s e).mark .member (.ip id) →
        ∃ line u, e.2 = .line id line ∧ s.user (.ip id) = some u ∧ u.registered = true := by
      rintro ⟨-⟩
      rename_i hgives
      obtain ⟨line, u, hline, -, -, hu, hreg, -⟩ := hgives
      exact ⟨line, u, hline, hu, hreg rfl⟩
    rcases hwithin.users _ v hv with hnew | ⟨u, hu, hgrows⟩
    · obtain ⟨line, u, hline, -⟩ := hjoins (hnew.marks .member hmark)
      obtain ⟨_, _, _, hconnected, -⟩ := hnew.enters.resolve_left Bool.false_ne_true
      rw [hline] at hconnected
      cases hconnected
    · refine hgrows.registered ?_
      rcases hgrows.marks .member hmark with hold | hearned
      · exact h.member id u hu (by simpa [Mark.of] using hold)
      · obtain ⟨-, w, -, hw, hreg⟩ := hjoins hearned
        obtain rfl := Option.some.inj (hw.symm.trans hu)
        exact hreg

theorem accounted_run (hstart : Initial s₀)
    (hrun : Runs everyStep (ServerRuns.Enabled verifies) (Server.next reader) s₀ es) :
    Accounted verifies reader s₀ es (es.foldl (Server.next reader) s₀) := by
  induction es using List.reverseRecOn with
  | nil => exact accounted_initial hstart
  | append_singleton es e ih =>
    obtain ⟨hbefore, -, he, -⟩ := runs_append.mp hrun
    have hcfg := AprsAnswers.run_cfg (initial_grounded hstart) hbefore
    rw [List.foldl_append]
    exact accounted_next hcfg rfl he (ih hbefore)

/-- In every run, every control operator is a client who, registered and not bound to listen, sent
an `OPER` with the name of a configured operator and that operator's own password. -/
theorem operators_gave_the_password {u : User} (hstart : Initial s₀)
    (hrun : Runs everyStep (ServerRuns.Enabled verifies) (Server.next reader) s₀ es)
    (hu : (es.foldl (Server.next reader) s₀).user uid = some u) (hoper : u.oper = true) :
    ∃ id name password o, uid = .ip id ∧ Asked reader s₀ es id name password ∧
      s₀.operNamed name = some o ∧ Proves verifies o password :=
  (accounted_run hstart hrun).oper uid u hu hoper

/-- A server that asks for a password, and somebody who has it. -/
def guarded : Server := .new { Small.config with password := some "letmein" } true .default .empty 0

def visit : List ServerRuns.Event :=
  [.connected 1 "10.0.0.1" false, .line 1 "PASS letmein", .line 1 "NICK anna",
    .line 1 "USER u 0 * :u", .line 1 "OPER root secret", .line 1 "JOIN #rf"]

def visited : Server := (Small.seconds visit).foldl (Server.next Small.noBeacon) guarded

theorem operators_gave_the_password_root :
    ∃ id name password o, UserId.ip 1 = .ip id ∧
      Asked Small.noBeacon guarded (Small.seconds visit) id name password ∧
      guarded.operNamed name = some o ∧ Proves Eq o password := by
  have hstart : Initial guarded := ⟨_, true, .default, .empty, 0, rfl⟩
  have hruns : Runs everyStep (ServerRuns.Enabled Eq) (Server.next Small.noBeacon) guarded
      (Small.seconds visit) := by decide +kernel
  have hoper : (visited.user (.ip 1)).any User.oper = true := by decide +kernel
  obtain ⟨u, hu, hoper⟩ := (Option.any_eq_true _ _).mp hoper
  exact operators_gave_the_password hstart hruns hu hoper

/-- In every run, every client who is registered came in by a `NICK` or `USER` line, when no
connection password was asked for or after it had given the password; and whoever is in a channel is
a station or a registered client. -/
theorem members_came_in (hstart : Initial s₀)
    (hrun : Runs everyStep (ServerRuns.Enabled verifies) (Server.next reader) s₀ es) :
    (∀ id u, (es.foldl (Server.next reader) s₀).user (.ip id) = some u → u.registered = true →
      CameIn reader s₀ es id) ∧
    ∀ k c id, (es.foldl (Server.next reader) s₀).state.channels.get k = some c →
      c.isMember (.ip id) = true →
      ∃ u, (es.foldl (Server.next reader) s₀).user (.ip id) = some u ∧ u.registered = true ∧
        CameIn reader s₀ es id := by
  have haccounted := accounted_run hstart hrun
  refine ⟨haccounted.registered, fun k c id hc hmember => ?_⟩
  have hlinked := (ChannelStatus.reachable_linked ((Reachable.initial hstart).run hrun)).2
  obtain ⟨u, hu, hk⟩ := (hlinked.channels (.ip id) k).mpr ⟨c, hc, hmember⟩
  have hreg := haccounted.member id u hu (List.ne_nil_of_mem hk)
  exact ⟨u, hu, hreg, haccounted.registered id u hu hreg⟩

theorem members_came_in_anna : ∃ u, visited.user (.ip 1) = some u ∧ u.registered = true ∧
    CameIn Small.noBeacon guarded (Small.seconds visit) 1 := by
  have hstart : Initial guarded := ⟨_, true, .default, .empty, 0, rfl⟩
  have hruns : Runs everyStep (ServerRuns.Enabled Eq) (Server.next Small.noBeacon) guarded
      (Small.seconds visit) := by decide +kernel
  have hmember : (visited.state.channels.get "#rf").any (·.isMember (.ip 1)) = true := by
    decide +kernel
  obtain ⟨c, hc, hmember⟩ := (Option.any_eq_true _ _).mp hmember
  exact (members_came_in hstart hruns).2 "#rf" c 1 hc hmember

end EarnedAccess
