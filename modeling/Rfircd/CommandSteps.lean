import Rfircd.AccessSteps

/-! The commands of Internet clients, as steps of the server. -/
namespace ServerSteps

open Basics KeyedTable MessageText HostKey IrcMessage IrcState HeldMail AprsCodec AirTrace AirPolicy
open AircSession RadioGateway AirScreen Accounts ServerOutput ServerCore
open ServerOutput.Outlet ServerCore.Server

variable {L : Licence} {s : Server}

/-! ### Operators -/

theorem cmdKill_steps (s : Server) (m : Moment) (uid : UserId) (msg : Message) :
    Steps L s (s.cmdKill m uid msg) := by
  refine requireOper_steps s uid ?_
  split
  · exact numeric_steps ..
  · split
    · exact numeric_steps ..
    · exact (closeLink_steps ..).trans (quitUser_steps ..)

theorem settings_steps (s : Server) (password : Option Text) (bans : List Text) (failures : ℕ) :
    Steps L s { s with
      connectionPassword := password
      admissionBans := bans
      persistFailSeen := failures } :=
  .single .settings

/-- Bans are no accounts. -/
theorem bans_steps (s : Server) {a : Store} (h : a.nicks = s.accounts.nicks) (bans : List Text) :
    Steps L s { s with accounts := a, admissionBans := bans } := by
  have hsame : Extends s.accounts a := by
    intro nick x hx
    refine ⟨x, ?_, rfl⟩
    rw [Store.get, h]
    exact hx
  have hsettings := settings_steps (L := L) { s with accounts := a } s.connectionPassword bans
    s.persistFailSeen
  exact (accounts_steps s hsame).trans hsettings

theorem banIp_nicks (a : Store) (host : Text) : (a.banIp host).2.nicks = a.nicks := by
  unfold Store.banIp
  dsimp only
  split_ifs <;> rfl

theorem unbanIp_nicks (a : Store) (host : Text) : (a.unbanIp host).2.nicks = a.nicks := by
  unfold Store.unbanIp
  split_ifs <;> rfl

theorem closeAll_steps (s : Server) (m : Moment) (victims : List User) (line reason : Text) :
    Steps L s (victims.foldl (fun s u => (s.closeLink u.id line).quitUser m u.id reason) s) :=
  foldl_steps (fun _ _ => (closeLink_steps ..).trans (quitUser_steps ..)) s victims

theorem cmdKline_steps (s : Server) (m : Moment) (uid : UserId) (msg : Message) :
    Steps L s (s.cmdKline m uid msg) := by
  refine requireOper_steps s uid ?_
  split
  · exact numeric_steps ..
  · extract_lets key banned victims closed
    split_ifs
    · exact noticeUser_steps ..
    · have hbanned : Steps L s banned := bans_steps s (banIp_nicks ..) _
      exact (hbanned.trans (closeAll_steps ..)).trans (noticeUser_steps ..)

theorem cmdUnkline_steps (s : Server) (m : Moment) (uid : UserId) (msg : Message) :
    Steps L s (s.cmdUnkline m uid msg) := by
  refine requireOper_steps s uid ?_
  split
  · exact numeric_steps ..
  · rename_i host _
    have hnicks := unbanIp_nicks s.accounts host
    split
    · rename_i hunban
      rw [hunban] at hnicks
      exact (bans_steps s hnicks _).trans (noticeUser_steps ..)
    · exact noticeUser_steps ..

theorem cmdPasswd_steps (s : Server) (m : Moment) (uid : UserId) (msg : Message) :
    Steps L s (s.cmdPasswd m uid msg) := by
  refine requireOper_steps s uid ?_
  split
  · exact numeric_steps ..
  · exact numeric_steps ..
  · split_ifs
    · exact (settings_steps s none s.admissionBans s.persistFailSeen).trans (noticeUser_steps ..)
    · exact (settings_steps s _ s.admissionBans s.persistFailSeen).trans (noticeUser_steps ..)

/-! ### The radio -/

theorem radioKick_steps (s : Server) (m : Moment) (uid : UserId) (msg : Message) :
    Steps L s (s.radioKick m uid msg) := by
  unfold radioKick
  split
  · exact noticeUser_steps ..
  · exact ((perform_steps _ _ (by trivial)).trans (quitUser_steps ..)).trans (noticeUser_steps ..)

theorem radioGrant_steps (s : Server) (m : Moment) (uid : UserId) (msg : Message) (grant : Bool) :
    Steps L s (s.radioGrant m uid msg grant) := by
  unfold radioGrant
  split
  · exact noticeUser_steps ..
  · exact grantRfTx_steps ..

/-- A question to the radio is answered with notices. -/
theorem noticeAll_steps (o : Outlet) (st : State) (m : Moment) (uid : UserId) (texts : List Text) :
    OutletSteps L.toOutletLicence o (o.noticeAll st m uid texts) := by
  unfold noticeAll
  exact Outlet.foldl_steps (fun o text => Outlet.noticeUser_steps ..) o texts

theorem radioDuty_steps (o : Outlet) (st : State) (m : Moment) (uid : UserId) :
    OutletSteps L.toOutletLicence o (o.radioDuty st m uid) := by
  unfold radioDuty
  split_ifs
  · exact Outlet.noticeUser_steps ..
  · exact noticeAll_steps ..

theorem radioCommand_steps (s : Server) (m : Moment) (uid : UserId) (msg : Message) (sub : String) :
    Steps L s (s.radioCommand m uid msg sub) := by
  unfold radioCommand
  split
  · exact send_steps (radioOff_steps ..)
  · exact send_steps (radioOn_steps ..)
  · exact send_steps (radioId_steps ..)
  · exact send_steps (noticeAll_steps ..)
  · exact send_steps (radioDuty_steps ..)
  · exact send_steps (noticeAll_steps ..)
  · exact send_steps (radioLimit_steps ..)
  · exact send_steps (noticeAll_steps ..)
  · exact radioKick_steps ..
  · exact radioGrant_steps ..
  · exact radioGrant_steps ..
  · exact noticeUser_steps ..

theorem cmdRadio_steps (s : Server) (m : Moment) (id : ℕ) (msg : Message) :
    Steps L s (s.cmdRadio m (.ip id) msg) := by
  unfold cmdRadio
  extract_lets sub
  split_ifs
  · exact send_core_steps (radioStatus_core ..)
  · exact requireOper_steps _ _ (radioCommand_steps ..)

/-! ### The dispatcher -/

theorem cmdQuit_steps (s : Server) (m : Moment) (uid : UserId) (msg : Message) :
    Steps L s (s.cmdQuit m uid msg) :=
  (closeLink_steps ..).trans (quitUser_steps ..)

theorem cmdAway_steps (s : Server) (uid : UserId) (msg : Message) :
    Steps L s (s.cmdAway uid msg) := by
  unfold cmdAway
  extract_lets away t
  have ht : Steps L s t := touch_steps s uid fun _ => ⟨rfl, rfl, rfl, rfl, rfl, rfl, rfl⟩
  split_ifs
  · exact ht.trans (numeric_steps ..)
  · exact ht.trans (numeric_steps ..)

theorem query_core {o o' : Outlet} {st : State} {m : Moment} {id : ℕ} {msg : Message} {cmd : String}
    (h : query o st m id msg cmd = some o') : o'.core = o.core := by
  unfold query at h
  dsimp only at h
  split at h
  · exact Option.some.inj h ▸ cmdCap_core ..
  · exact Option.some.inj h ▸ cmdPing_core ..
  · exact Option.some.inj h ▸ rfl
  · exact Option.some.inj h ▸ cmdNames_core ..
  · exact Option.some.inj h ▸ cmdList_core ..
  · exact Option.some.inj h ▸ cmdWho_core ..
  · exact Option.some.inj h ▸ cmdWhois_core ..
  · exact Option.some.inj h ▸ cmdWhowas_core ..
  · exact Option.some.inj h ▸ cmdIson_core ..
  · exact Option.some.inj h ▸ cmdUserhost_core ..
  · exact Option.some.inj h ▸ numeric_core ..
  · exact Option.some.inj h ▸ numeric_core ..
  · exact Option.some.inj h ▸ cmdAdmin_core ..
  · exact Option.some.inj h ▸ cmdInfo_core ..
  · exact Option.some.inj h ▸ cmdHelp_core ..
  · exact Option.some.inj h ▸ cmdStats_core ..
  · exact Option.some.inj h ▸ cmdLinks_core ..
  · exact Option.some.inj h ▸ sendMotd_core ..
  · exact Option.some.inj h ▸ sendLusers_core ..
  · exact Option.some.inj h ▸ cmdInvite_core ..
  · cases h

/-- What the commands of a connection ask of the server before them. -/
structure Ready (s : Server) (id : ℕ) (cmd : String) : Prop where
  standing : Standing s
  named : Named s
  registered : handshakeCommand cmd = false → Registered s (.ip id)

/-- What a command may change beyond what all of them may. -/
inductive Alters (id : ℕ) : String → Change → Prop where
  | modes : Alters id "MODE" .modes
  | joins : Alters id "JOIN" .creates
  | renames : Alters id "NICK" (.yields (.ip id))
  | drops {uid} : Alters id "DROPNICK" (.yields uid)

/-- The licence for a command. -/
structure CommandLicence (L : Licence) (id : ℕ) (cmd : String) : Prop where
  fair : Fair L
  drop : ∀ nick, L.drop nick
  changes : ∀ c, Alters id cmd c → L.changes c

theorem command_steps (m : Moment) (id : ℕ) (msg : Message) {cmd : String}
    (hL : CommandLicence L id cmd) (h : Ready s id cmd) : Steps L s (s.command m id msg cmd) := by
  unfold command
  dsimp only
  split
  · exact cmdPass_steps ..
  · exact cmdNick_steps m id msg (hL.changes _ .renames) h.standing
  · exact cmdUser_steps ..
  · exact cmdQuit_steps ..
  · exact cmdJoin_steps hL.fair (hL.changes _ .joins) ..
  · exact cmdPart_steps ..
  · exact cmdPrivmsg_steps hL.fair h.named m rfl ..
  · exact cmdPrivmsg_steps hL.fair h.named m rfl ..
  · exact cmdTopic_steps hL.fair ..
  · exact cmdMode_steps (hL.changes _ .modes) ..
  · exact cmdAway_steps ..
  · exact cmdOper_steps (h.registered rfl) m msg
  · exact cmdCallsign_steps ..
  · exact cmdRadio_steps ..
  · exact cmdKick_steps ..
  · exact cmdKill_steps ..
  · exact requireOper_steps _ _ (send_steps (noticeAll_steps ..))
  · exact cmdDropnick_steps h.standing m _ msg (fun _ => hL.changes _ .drops) hL.drop
  · exact cmdUnclaim_steps ..
  · exact cmdKline_steps ..
  · exact cmdUnkline_steps ..
  · exact requireOper_steps _ _ (send_steps (noticeAll_steps ..))
  · exact cmdPasswd_steps ..
  · exact cmdRegister_steps (h.registered rfl) m msg
  · exact cmdIdentify_steps (h.registered rfl) m msg
  · exact cmdUnregister_steps (h.registered rfl) m msg
  · split
    · rename_i hquery
      exact outlet_steps (core_steps (query_core hquery))
    · exact numeric_steps ..

theorem cmdRateOk_steps {t : Server} {m : Moment} {id : ℕ} {cmd : String} {ok : Bool}
    (h : s.cmdRateOk m id cmd = (ok, t)) : Steps L s t ∧ t.state = s.state := by
  obtain rfl := congrArg Prod.snd h
  unfold cmdRateOk
  split_ifs
  · exact ⟨.refl, rfl⟩
  · exact ⟨outlet_steps (core_steps rfl), rfl⟩

/-- A command is refused, or the user may give it and the limit has counted it. -/
theorem handleClientMessage_cases (s : Server) (m : Moment) (id : ℕ) (msg : Message) :
    (∀ L : Licence, Steps L s (s.handleClientMessage m id msg)) ∨ ∃ u t,
      s.user (.ip id) = some u ∧
      (handshakeCommand (String.ofList msg.command) = false → u.registered = true) ∧
      (u.listenOnly && !listenOnlyCommand (String.ofList msg.command) msg) = false ∧
      (s.modifyUser (.ip id) fun u => { u with lastActive := m.now }).cmdRateOk m id
        (String.ofList msg.command) = (true, t) ∧
      s.handleClientMessage m id msg = t.command m id msg (String.ofList msg.command) := by
  unfold handleClientMessage
  extract_lets uid cmd active
  cases hu : s.user uid with
  | none => exact .inl fun L => .refl
  | some user =>
    have hactive : ∀ L : Licence, Steps L s active :=
      fun L => touch_steps s uid fun _ => ⟨rfl, rfl, rfl, rfl, rfl, rfl, rfl⟩
    rcases hrate : active.cmdRateOk m id cmd with ⟨ok, t⟩
    have ht : ∀ L : Licence, Steps L s t := fun L => (hactive L).trans (cmdRateOk_steps hrate).1
    cases ok with
    | false => exact .inl fun L => (ht L).trans (noticeUser_steps ..)
    | true =>
      dsimp only
      split_ifs with hreg hspeaks
      · exact .inl fun L => (ht L).trans (numeric_steps ..)
      · exact .inl fun L => (ht L).trans (numeric_steps ..)
      · refine .inr ⟨user, t, rfl, fun hcmd => ?_, by simpa using hspeaks, rfl, rfl⟩
        rw [show handshakeCommand cmd = false from hcmd] at hreg
        simpa using hreg

/-- The server when a command is carried out. -/
theorem counted_steps {m : Moment} {id : ℕ} {cmd : String} {ok : Bool}
    (h : (s.modifyUser (.ip id) fun u => { u with lastActive := m.now }).cmdRateOk m id cmd = (ok, t)) :
    Steps L s t ∧ t.state = (s.modifyUser (.ip id) fun u => { u with lastActive := m.now }).state := by
  obtain ⟨hsteps, hstate⟩ := cmdRateOk_steps (L := L) h
  have hactive : Steps L s (s.modifyUser (.ip id) fun u => { u with lastActive := m.now }) :=
    touch_steps s (.ip id) fun _ => ⟨rfl, rfl, rfl, rfl, rfl, rfl, rfl⟩
  exact ⟨hactive.trans hsteps, hstate⟩

theorem handleClientMessage_steps (m : Moment) (id : ℕ) (msg : Message)
    (hL : CommandLicence L id (String.ofList msg.command)) (hs : Standing s) (hn : Named s) :
    Steps L s (s.handleClientMessage m id msg) := by
  rcases handleClientMessage_cases s m id msg with hrefused | ⟨u, t, hu, hreg, -, hrate, heq⟩
  · exact hrefused L
  · obtain ⟨ht, hstate⟩ := counted_steps (L := L) hrate
    rw [heq]
    refine ht.trans (command_steps m id msg hL ⟨steps_standing ht hs, steps_named ht hn, fun hcmd => ?_⟩)
    have huser := State.user_modifyUser s.state (.ip id) (fun u => { u with lastActive := m.now }) (.ip id)
    rw [if_pos rfl] at huser
    refine ⟨{ u with lastActive := m.now }, ?_, hreg hcmd⟩
    rw [Server.user, hstate]
    exact huser.trans (congrArg _ hu)

end ServerSteps
