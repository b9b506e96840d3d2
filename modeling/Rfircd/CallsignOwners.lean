import Rfircd.CallsignClaims

/-! A callsign belongs to one user.
Every event leaves callsigns alone, binds one or releases one, and no order of them makes two users
share one. A store is only ever what an earlier run has written. -/
namespace CallsignOwners

open Basics KeyedTable MessageText HostKey IrcMessage IrcState RadioGateway AirPolicy AirScreen
open Accounts ServerOutput ServerCore ServerCore.Server Bridge ServerSteps ServerInvariants
open LateResults CallsignCascade Ax25Codec CallsignRecords CallsignFrames CallsignCommands
open CallsignEvents CallsignClaims TransitionSystem
open ServerRuns (everyStep)

variable {s t : Server} {m : Moment} {uid : UserId} {id : ℕ} {msg : Message} {cmd : String}
  {reader : BeaconReader} {verifies : Text → Text → Prop} {e : Moment × ServerRuns.Event}
  {guard : Server → Moment × ServerRuns.Event → Prop}

/-! ### Events -/

/-- The commands that give a callsign to somebody or take one away. -/
def Binds (cmd : String) : Prop := cmd = "CALLSIGN" ∨ cmd = "UNCLAIM" ∨ cmd = "DROPNICK"

theorem calm_query (s : Server) (m : Moment) (id : ℕ) (msg : Message) (cmd : String) :
    Calm s (match query s.outlet s.state m id msg cmd with
      | some o => { s with outlet := o }
      | none => s.numeric (.ip id) "421" [msg.command, "Unknown command"]) := by
  split
  · exact (calm_mk ..).mpr (calm_self s)
  · exact (calm_numeric ..).mpr (calm_self s)

theorem calm_command (s : Server) (m : Moment) (id : ℕ) (msg : Message) (hcmd : ¬ Binds cmd) :
    Calm s (s.command m id msg cmd) := by
  unfold command
  extract_lets uid
  split
  · exact calm_cmdPass ..
  · exact calm_cmdNick ..
  · exact calm_cmdUser ..
  · exact calm_quitUser _ ((calm_closeLink ..).mpr (calm_self s))
  · exact calm_cmdJoin ..
  · exact calm_cmdPart ..
  · exact calm_cmdPrivmsg ..
  · exact calm_cmdPrivmsg ..
  · exact calm_cmdTopic ..
  · exact calm_cmdMode ..
  · exact calm_cmdAway ..
  · exact calm_cmdOper ..
  · exact absurd (.inl rfl) hcmd
  · exact calm_cmdRadio ..
  · exact calm_cmdKick ..
  · exact calm_cmdKill ..
  · exact calm_requireOper s ((calm_send _).mpr (calm_self s))
  · exact absurd (.inr (.inr rfl)) hcmd
  · exact absurd (.inr (.inl rfl)) hcmd
  · exact calm_cmdKline ..
  · exact calm_cmdUnkline ..
  · exact calm_requireOper s ((calm_send _).mpr (calm_self s))
  · exact calm_cmdPasswd ..
  · exact calm_withPassword s m msg _ fun t user password => calm_registerWith t m user password
  · exact calm_withPassword s m msg _ fun t user password => calm_verifyWith t m .identify user password
  · exact calm_withPassword s m msg _ fun t user password =>
      calm_verifyWith t m .unregister user password
  · exact calm_query ..

/-- The server when a command is carried out. -/
structure Counted (s : Server) (m : Moment) (id : ℕ) (t : Server) : Prop where
  accounts : t.accounts = s.accounts
  state : t.state = (s.modifyUser (.ip id) fun u => { u with lastActive := m.now }).state
  steps : Steps anything s t

theorem counted (h : (s.modifyUser (.ip id) fun u => { u with lastActive := m.now }).cmdRateOk m id
    cmd = (true, t)) : Counted s m id t := by
  obtain ⟨hsteps, hstate⟩ := counted_steps h
  refine ⟨?_, hstate, hsteps⟩
  obtain rfl := congrArg Prod.snd h
  unfold cmdRateOk
  split_ifs <;> rfl

theorem Counted.calm (h : Counted s m id t) : Calm s t := by
  have hactive : Calm s (s.modifyUser (.ip id) fun u => { u with lastActive := m.now }) :=
    calm_modifyUser (fun _ => ⟨rfl, rfl, fun hi => ⟨hi, rfl⟩⟩) (calm_self s)
  have husers : t.state.users =
      (s.modifyUser (.ip id) fun u => { u with lastActive := m.now }).state.users := by rw [h.state]
  have haccounts : t.accounts =
      (s.modifyUser (.ip id) fun u => { u with lastActive := m.now }).accounts := h.accounts
  exact (calm_congr haccounts husers).mpr hactive

theorem calm_cmdRateOk {ok : Bool} (h : s.cmdRateOk m id cmd = (ok, t)) : Calm s t := by
  obtain rfl := congrArg Prod.snd h
  unfold cmdRateOk
  split_ifs
  · exact calm_self s
  · exact (calm_mk ..).mpr (calm_self s)

/-- A command that no check turns down before it is carried out. -/
def Heeded (s : Server) (m : Moment) (id : ℕ) (msg : Message) : Prop :=
  let cmd := String.ofList msg.command
  ∃ u, s.user (.ip id) = some u ∧ (u.registered = true ∨ handshakeCommand cmd = true) ∧
    (u.listenOnly = false ∨ listenOnlyCommand cmd msg = true) ∧
    ((s.modifyUser (.ip id) fun u => { u with lastActive := m.now }).cmdRateOk m id cmd).1 = true

/-- A message leaves callsigns alone, or is a command about them. -/
theorem handleClientMessage_calm (s : Server) (m : Moment) (id : ℕ) (msg : Message) :
    Calm s (s.handleClientMessage m id msg) ∨ ∃ t, Counted s m id t ∧ Heeded s m id msg ∧
      Binds (String.ofList msg.command) ∧
      s.handleClientMessage m id msg = t.command m id msg (String.ofList msg.command) := by
  unfold handleClientMessage
  extract_lets uid cmd active
  have hactive : Calm s active :=
    calm_modifyUser (fun _ => ⟨rfl, rfl, fun hi => ⟨hi, rfl⟩⟩) (calm_self s)
  cases huser : s.user uid with
  | none => exact .inl (calm_self s)
  | some user =>
    rcases hrate : active.cmdRateOk m id cmd with ⟨ok, t⟩
    have ht : Calm s t := hactive.trans (calm_cmdRateOk hrate)
    cases ok with
    | false => exact .inl ((calm_noticeUser _).mpr ht)
    | true =>
      dsimp only
      split_ifs with hregistered hspeaks
      · exact .inl ((calm_numeric ..).mpr ht)
      · exact .inl ((calm_numeric ..).mpr ht)
      · by_cases hcmd : Binds cmd
        · have hallowed : (active.cmdRateOk m id cmd).1 = true := congrArg Prod.fst hrate
          refine .inr ⟨t, counted hrate, ⟨user, huser, ?_, ?_, hallowed⟩, hcmd, rfl⟩
          · cases hreg : user.registered <;> simp_all [cmd]
          · cases hlisten : user.listenOnly <;> simp_all [cmd]
        · exact .inl (ht.trans (calm_command t m id msg hcmd))

/-- The events that may bind a callsign or release one. -/
inductive Binding (s : Server) (m : Moment) : ServerRuns.Event → Server → Prop
  | command {id line msg t} (hparse : Message.parse line = some msg) (hcounted : Counted s m id t)
      (hheeded : Heeded s m id msg) (hcmd : Binds (String.ofList msg.command)) :
      Binding s m (.line id line) (t.command m id msg (String.ofList msg.command))
  | result {job result} :
      Binding s m (.authFinished job result) (s.finishJob m job result)

/-- Whatever happens, callsigns are left alone but by what binds or releases them. -/
theorem handled_calm (reader : BeaconReader) (hs : Standing s) (e : Moment × ServerRuns.Event) :
    Calm s (handled reader s e) ∨ Binding s e.1 e.2 (handled reader s e) := by
  obtain ⟨m, e⟩ := e
  cases e with
  | connected id host listenOnly => exact .inl (calm_connect ..)
  | line id line =>
    unfold handled handleLine
    dsimp only
    split
    · exact .inl (calm_self s)
    · rename_i msg hmsg
      rcases handleClientMessage_calm s m id msg with
        hcalm | ⟨t, hcounted, hheeded, hcmd, heq⟩
      · exact .inl hcalm
      · rw [heq]
        exact .inr (.command hmsg hcounted hheeded hcmd)
  | disconnected id reason => exact .inl (calm_quitUser _ (calm_self s))
  | authFinished job result => exact .inr .result
  | rf frame => exact .inl (calm_handleRfFrame ..)
  | tick => exact .inl (calm_tick m hs)
  | shutdown => exact .inl (calm_shutdown s m)
  | written id => exact .inl ((calm_mk ..).mpr (calm_self s))
  | writerGone id => exact .inl ((calm_mk ..).mpr (calm_self s))
  | pump e => exact .inl ((calm_perform _).mpr (calm_self s))

theorem binding_claimed {e : ServerRuns.Event} (hs : Standing s) (h : Claimed [] s)
    (he : ServerRuns.Enabled verifies s (m, e)) (hbinding : Binding s m e t) : Claimed [] t := by
  cases hbinding with
  | @command id line msg t hparse hcounted hheeded hcmd =>
    have ht : Standing t := steps_standing hcounted.steps hs
    have hclaimed : Claimed [] t := h.of_calm (known_of_standing hs) hcounted.calm
    rcases hcmd with hcmd | hcmd | hcmd
    · rw [hcmd]
      exact cmdCallsign_claimed ht hclaimed rfl
    · rw [hcmd]
      exact cmdUnclaim_claimed ht hclaimed
    · rw [hcmd]
      exact cmdDropnick_claimed ht hclaimed
  | @result job result =>
    have hdone : Step anything s { s with jobs := s.jobs.erase job } := .done
    have hstanding := steps_standing (.single hdone) hs
    have hclaimed : Claimed [] { s with jobs := s.jobs.erase job } := h.of_same rfl rfl
    exact finishAuth_claimed hstanding hclaimed (hs.jobs job he.1).2 job.kind job.nick result

theorem handled_standing (hs : Grounded s) (he : ServerRuns.Enabled verifies s e) :
    Standing (handled reader s e) := by
  have hsteps : Steps anything s (handled reader s e) :=
    handled_steps hs.standing hs.named he (fun _ => trivial)
      (lenient_licensed anything_lenient hs.standing he (fun _ _ _ _ _ => trivial) fun _ _ => trivial)
  exact steps_standing hsteps hs.standing

theorem handled_claimed (hs : Grounded s) (h : Claimed [] s)
    (he : ServerRuns.Enabled verifies s e) : Claimed [] (handled reader s e) := by
  rcases handled_calm reader hs.standing e with hcalm | hbinding
  · exact h.of_calm (known_of_standing hs.standing) hcalm
  · exact binding_claimed hs.standing h he hbinding

/-- One step: nobody comes to share a callsign. -/
theorem next_claimed (hs : Grounded s) (h : Claimed [] s) (he : ServerRuns.Enabled verifies s e) :
    Claimed [] (s.next reader e) := by
  have hclaimed : Claimed [] (handled reader s e) := handled_claimed hs h he
  rw [next_eq]
  split_ifs
  · exact hclaimed.of_calm (known_of_standing (handled_standing hs he)) (calm_reapEvictedPeers ..)
  · exact hclaimed

/-! ### Runs -/

/-- The servers that come to be, one run after another: the store that a server starts with is the one
that an earlier run has left. -/
inductive Serves (reader : BeaconReader) (verifies : Text → Text → Prop)
    (guard : Server → Moment × ServerRuns.Event → Prop) : Server → Prop
  | fresh (cfg : ServerConfig) (attached : Bool) (tnc : TransmitPump.TncConfig) (unix : ℕ) :
      Serves reader verifies guard (Server.new cfg attached tnc .empty unix)
  | restarted {s : Server} (h : Serves reader verifies guard s) (cfg : ServerConfig)
      (attached : Bool) (tnc : TransmitPump.TncConfig) (unix : ℕ) :
      Serves reader verifies guard (Server.new cfg attached tnc s.accounts unix)
  | next {s : Server} {e : Moment × ServerRuns.Event} (h : Serves reader verifies guard s)
      (hguard : guard s e) (he : ServerRuns.Enabled verifies s e) :
      Serves reader verifies guard (s.next reader e)

/-- A server starts without users. -/
theorem new_claimed (cfg : ServerConfig) (attached : Bool) (tnc : TransmitPump.TncConfig)
    {a : Store} (ha : Orderly a) (unix : ℕ) : Claimed [] (Server.new cfg attached tnc a unix) := by
  have hnobody : ∀ uid, (Server.new cfg attached tnc a unix).user uid = none := by
    intro uid
    change (configuredChannels cfg unix).users.get uid = none
    rw [(configuredChannels_vacant cfg unix).1]
    rfl
  have hnone : ∀ uid, hold (Server.new cfg attached tnc a unix) uid = none := fun uid => by
    rw [hold, hnobody, Option.bind_none]
  refine ⟨ha, fun uid huid => ?_, fun x y call _ _ hhx => ?_, fun uid call _ hcall => ?_⟩
  · obtain ⟨-, call, howns, -⟩ := huid
    rw [own, hnobody] at howns
    cases howns
  · rw [hnone] at hhx
    cases hhx
  · rw [hnone] at hcall
    cases hcall

theorem Serves.run {es : List (Moment × ServerRuns.Event)} (h : Serves reader verifies guard s)
    (hruns : Runs guard (ServerRuns.Enabled verifies) (Server.next reader) s es) :
    Serves reader verifies guard (es.foldl (Server.next reader) s) := by
  induction es generalizing s with
  | nil => exact h
  | cons e es ih =>
    obtain ⟨hguard, he, hrest⟩ := hruns
    exact ih (h.next hguard he) hrest

theorem serves_claimed (h : Serves reader verifies guard s) : Grounded s ∧ Claimed [] s := by
  induction h with
  | fresh cfg attached tnc unix =>
    exact ⟨initial_grounded ⟨cfg, attached, tnc, .empty, unix, rfl⟩,
      new_claimed cfg attached tnc orderly_empty unix⟩
  | @restarted s _ cfg attached tnc unix ih =>
    exact ⟨initial_grounded ⟨cfg, attached, tnc, s.accounts, unix, rfl⟩,
      new_claimed cfg attached tnc ih.2.orderly unix⟩
  | next _ _ he ih => exact ⟨grounded_next ih.1 he, next_claimed ih.1 ih.2 he⟩

/-! ### The cascade -/

/-- Callsigns that are restored displace holders, whose own are restored in turn, and this ends. -/
def Ends (s : Server) : Prop :=
  ∀ m, (∀ uid, Refreshes m s uid (s.refreshPrivileges m uid)) ∧
    ∀ call keep notice,
      Strips m notice (victims s call keep) s (s.stripCallsignClaims m call keep notice)

theorem ends_of_apart (hs : Known s) (hapart : Apart s) : Ends s := by
  refine fun m => ⟨fun uid => ?_, fun call keep notice => ?_⟩
  · exact (refreshPrivileges_round hs hapart (covers_users s)).1
  · have hround : ∀ t v, Known t → Apart t → Covers s.state.users.keys t →
        Refreshes m t v (t.refreshPrivileges m v) ∧
          Round s.state.users.keys t (t.refreshPrivileges m v) := by
      intro t v ht hapart' hcov
      obtain ⟨hrefreshes, hr, -⟩ := refreshPrivileges_round (m := m) ht hapart' hcov
      exact ⟨hrefreshes, hr⟩
    refine (strip_rounds hround (victims s call keep) hs hapart (covers_users s) fun u hu _ _ _ => ?_).1
    obtain ⟨w, hw, -⟩ := Option.bind_eq_some_iff.mp (of_mem_victims hs hu).1
    exact Table.mem_keys_iff.mpr (Option.isSome_iff_exists.mpr ⟨w, hw⟩)

/-- No two Internet users go by the same callsign, no two accounts have the same one, and wherever a
callsign is taken or restored in the midst of an event, the cascade ends. -/
theorem callsign_has_one_owner (h : Serves reader verifies everyStep s) :
    (∀ x y call, x.isRf = false → y.isRf = false → hold s x = some call → hold s y = some call →
      x = y) ∧
    (∀ key key' x x' text text', s.accounts.nicks.get key = some x →
      s.accounts.nicks.get key' = some x' → x.callsign = some text → x'.callsign = some text' →
      lower text = lower text' → key = key') ∧
    ∀ t, Steps anything s t → Orderly t.accounts → Ends t := by
  obtain ⟨hs, hclaimed⟩ := serves_claimed h
  refine ⟨fun x y call hx hy hhx hhy => ?_, hclaimed.orderly.single, fun t ht ha => ?_⟩
  · by_contra hne
    rcases hclaimed.clash x y call hx hy hhx hhy hne with hmem | hmem <;> cases hmem
  · have hstanding := steps_standing ht hs.standing
    exact ends_of_apart (known_of_standing hstanding) (apart_of_standing hstanding ha)

/-- Two users ask for one callsign, and the first of them registers its nick. -/
def rivals : List ServerRuns.Event :=
  ServerRuns.Small.joins 1 "anna" false ++ ServerRuns.Small.joins 2 "bert" false ++
    [.line 1 "CALLSIGN SM0ABC-7", .line 2 "CALLSIGN SM0ABC-7", .line 1 "REGISTER longsecret",
      .authFinished ⟨1, .register, "anna", .hash "longsecret"⟩ (.ok (some "longsecret"))]

theorem rivals_have_one_owner :
    hold (ServerRuns.Small.run rivals) (.ip 1) = some ServerRuns.Small.station ∧
      ∀ y, y.isRf = false → hold (ServerRuns.Small.run rivals) y = some ServerRuns.Small.station →
        y = .ip 1 := by
  have hfeasible : ServerRuns.Small.Feasible rivals := by decide +kernel
  have hserves : Serves ServerRuns.Small.noBeacon Eq everyStep (ServerRuns.Small.run rivals) :=
    (Serves.fresh ServerRuns.Small.config true .default 0).run hfeasible
  have hheld : hold (ServerRuns.Small.run rivals) (.ip 1) = some ServerRuns.Small.station := by
    decide +kernel
  refine ⟨hheld, fun y hy hheld' => ?_⟩
  exact (callsign_has_one_owner hserves).1 y (.ip 1) _ hy rfl hheld' hheld

end CallsignOwners
