import Rfircd.AprsSteps
import Rfircd.ServerRuns

/-! Every event as steps of the server, and what holds of its runs for that. -/
namespace ServerSteps

open Basics Ax25 Airc AircSession KeyedTable MessageText HostKey IrcMessage IrcState AprsCodec
open AirTrace AirPolicy AirScreen RadioGateway Accounts ServerOutput ServerCore Bridge ServerRuns
open ServerOutput.Outlet ServerCore.Server

variable {L : Licence} {s t : Server}

/-! ### Connections -/

theorem connect_steps (m : Moment) {id : ℕ} (host : Text) (listenOnly : Bool)
    (hnew : id ∉ s.clientIds) : Steps L s (s.connect m id host listenOnly) := by
  let user : User := { User.new (.ip id) host m.now with listenOnly := listenOnly }
  have hconnect : Step L s
      { s with clientIds := id :: s.clientIds, state := s.state.insertUser user } :=
    .connect hnew rfl ⟨rfl, rfl, rfl, rfl, rfl, rfl⟩ rfl
  unfold connect
  dsimp only
  split_ifs
  · exact .single .refuse
  · exact (Relation.ReflTransGen.single hconnect).trans (outlet_steps (core_steps rfl))

theorem quitAll_steps (s : Server) (m : Moment) (calls : List Callsign) (reason : Text) :
    Steps L s (calls.foldl (fun s call => s.quitUser m (.rf call) reason) s) :=
  foldl_steps (fun _ _ => quitUser_steps ..) s calls

theorem reapEvictedPeers_steps (s : Server) (m : Moment) (h : L.sweeps) :
    Steps L s (s.reapEvictedPeers m) :=
  (perform_steps s .takeEvicted h).trans (quitAll_steps ..)

/-! ### Commands -/

/-- The server when a command is let through: a flood limit has counted, and the user was active just
now. -/
def admitted (s : Server) (m : Moment) (id : ℕ) : Server :=
  (s.modifyUser (.ip id) fun u => { u with lastActive := m.now }).withPolicy
    (s.outlet.policy.ipCmdRateOk (natText id) m.now).2

theorem admitted_steps (s : Server) (m : Moment) (id : ℕ) : Steps L s (admitted s m id) := by
  let active := s.modifyUser (.ip id) fun u => { u with lastActive := m.now }
  have hactive : Steps L s active :=
    touch_steps s (.ip id) fun _ => ⟨rfl, rfl, rfl, rfl, rfl, rfl, rfl⟩
  have hlimited : Steps L active
      (active.withPolicy (active.outlet.policy.ipCmdRateOk (natText id) m.now).2) :=
    outlet_steps (core_steps rfl)
  exact hactive.trans hlimited

theorem admitted_user (s : Server) (m : Moment) (id : ℕ) (j : UserId) :
    (admitted s m id).user j = if j = .ip id then
      (s.user (.ip id)).map (fun u => { u with lastActive := m.now }) else s.user j :=
  State.user_modifyUser s.state (.ip id) _ j

theorem admitted_findTarget (s : Server) (m : Moment) (id : ℕ) (who : Text) :
    findTarget (admitted s m id).state who = findTarget s.state who := by
  have hnicks : (admitted s m id).state.nicks = s.state.nicks := State.nicks_modifyUser ..
  simp only [findTarget, State.byNick, Option.map_bind, hnicks]
  refine congrArg _ (funext fun j => ?_)
  change ((admitted s m id).user j).map User.id = (s.user j).map User.id
  rw [admitted_user]
  split_ifs with hid
  · rw [hid]
    cases s.user (.ip id) <;> rfl
  · rfl

/-- A registered user's command is carried out, when the flood limit and the connection allow. -/
theorem handleLine_command {m : Moment} {id : ℕ} {line : Text} {msg : Message} {cmd : String} {u : User}
    (hparse : Message.parse line = some msg) (hcmd : String.ofList msg.command = cmd)
    (hu : s.user (.ip id) = some u) (hreg : u.registered = true)
    (hspeaks : (u.listenOnly && !listenOnlyCommand cmd msg) = false)
    (hlimited : unlimitedCommand cmd = false)
    (hrate : (s.outlet.policy.ipCmdRateOk (natText id) m.now).1 = true) :
    s.handleLine m id line = (admitted s m id).command m id msg cmd := by
  have hcount : (s.modifyUser (.ip id) fun u => { u with lastActive := m.now }).cmdRateOk m id cmd =
      (true, admitted s m id) := by
    rw [cmdRateOk, if_neg (by simp [hlimited])]
    exact Prod.ext hrate rfl
  rw [handleLine, hparse]
  dsimp only
  rw [handleClientMessage]
  dsimp only
  rw [hu]
  dsimp only
  rw [hcmd, hcount]
  dsimp only
  rw [if_neg (by simp [hreg]), if_neg (by simp [hspeaks])]

/-! ### Housekeeping -/

theorem tickStations_steps (s : Server) (m : Moment) (h : L.sweeps) :
    Steps L s (s.tickStations m) :=
  ((perform_steps s (.drainKeyed m.now) (by trivial)).trans (perform_steps _ (.tickSessions m.now) h)).trans
    (quitAll_steps ..)

theorem expireMail_steps (s : Server) {now : ℕ} (h : L.expires now) :
    Steps L s { s with outlet := { s.outlet with mailbox := s.outlet.mailbox.expire now } } :=
  .single (.outlet (.expire h))

/-- The licence for what only the time takes away. -/
structure Ages (L : Licence) (now : ℕ) : Prop where
  mail : L.expires now
  memory : ∀ t, L.remembers t (TimedMemory.expire aprsMsgidTtl now t)
  ration : ∀ r : RateLimiter, L.rations r (r.expire now (secs 3600))

theorem expireAprsMsgids_steps (s : Server) {now : ℕ} (h : Ages L now) :
    Steps L s { s with outlet := expireAprsMsgids s.outlet now } := by
  have hbeacons : Steps L s { s with outlet := { s.outlet with
      aprsBeacon := (expireAprsMsgids s.outlet now).aprsBeacon } } :=
    outlet_steps (core_steps rfl)
  exact hbeacons.tail (.outlet (.remember (h.memory _)))

theorem tickAir_steps (s : Server) (m : Moment) (h : Ages L m.now) : Steps L s (s.tickAir m) := by
  have hlimited : Steps L s (s.withPolicy (s.outlet.policy.expire m.now)) :=
    withPolicy_steps s rfl (.inr (h.ration _))
  have hforgotten := hlimited.trans (expireAprsMsgids_steps _ h)
  have hasked := hforgotten.trans (perform_steps _ (.tickAprs m.now) (by trivial))
  exact (hasked.trans (expireMail_steps _ h.mail)).trans (perform_steps _ _ (by trivial))

theorem expireUnregistered_steps (s : Server) (m : Moment) : Steps L s (s.expireUnregistered m) :=
  foldl_steps (fun _ _ => (closeLink_steps ..).trans (quitUser_steps ..)) _ _

theorem identifyTimeout_steps (s : Server) (m : Moment) (uid : UserId) :
    Steps L s (s.identifyTimeout m uid) :=
  ((noticeUser_steps ..).trans (closeLink_steps ..)).trans (quitUser_steps ..)

theorem guestNick_ne_star (id n : ℕ) : guestNick id n ≠ ['*'] := by
  unfold guestNick
  dsimp only
  split_ifs <;> exact fun h => absurd (List.cons.inj h).1 (by decide)

/-- A nick that nobody identified to is released. -/
theorem releaseNick_steps (m : Moment) {uid : UserId}
    (hfree : ∀ u, s.user uid = some u → u.nickIdentified = false) :
    Steps L s (s.releaseNick m uid) := by
  unfold releaseNick
  extract_lets guest old released mask
  have hreleased : Steps L s released := touch_steps s uid fun _ => ⟨rfl, rfl, rfl, rfl, rfl, rfl, rfl⟩
  split_ifs
  · exact hreleased.trans (identifyTimeout_steps ..)
  · split
    · exact hreleased.trans (identifyTimeout_steps ..)
    · rename_i st hset
      extract_lets named told noticed
      have hnamed : Step L released named := by
        cases hu : released.user uid with
        | none =>
          have hu' : released.state.users.get uid = none := hu
          simp [State.setNick, hu'] at hset
        | some v =>
          have hv := (State.user_modifyUser s.state uid
            (fun u => { u with identifyBy := none, callsign := none }) uid).symm.trans hu
          rw [if_pos rfl] at hv
          obtain ⟨u, hold, rfl⟩ := Option.map_eq_some_iff.mp hv
          exact .rename hu (hfree u hold) (guestNick_ne_star _ _) hset
      have htold : Steps L s told := (hreleased.tail hnamed).trans (broadcastNick_steps ..)
      have hnoticed : Steps L s noticed := htold.trans (noticeUser_steps ..)
      exact hnoticed.trans (refreshPrivileges_steps ..)

/-- Whoever of the list is there is identified to no nick. -/
def Unidentified (s : Server) (uids : List UserId) : Prop :=
  ∀ uid ∈ uids, ∀ u, s.user uid = some u → u.nickIdentified = false

/-- Nobody becomes the owner of a nick by another's timeout. -/
theorem releaseNick_unidentified (m : Moment) {uid : UserId} {uids : List UserId}
    (h : Unidentified s (uid :: uids)) : Unidentified (s.releaseNick m uid) uids := by
  let nobody : Licence :=
    ⟨.free, fun _ => True, fun _ => True, fun _ _ => False, fun _ => True, fun _ => True⟩
  have hsteps : Steps nobody s (s.releaseNick m uid) :=
    releaseNick_steps m (h uid List.mem_cons_self)
  intro j hj v hv
  by_contra hi
  rcases steps_owner hsteps hv (by simpa using hi) with ⟨u, hu, hui, -⟩ | ⟨nick, hown, -⟩
  · rw [h j (List.mem_cons_of_mem _ hj) u hu] at hui
    cases hui
  · exact hown

theorem releaseAll_steps (m : Moment) {uids : List UserId} (h : Unidentified s uids) :
    Steps L s (uids.foldl (fun s uid => s.releaseNick m uid) s) := by
  induction uids generalizing s with
  | nil => exact .refl
  | cons uid uids ih =>
    exact (releaseNick_steps m (h uid List.mem_cons_self)).trans (ih (releaseNick_unidentified m h))

theorem usersWith_mem {p : User → Bool} {uid : UserId} (hs : Standing s)
    (h : uid ∈ s.usersWith p) : ∃ u, s.user uid = some u ∧ p u = true := by
  obtain ⟨u, hu, rfl⟩ := List.mem_map.mp h
  obtain ⟨hmem, hp⟩ := List.mem_filter.mp hu
  obtain ⟨⟨k, v⟩, hentry, rfl⟩ := List.mem_map.mp hmem
  have hv : s.user k = some v := Table.mem_entries_iff.mp hentry
  obtain rfl := (hs.users k v hv).known
  exact ⟨v, hv, hp⟩

theorem expireUnidentified_steps (m : Moment) (hs : Standing s) :
    Steps L s (s.expireUnidentified m) := by
  apply releaseAll_steps
  intro uid huid u hu
  obtain ⟨v, hv, hp⟩ := usersWith_mem hs huid
  obtain rfl := Option.some.inj (hu.symm.trans hv)
  simp only [Bool.and_eq_true, Bool.not_eq_true'] at hp
  exact hp.1.2

theorem warnNickStoreFailures_steps (s : Server) (m : Moment) :
    Steps L s (s.warnNickStoreFailures m) := by
  unfold warnNickStoreFailures
  split_ifs
  · exact .refl
  · exact (settings_steps s s.connectionPassword s.admissionBans m.persistFailures).trans
      (foldl_steps (fun _ _ => noticeUser_steps ..) _ _)

/-- What a tick does when the stations that were lost have left. -/
theorem tickRest_steps (m : Moment) (hs : Standing (s.tickStations m)) (h : Ages L m.now) :
    Steps L (s.tickStations m) (s.tick m) := by
  have hbefore : Steps L (s.tickStations m) (((s.tickStations m).tickAir m).expireUnregistered m) :=
    (tickAir_steps _ m h).trans (expireUnregistered_steps ..)
  exact (hbefore.trans (expireUnidentified_steps m (steps_standing hbefore hs))).trans
    (warnNickStoreFailures_steps ..)

theorem tick_steps (m : Moment) (hs : Standing s) (hsweeps : L.sweeps) (h : Ages L m.now) :
    Steps L s (s.tick m) := by
  have hstations : Steps L s (s.tickStations m) := tickStations_steps s m hsweeps
  exact hstations.trans (tickRest_steps m (steps_standing hstations hs) h)

theorem shutdown_steps (s : Server) (m : Moment) : Steps L s (s.shutdown m) := by
  have hlines : ∀ (ids : List ℕ) (o : Outlet),
      (ids.foldl (fun o id => o.sendRaw id "ERROR :Server shutting down") o).core = o.core :=
    fun ids o => foldl_core (fun (o : Outlet) (id : ℕ) => sendRaw_core o id _) o ids
  exact (perform_steps _ _ (by trivial)).trans (send_core_steps (hlines _ _))

/-! ### Events -/

/-- The licence for what an event asks for. -/
def EventLicence (L : Licence) (reader : BeaconReader) (s : Server)
    (e : Moment × ServerRuns.Event) : Prop :=
  match e.2 with
  | .line id line =>
    ∀ msg, Message.parse line = some msg → CommandLicence L id (String.ofList msg.command)
  | .authFinished job result => ∀ v, result = .ok v → Warrant L s job.client job.kind job.nick
  | .rf frame => RfLicence L s reader e.1 frame
  | .tick => Ages L e.1.now
  | _ => True

/-- The licence for what becomes of the memory of numbers and of the limit on first contacts: they
age, and a frame adds its own. -/
structure Recalls (L : Licence) (reader : BeaconReader) (s : Server)
    (e : Moment × ServerRuns.Event) : Prop where
  ages : e.2 = .tick → ∀ t, L.remembers t (TimedMemory.expire aprsMsgidTtl e.1.now t)
  learns : ∀ f msg, e.2 = .rf f → heard s.cfg reader f = .aprs msg →
    ∀ id ∈ newId s e.1 f.source.call msg, L.remembers s.outlet.aprsMsgid
      (rememberAprsMsgid s.outlet f.source.call id e.1.now).aprsMsgid
  lapses : e.2 = .tick → ∀ r : RateLimiter, L.rations r (r.expire e.1.now (secs 3600))
  rations : ∀ f, e.2 = .rf f → MayRation L s e.1

theorem recalls_all {reader : BeaconReader} {e : Moment × ServerRuns.Event}
    (h : ∀ a b, L.remembers a b) (hration : ∀ a b, L.rations a b) : Recalls L reader s e :=
  ⟨fun _ _ => h _ _, fun _ _ _ _ _ _ => h _ _, fun _ _ => hration _ _, fun _ _ => hration _ _⟩

theorem finishJob_steps (m : Moment) {job : Job} {result : Except AccountError (Option Text)}
    (h : ∀ v, result = .ok v → Warrant L s job.client job.kind job.nick) :
    Steps L s (s.finishJob m job result) := by
  have hdone : Step L s { s with jobs := s.jobs.erase job } := .done
  refine (Relation.ReflTransGen.single hdone).trans (finishAuth_steps (fun v hv => ?_) m)
  obtain ⟨hreg, hown, hdrop, hyields⟩ := h v hv
  exact ⟨hreg, hown, hdrop, hyields⟩

theorem withClients_steps (s : Server) (f : Clients → Clients) : Steps L s (s.withClients f) :=
  outlet_steps (core_steps rfl)

/-- An event without the departure of the stations that it has pushed out. -/
def handled (reader : BeaconReader) (s : Server) (e : Moment × ServerRuns.Event) : Server :=
  let m := e.1
  match e.2 with
  | .connected id host listenOnly => s.connect m id host listenOnly
  | .line id line => s.handleLine m id line
  | .disconnected id reason => s.quitUser m (.ip id) reason
  | .authFinished job result => s.finishJob m job result
  | .rf frame => s.handleRfFrame reader m frame
  | .tick => s.tick m
  | .shutdown => s.shutdown m
  | .written id => s.withClients fun c => writeLine c id
  | .writerGone id => s.withClients fun c => stopWriter c id
  | .pump e => s.perform (.pump e)

/-- The server's own events end with the departure of who was pushed out. -/
def reaps : ServerRuns.Event → Bool
  | .written _ | .writerGone _ | .pump _ => false
  | _ => true

theorem next_eq (reader : BeaconReader) (s : Server) (e : Moment × ServerRuns.Event) :
    s.next reader e =
      if reaps e.2 then (handled reader s e).reapEvictedPeers e.1 else handled reader s e := by
  obtain ⟨m, e⟩ := e
  cases e <;> rfl

theorem handled_steps {verifies : Text → Text → Prop} {reader : BeaconReader}
    {e : Moment × ServerRuns.Event} (hs : Standing s) (hn : Named s)
    (he : ServerRuns.Enabled verifies s e) (hsweeps : e.2 = .tick → L.sweeps)
    (h : EventLicence L reader s e) : Steps L s (handled reader s e) := by
  obtain ⟨m, e⟩ := e
  cases e with
  | connected id host listenOnly => exact connect_steps m host listenOnly he
  | line id line =>
    unfold handled handleLine
    dsimp only
    split
    · exact .refl
    · rename_i msg hmsg
      exact handleClientMessage_steps m id msg (h msg hmsg) hs hn
  | disconnected id reason => exact quitUser_steps ..
  | authFinished job result => exact finishJob_steps m h
  | rf frame => exact handleRfFrame_steps reader m h
  | tick => exact tick_steps m hs (hsweeps rfl) h
  | shutdown => exact shutdown_steps ..
  | written id => exact withClients_steps s fun c => writeLine c id
  | writerGone id => exact withClients_steps s fun c => stopWriter c id
  | pump e => exact perform_steps _ _ (by trivial)

theorem next_steps {verifies : Text → Text → Prop} {reader : BeaconReader}
    {e : Moment × ServerRuns.Event} (hs : Standing s) (hn : Named s)
    (he : ServerRuns.Enabled verifies s e) (hsweeps : L.sweeps) (h : EventLicence L reader s e) :
    Steps L s (s.next reader e) := by
  have hhandled : Steps L s (handled reader s e) := handled_steps hs hn he (fun _ => hsweeps) h
  rw [next_eq]
  split_ifs
  · exact hhandled.trans (reapEvictedPeers_steps _ e.1 hsweeps)
  · exact hhandled

end ServerSteps
