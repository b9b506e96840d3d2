import Rfircd.CallsignCommands

/-! Events that leave the callsigns alone: all but a few commands and password results. -/
namespace CallsignEvents

open Basics KeyedTable MessageText HostKey IrcMessage IrcState Ax25 Airc AprsCodec AirPolicy AirScreen
open Accounts ServerOutput ServerCore ServerCore.Server Bridge ServerSteps ServerInvariants
open CallsignCascade
open CallsignRecords CallsignFrames CallsignCommands

variable {s t : Server} {m : Moment} {uid : UserId} {id : ℕ} {src call : Callsign}

/-! ### Stations -/

theorem calm_claimStationNick {nicks : List Text} {st : State}
    (howns : ∀ u, t.user uid = some u → u.nickIdentified = false)
    (hclaim : claimStationNick t.state uid nicks = some st) (h : Calm s t) :
    Calm s { t with state := st } := by
  induction nicks with
  | nil => cases hclaim
  | cons nick nicks ih =>
    unfold claimStationNick at hclaim
    split at hclaim
    · rename_i hset
      obtain rfl := Option.some.inj hclaim
      refine calm_setNick hset (fun u hu hi => ?_) h
      rw [howns u hu] at hi
      cases hi
    · exact ih hclaim

@[simp] theorem calm_ensureRfUser (h : Calm s t) : Calm s (t.ensureRfUser m call).2 := by
  unfold ensureRfUser
  extract_lets uid st
  split_ifs
  · exact h
  · have hinserted : Calm s { t with state := st } := calm_insert ⟨rfl, rfl, rfl⟩ h
    split
    · have hremoved := calm_remove uid hinserted
      exact hremoved
    · rename_i st' hclaim
      have hfree : ∀ u, Server.user { t with state := st } uid = some u → u.nickIdentified = false := by
        intro u hu
        have hu' := (State.user_insertUser t.state (t.stationUser m call) uid).symm.trans hu
        have hid : uid = (t.stationUser m call).id := rfl
        rw [if_pos hid] at hu'
        obtain rfl := Option.some.inj hu'
        rfl
      have hclaimed : Calm s { t with state := st' } :=
        calm_claimStationNick (t := { t with state := st }) hfree hclaim hinserted
      simpa only [calm_perform] using hclaimed

@[simp] theorem calm_greet (h : Calm s t) : Calm s (t.greet m call) := by
  have hthere : Calm s (t.ensureRfUser m call).2 := calm_ensureRfUser h
  unfold greet
  rcases hnew : t.ensureRfUser m call with ⟨fresh, r⟩
  rw [hnew] at hthere
  cases fresh with
  | true => exact (calm_send _).mpr hthere
  | false => exact hthere

theorem calm_announceStation (s : Server) (m : Moment) (call : Callsign) (display : Text)
    (flags : MemberFlags) (reply : Bool) :
    Calm s (s.announceStation m call display flags reply) := by
  unfold announceStation joinReply
  dsimp only
  split_ifs
  all_goals first
    | simp only [calm_send, calm_announceMode, calm_perform, calm_self]
    | (split <;> simp only [calm_send, calm_announceMode, calm_perform, calm_self])

@[simp] theorem calm_rfJoin {channel : Text} {reply : Bool} (h : Calm s t) :
    Calm s (t.rfJoin m call channel reply) := by
  unfold rfJoin
  extract_lets display
  split_ifs
  · simpa only [calm_rfError] using h
  · split
    · simpa only [calm_rfError] using h
    · split_ifs
      · simpa only [calm_rfError] using h
      · split
        · exact h
        · rename_i hjoin
          exact (calm_join hjoin h).trans (calm_announceStation ..)

theorem calm_rfPart (s : Server) (m : Moment) (uid : UserId) (channel reason : Text) :
    Calm s (s.rfPart m uid channel reason) := by
  unfold rfPart
  split
  · split
    · exact calm_self s
    · extract_lets d told parted
      have hparted : Calm s parted := calm_part _ _ (by simp only [told, calm_send, calm_self])
      split_ifs <;> simpa only [calm_send] using hparted
  · exact calm_self s

/-! ### AIRC frames -/

theorem calm_rfStationRateOk {ok : Bool} (h : s.rfStationRateOk m src = (ok, t)) : Calm s t := by
  obtain rfl := congrArg Prod.snd h
  exact (calm_withPolicy _).mpr (calm_self s)

@[simp] theorem calm_rfSpeak (user display text notice) :
    Calm s (t.rfSpeak m src user display text notice) ↔ Calm s t := calm_relay ..

theorem calm_rfChannelMessage (s : Server) (m : Moment) (user : User) (target text : Text)
    (notice : Bool) : Calm s (s.rfChannelMessage m src user target text notice) := by
  unfold rfChannelMessage
  extract_lets display
  split
  · simp only [calm_rfError, calm_self]
  · split_ifs <;> simp only [calm_rfError, calm_rfSpeak, calm_rfJoin, calm_self]

theorem calm_rfPrivateMessage (s : Server) (m : Moment) (user : User) (target text : Text)
    (notice : Bool) : Calm s (s.rfPrivateMessage m src user target text notice) := by
  unfold rfPrivateMessage
  split
  · simp only [calm_rfError, calm_self]
  · dsimp only
    split_ifs <;> simp only [calm_send, calm_self]

theorem calm_rfMessage (s : Server) (m : Moment) (target text : Text) (notice : Bool) :
    Calm s (s.rfMessage m src target text notice) := by
  unfold rfMessage
  rcases hrate : s.rfStationRateOk m src with ⟨ok, t⟩
  have hcounted : Calm s t := calm_rfStationRateOk hrate
  cases ok with
  | false => exact (calm_perform _).mpr hcounted
  | true =>
    dsimp only
    split_ifs
    · exact hcounted
    · exact (calm_rfError ..).mpr hcounted
    · split
      · exact calm_greet hcounted
      · exact (calm_greet hcounted).trans (calm_rfChannelMessage ..)
    · split
      · exact calm_greet hcounted
      · exact (calm_greet hcounted).trans (calm_rfPrivateMessage ..)

theorem calm_rfHello (s : Server) (m : Moment) : Calm s (s.rfHello m src) := by
  unfold rfHello
  dsimp only
  simp only [calm_send, calm_perform]
  exact calm_ensureRfUser ((calm_perform _).mpr (calm_self s))

theorem calm_rfControl (s : Server) (m : Moment) {f : Server → Server} (hf : ∀ t, Calm t (f t)) :
    Calm s (s.rfControl m src f) := by
  unfold rfControl
  rcases hrate : s.rfStationRateOk m src with ⟨ok, t⟩
  have hcounted : Calm s t := calm_rfStationRateOk hrate
  cases ok with
  | false => exact hcounted
  | true => exact hcounted.trans (hf t)

theorem calm_handleAircMessage (s : Server) (m : Moment) (msg : AircFrame) :
    Calm s (s.handleAircMessage m src msg) := by
  unfold handleAircMessage
  dsimp only
  split
  · exact calm_rfControl s m fun t => calm_rfHello t m
  · refine calm_rfControl s m fun t => ?_
    split
    · simp only [calm_perform, calm_self]
    · exact calm_rfJoin (calm_greet ((calm_perform _).mpr (calm_self t)))
  · refine calm_rfControl s m fun t => ?_
    split
    · exact calm_self t
    · exact (calm_perform _).mpr (calm_rfPart ..)
  · exact calm_rfControl s m fun t => calm_quitUser _ (calm_self t)
  · split
    · exact calm_rfMessage ..
    · exact calm_self s
  · split
    · exact calm_rfMessage ..
    · exact calm_self s
  · refine calm_rfControl s m fun t => ?_
    split_ifs
    · exact calm_self t
    · split <;> simp only [calm_perform, calm_self]
  · refine calm_rfControl s m fun t => ?_
    split_ifs <;> simp only [calm_perform, calm_self]
  all_goals exact calm_self s

theorem calm_firstContactOk {ok : Bool} (h : s.firstContactOk m src = (ok, t)) : Calm s t := by
  obtain rfl := congrArg Prod.snd h
  unfold firstContactOk
  split_ifs
  · exact calm_self s
  · exact (calm_withPolicy _).mpr (calm_self s)

theorem calm_handleAircFrame (s : Server) (m : Moment) (f : AircFrame) (forUs broadcast : Bool) :
    Calm s (s.handleAircFrame m src f forUs broadcast) := by
  unfold handleAircFrame
  split_ifs
  · exact calm_self s
  · rcases hcontact : s.firstContactOk m src with ⟨ok, t⟩
    have hcounted : Calm s t := calm_firstContactOk hcontact
    cases ok with
    | false => exact hcounted
    | true =>
      have hreceived : Calm s (t.perform (.receive src f m.now forUs)) :=
        (calm_perform _).mpr hcounted
      dsimp only
      refine (calm_perform _).mpr ?_
      split
      · exact hreceived
      · exact hreceived.trans (calm_handleAircMessage ..)

/-! ### APRS frames -/

@[simp] theorem calm_aprsAck (msg) : Calm s (t.aprsAck src msg) ↔ Calm s t := by
  unfold aprsAck
  split <;> simp only [calm_perform]

@[simp] theorem calm_aprsRejOrAck (msg) : Calm s (t.aprsRejOrAck src msg) ↔ Calm s t := by
  unfold aprsRejOrAck
  split <;> simp only [calm_perform]

@[simp] theorem calm_aprsRefuse (msg reply) : Calm s (t.aprsRefuse src msg reply) ↔ Calm s t := by
  simp only [aprsRefuse, calm_perform, calm_aprsAck]

theorem calm_aprsPrivate (s : Server) (m : Moment) (msg : AprsMessage) (target : User) (body : Text) :
    Calm s (s.aprsPrivate m src msg target body) := by
  have hgreeted : Calm s (s.greet m src) := calm_greet (calm_self s)
  unfold aprsPrivate
  dsimp only
  split_ifs
  · simp only [calm_aprsRefuse, calm_self]
  · split <;> simpa only [calm_aprsAck, calm_send] using hgreeted

theorem calm_aprsSpeak (s : Server) (m : Moment) (msg : AprsMessage) (user : User)
    (display body : Text) : Calm s (s.aprsSpeak m src msg user display body) := by
  unfold aprsSpeak
  dsimp only
  split_ifs <;> simp only [calm_aprsAck, calm_send, calm_relay, calm_self]

theorem calm_aprsChannelLine (s : Server) (m : Moment) (msg : AprsMessage) (channel body : Text) :
    Calm s (s.aprsChannelLine m src msg channel body) := by
  have hgreeted : Calm s (s.greet m src) := calm_greet (calm_self s)
  unfold aprsChannelLine
  extract_lets display
  split
  · simp only [calm_aprsRefuse, calm_self]
  · split_ifs
    · simp only [calm_aprsRefuse, calm_self]
    · exact (calm_aprsRefuse ..).mpr hgreeted
    · dsimp only
      split
      · exact (calm_aprsAck _).mpr hgreeted
      · exact hgreeted.trans (calm_aprsSpeak ..)
    · dsimp only
      split
      · exact (calm_aprsAck _).mpr (calm_rfJoin hgreeted)
      · exact (calm_rfJoin hgreeted).trans (calm_aprsSpeak ..)

theorem calm_aprsText (s : Server) (m : Moment) (msg : AprsMessage) (text : Text) :
    Calm s (s.aprsText m src msg text) := by
  unfold aprsText
  split_ifs
  · simp only [calm_aprsRefuse, calm_self]
  · simp only [calm_aprsRefuse, calm_self]
  · split
    · exact calm_aprsPrivate ..
    · split
      · simp only [calm_aprsRefuse, calm_self]
      · exact calm_aprsChannelLine ..

theorem calm_aprsFresh (s : Server) (m : Moment) (msg : AprsMessage) :
    Calm s (s.aprsFresh m src msg) := by
  unfold aprsFresh
  split_ifs
  · simp only [calm_aprsRejOrAck, calm_self]
  · split
    · exact calm_aprsText ..
    · split_ifs
      · simp only [calm_aprsAck, calm_self]
      · exact Calm.trans ((calm_mk ..).mpr (calm_self s)) (calm_aprsText ..)

theorem calm_handleAprsMessage (s : Server) (m : Moment) (msg : AprsMessage) :
    Calm s (s.handleAprsMessage m src msg) := by
  unfold handleAprsMessage
  split_ifs
  · exact calm_self s
  · split <;> simp only [calm_perform, calm_self]
  · rcases hrate : s.rfStationRateOk m src with ⟨ok, t⟩
    have hcounted : Calm s t := calm_rfStationRateOk hrate
    cases ok with
    | false => exact (calm_perform _).mpr hcounted
    | true =>
      dsimp only
      rcases hcontact : t.firstContactOk m src with ⟨ok, r⟩
      have hmet : Calm s r := hcounted.trans (calm_firstContactOk hcontact)
      cases ok with
      | false => exact hmet
      | true =>
        dsimp only
        split_ifs
        · exact (calm_aprsAck _).mpr hmet
        · have hnoted : Calm s ((r.perform (.touch src m.now)).perform (.note src .aprs)) := by
            simpa only [calm_perform] using hmet
          exact hnoted.trans (calm_aprsFresh ..)

theorem calm_handleAprsBeacon (s : Server) (m : Moment) (summary : Text) :
    Calm s (s.handleAprsBeacon m src summary) := by
  unfold handleAprsBeacon showBeacon
  split_ifs
  · exact calm_self s
  · split
    · exact calm_self s
    · dsimp only
      split_ifs <;> simp only [calm_send, calm_mk, calm_self]

theorem calm_handleRfFrame (s : Server) (reader : BeaconReader) (m : Moment) (f : Ax25Frame) :
    Calm s (s.handleRfFrame reader m f) := by
  have hcounted : Calm s { s with outlet := { s.outlet with framesRx := s.outlet.framesRx + 1 } } :=
    (calm_mk ..).mpr (calm_self s)
  refine hcounted.trans ?_
  unfold handleRfFrame
  dsimp only
  split
  · exact calm_self _
  · exact calm_handleAprsMessage ..
  · exact calm_handleAprsBeacon ..
  · exact calm_handleAircFrame ..

/-! ### Connections and the clock -/

theorem calm_connect (s : Server) (m : Moment) (host : Text) (listenOnly : Bool) :
    Calm s (s.connect m id host listenOnly) := by
  unfold connect
  extract_lets counted o
  have hcounted : Calm s counted := (calm_mk ..).mpr (calm_self s)
  split_ifs
  · exact hcounted
  · have hinserted := calm_insert (t := counted)
      (u := { User.new (.ip id) host m.now with listenOnly := listenOnly }) ⟨rfl, rfl, rfl⟩ hcounted
    refine (calm_congr ?_ ?_).mpr hinserted <;> rfl

theorem calm_reapEvictedPeers (s : Server) (m : Moment) : Calm s (s.reapEvictedPeers m) :=
  calm_foldl (fun s _ => calm_quitUser _ (calm_self s)) _ ((calm_perform _).mpr (calm_self s))

theorem calm_tickStations (s : Server) (m : Moment) : Calm s (s.tickStations m) := by
  refine calm_foldl (fun s _ => calm_quitUser _ (calm_self s)) _ ?_
  simp only [calm_perform, calm_self]

theorem calm_tickAir (s : Server) (m : Moment) : Calm s (s.tickAir m) := by
  unfold tickAir
  dsimp only
  simp only [calm_perform, calm_mk, calm_withPolicy, calm_self]

theorem calm_expireUnregistered (s : Server) (m : Moment) : Calm s (s.expireUnregistered m) :=
  calm_foldl (fun s uid => by simp only [calm_closeLink, calm_quitUser, calm_self]) _ (calm_self s)

theorem calm_identifyTimeout (h : Calm s t) : Calm s (t.identifyTimeout m uid) := by
  unfold identifyTimeout
  simp only [calm_noticeUser, calm_closeLink, calm_quitUser, h]

/-- Whoever loses a nick owned none, and goes by no callsign any more. -/
theorem calm_releaseNick (s : Server) (m : Moment) (hip : uid.isRf = false)
    (hfree : ∀ u, s.user uid = some u → u.nickIdentified = false) : Calm s (s.releaseNick m uid) := by
  unfold releaseNick
  extract_lets guest old released mask
  have husers : ∀ j v, released.user j = some v → j = uid ∧ (∃ u, s.user uid = some u ∧
      v = { u with identifyBy := none, callsign := none }) ∨ s.user j = some v := by
    intro j v hv
    have hv' := (State.user_modifyUser s.state uid _ j).symm.trans hv
    split_ifs at hv' with hj
    · obtain ⟨u, hu, rfl⟩ := Option.map_eq_some_iff.mp hv'
      exact .inl ⟨hj, u, hu, rfl⟩
    · exact .inr hv'
  have hreleased : Calm s released := by
    refine ⟨fun hs => ⟨.refl _, fun j v hv => ?_⟩⟩
    rcases husers j v hv with ⟨rfl, u, hu, rfl⟩ | hsame
    · refine .inl ⟨hs.known j u hu, ?_, hfree u hu⟩
      cases j with
      | ip id => rfl
      | rf call => cases hip
    · exact .inr ⟨v, hsame, .refl v⟩
  split_ifs
  · exact calm_identifyTimeout hreleased
  · split
    · exact calm_identifyTimeout hreleased
    · rename_i st hset
      have hnamed : Calm s { released with state := st } := by
        refine calm_setNick hset (fun v hv hi => ?_) hreleased
        rcases husers uid v hv with ⟨-, u, hu, rfl⟩ | hsame
        · exact absurd hi (by simp [hfree u hu])
        · exact absurd hi (by simp [hfree v hsame])
      extract_lets named told noticed
      have hnoticed : Calm s noticed := by
        simp only [noticed, told, calm_noticeUser, calm_send]
        exact hnamed
      exact calm_refreshPrivileges hnoticed

theorem calm_expireUnidentified (m : Moment) (hs : Standing s) :
    Calm s (s.expireUnidentified m) := by
  have hall : ∀ (uids : List UserId) (s : Server), (∀ uid ∈ uids, uid.isRf = false) →
      Unidentified s uids → Calm s (uids.foldl (fun s uid => s.releaseNick m uid) s) := by
    intro uids
    induction uids with
    | nil => exact fun s _ _ => calm_self s
    | cons uid uids ih =>
      intro s hip hfree
      refine (calm_releaseNick s m (hip uid List.mem_cons_self) (hfree uid List.mem_cons_self)).trans ?_
      exact ih _ (fun v hv => hip v (List.mem_cons_of_mem _ hv)) (releaseNick_unidentified m hfree)
  have hstale : ∀ uid ∈ s.usersWith (fun u => !u.isRf && !u.nickIdentified && u.identifyBy.any (· ≤ m.now)),
      ∃ u, s.user uid = some u ∧ u.isRf = false ∧ u.nickIdentified = false := by
    intro uid huid
    obtain ⟨u, hu, hp⟩ := usersWith_mem hs huid
    simp only [Bool.and_eq_true, Bool.not_eq_true'] at hp
    exact ⟨u, hu, hp.1⟩
  refine hall _ s (fun uid huid => ?_) fun uid huid u hu => ?_
  · obtain ⟨u, hu, hip, -⟩ := hstale uid huid
    rwa [User.isRf, (hs.users uid u hu).known] at hip
  · obtain ⟨v, hv, -, hfree⟩ := hstale uid huid
    obtain rfl := Option.some.inj (hu.symm.trans hv)
    exact hfree

theorem calm_warnNickStoreFailures (s : Server) (m : Moment) :
    Calm s (s.warnNickStoreFailures m) := by
  unfold warnNickStoreFailures
  split_ifs
  · exact calm_self s
  · exact calm_foldl (fun s _ => (calm_noticeUser _).mpr (calm_self s)) _
      ((calm_mk ..).mpr (calm_self s))

theorem calm_tick (m : Moment) (hs : Standing s) : Calm s (s.tick m) := by
  have hbefore : Calm s (((s.tickStations m).tickAir m).expireUnregistered m) :=
    ((calm_tickStations s m).trans (calm_tickAir ..)).trans (calm_expireUnregistered ..)
  have hstanding : Standing (((s.tickStations m).tickAir m).expireUnregistered m) := by
    have hsteps : Steps anything s (((s.tickStations m).tickAir m).expireUnregistered m) :=
      ((tickStations_steps s m trivial).trans (tickAir_steps _ m ⟨trivial, fun _ => trivial,
        fun _ => trivial⟩)).trans (expireUnregistered_steps ..)
    exact steps_standing hsteps hs
  exact (hbefore.trans (calm_expireUnidentified m hstanding)).trans (calm_warnNickStoreFailures ..)

theorem calm_shutdown (s : Server) (m : Moment) : Calm s (s.shutdown m) := by
  unfold shutdown
  simp only [calm_send, calm_perform, calm_self]

end CallsignEvents
