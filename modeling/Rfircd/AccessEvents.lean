import Rfircd.AccessCommands

/-! Events that let nobody in: a station, a frame and the clock open no door. -/
namespace AccessEvents

open Basics KeyedTable MessageText HostKey IrcMessage IrcState Ax25 Airc AprsCodec AirPolicy
open AirScreen
open RadioGateway Accounts ServerOutput ServerCore ServerCore.Server Bridge ServerSteps
open ServerInvariants AccessFrames AccessCommands

variable {G : Gain} {s t : Server} {m : Moment} {uid : UserId} {id : ℕ} {src call : Callsign}

/-! ### Stations -/

/-- A nick is no right. -/
theorem within_setNick {nick : Text} {ok : Bool} {st : State}
    (hset : t.state.setNick uid nick = (ok, st)) (h : Within G s t) :
    Within G s { t with state := st } := by
  cases ok with
  | false =>
    obtain rfl := State.setNick_false hset
    exact h
  | true =>
    refine within_users (fun j v hv => .inr ?_) h
    cases hu : t.user uid with
    | none =>
      have hu' : t.state.users.get uid = none := hu
      simp [State.setNick, hu'] at hset
    | some u =>
      rw [(State.setNick_true hu hset).1] at hv
      split_ifs at hv with hj
      · obtain rfl := Option.some.inj hv
        exact ⟨u, hj ▸ hu, .of_same rfl⟩
      · exact ⟨v, hv, .refl v⟩

theorem within_claimStationNick {nicks : List Text} {st : State}
    (hclaim : claimStationNick t.state uid nicks = some st) (h : Within G s t) :
    Within G s { t with state := st } := by
  induction nicks with
  | nil => cases hclaim
  | cons nick nicks ih =>
    unfold claimStationNick at hclaim
    split at hclaim
    · rename_i hset
      obtain rfl := Option.some.inj hclaim
      exact within_setNick hset h
    · exact ih hclaim

/-- A station is registered by being heard, and has given nothing. -/
theorem new_station (s : Server) (m : Moment) (call : Callsign) :
    New G (s.stationUser m call).id (s.stationUser m call) := by
  refine ⟨.inl rfl, fun mark hmark => ?_⟩
  cases mark <;> cases hmark

@[simp] theorem within_ensureRfUser (h : Within G s t) : Within G s (t.ensureRfUser m call).2 := by
  unfold ensureRfUser
  extract_lets uid st
  split_ifs
  · exact h
  · have hinserted : Within G s { t with state := st } := within_insert (new_station t m call) h
    split
    · exact within_remove uid hinserted
    · rename_i st' hclaim
      have hclaimed : Within G s { t with state := st' } :=
        within_claimStationNick (t := { t with state := st }) hclaim hinserted
      simpa only [within_perform] using hclaimed

@[simp] theorem within_greet (h : Within G s t) : Within G s (t.greet m call) := by
  have hthere : Within G s (t.ensureRfUser m call).2 := within_ensureRfUser h
  unfold greet
  rcases hnew : t.ensureRfUser m call with ⟨fresh, r⟩
  rw [hnew] at hthere
  cases fresh with
  | true => exact (within_send _).mpr hthere
  | false => exact hthere

theorem within_announceStation (s : Server) (m : Moment) (call : Callsign) (display : Text)
    (flags : MemberFlags) (reply : Bool) :
    Within G s (s.announceStation m call display flags reply) := by
  unfold announceStation joinReply
  dsimp only
  split_ifs
  all_goals first
    | simp only [within_send, within_announceMode, within_perform, within_self]
    | (split <;> simp only [within_send, within_announceMode, within_perform, within_self])

@[simp] theorem within_rfJoin {channel : Text} {reply : Bool} (h : Within G s t) :
    Within G s (t.rfJoin m call channel reply) := by
  unfold rfJoin
  extract_lets display
  split_ifs
  · simpa only [within_rfError] using h
  · split
    · simpa only [within_rfError] using h
    · split_ifs
      · simpa only [within_rfError] using h
      · split
        · exact h
        · rename_i hjoin
          exact (within_join (.inl rfl) hjoin h).trans (within_announceStation ..)

theorem within_rfPart (s : Server) (m : Moment) (uid : UserId) (channel reason : Text) :
    Within G s (s.rfPart m uid channel reason) := by
  unfold rfPart
  split
  · split
    · exact within_self s
    · extract_lets d told parted
      have hparted : Within G s parted :=
        within_part _ _ (by simp only [told, within_send, within_self])
      split_ifs <;> simpa only [within_send] using hparted
  · exact within_self s

/-! ### AIRC frames -/

theorem within_rfStationRateOk {ok : Bool} (h : s.rfStationRateOk m src = (ok, t)) :
    Within G s t := by
  obtain rfl := congrArg Prod.snd h
  exact (within_withPolicy _).mpr (within_self s)

@[simp] theorem within_rfSpeak (user display text notice) :
    Within G s (t.rfSpeak m src user display text notice) ↔ Within G s t := within_relay ..

theorem within_rfChannelMessage (s : Server) (m : Moment) (user : User) (target text : Text)
    (notice : Bool) : Within G s (s.rfChannelMessage m src user target text notice) := by
  unfold rfChannelMessage
  extract_lets display
  split
  · simp only [within_rfError, within_self]
  · split_ifs <;> simp only [within_rfError, within_rfSpeak, within_rfJoin, within_self]

theorem within_rfPrivateMessage (s : Server) (m : Moment) (user : User) (target text : Text)
    (notice : Bool) : Within G s (s.rfPrivateMessage m src user target text notice) := by
  unfold rfPrivateMessage
  split
  · simp only [within_rfError, within_self]
  · dsimp only
    split_ifs <;> simp only [within_send, within_self]

theorem within_rfMessage (s : Server) (m : Moment) (target text : Text) (notice : Bool) :
    Within G s (s.rfMessage m src target text notice) := by
  unfold rfMessage
  rcases hrate : s.rfStationRateOk m src with ⟨ok, t⟩
  have hcounted : Within G s t := within_rfStationRateOk hrate
  cases ok with
  | false => exact (within_perform _).mpr hcounted
  | true =>
    dsimp only
    split_ifs
    · exact hcounted
    · exact (within_rfError ..).mpr hcounted
    · split
      · exact within_greet hcounted
      · exact (within_greet hcounted).trans (within_rfChannelMessage ..)
    · split
      · exact within_greet hcounted
      · exact (within_greet hcounted).trans (within_rfPrivateMessage ..)

theorem within_rfHello (s : Server) (m : Moment) : Within G s (s.rfHello m src) := by
  unfold rfHello
  dsimp only
  simp only [within_send, within_perform]
  exact within_ensureRfUser ((within_perform _).mpr (within_self s))

theorem within_rfControl (s : Server) (m : Moment) {f : Server → Server}
    (hf : ∀ t, Within G t (f t)) :
    Within G s (s.rfControl m src f) := by
  unfold rfControl
  rcases hrate : s.rfStationRateOk m src with ⟨ok, t⟩
  have hcounted : Within G s t := within_rfStationRateOk hrate
  cases ok with
  | false => exact hcounted
  | true => exact hcounted.trans (hf t)

theorem within_handleAircMessage (s : Server) (m : Moment) (msg : AircFrame) :
    Within G s (s.handleAircMessage m src msg) := by
  unfold handleAircMessage
  dsimp only
  split
  · exact within_rfControl s m fun t => within_rfHello t m
  · refine within_rfControl s m fun t => ?_
    split
    · simp only [within_perform, within_self]
    · exact within_rfJoin (within_greet ((within_perform _).mpr (within_self t)))
  · refine within_rfControl s m fun t => ?_
    split
    · exact within_self t
    · exact (within_perform _).mpr (within_rfPart ..)
  · exact within_rfControl s m fun t => within_quitUser _ (within_self t)
  · split
    · exact within_rfMessage ..
    · exact within_self s
  · split
    · exact within_rfMessage ..
    · exact within_self s
  · refine within_rfControl s m fun t => ?_
    split_ifs
    · exact within_self t
    · split <;> simp only [within_perform, within_self]
  · refine within_rfControl s m fun t => ?_
    split_ifs <;> simp only [within_perform, within_self]
  all_goals exact within_self s

theorem within_firstContactOk {ok : Bool} (h : s.firstContactOk m src = (ok, t)) :
    Within G s t := by
  obtain rfl := congrArg Prod.snd h
  unfold firstContactOk
  split_ifs
  · exact within_self s
  · exact (within_withPolicy _).mpr (within_self s)

theorem within_handleAircFrame (s : Server) (m : Moment) (f : AircFrame) (forUs broadcast : Bool) :
    Within G s (s.handleAircFrame m src f forUs broadcast) := by
  unfold handleAircFrame
  split_ifs
  · exact within_self s
  · rcases hcontact : s.firstContactOk m src with ⟨ok, t⟩
    have hcounted : Within G s t := within_firstContactOk hcontact
    cases ok with
    | false => exact hcounted
    | true =>
      have hreceived : Within G s (t.perform (.receive src f m.now forUs)) :=
        (within_perform _).mpr hcounted
      dsimp only
      refine (within_perform _).mpr ?_
      split
      · exact hreceived
      · exact hreceived.trans (within_handleAircMessage ..)

/-! ### APRS frames -/

@[simp] theorem within_aprsAck (msg) : Within G s (t.aprsAck src msg) ↔ Within G s t := by
  unfold aprsAck
  split <;> simp only [within_perform]

@[simp] theorem within_aprsRejOrAck (msg) : Within G s (t.aprsRejOrAck src msg) ↔ Within G s t := by
  unfold aprsRejOrAck
  split <;> simp only [within_perform]

@[simp] theorem within_aprsRefuse (msg reply) :
    Within G s (t.aprsRefuse src msg reply) ↔ Within G s t := by
  simp only [aprsRefuse, within_perform, within_aprsAck]

theorem within_aprsPrivate (s : Server) (m : Moment) (msg : AprsMessage) (target : User)
    (body : Text) :
    Within G s (s.aprsPrivate m src msg target body) := by
  have hgreeted : Within G s (s.greet m src) := within_greet (within_self s)
  unfold aprsPrivate
  dsimp only
  split_ifs
  · simp only [within_aprsRefuse, within_self]
  · split <;> simpa only [within_aprsAck, within_send] using hgreeted

theorem within_aprsSpeak (s : Server) (m : Moment) (msg : AprsMessage) (user : User)
    (display body : Text) : Within G s (s.aprsSpeak m src msg user display body) := by
  unfold aprsSpeak
  dsimp only
  split_ifs <;> simp only [within_aprsAck, within_send, within_relay, within_self]

theorem within_aprsChannelLine (s : Server) (m : Moment) (msg : AprsMessage) (channel body : Text) :
    Within G s (s.aprsChannelLine m src msg channel body) := by
  have hgreeted : Within G s (s.greet m src) := within_greet (within_self s)
  unfold aprsChannelLine
  extract_lets display
  split
  · simp only [within_aprsRefuse, within_self]
  · split_ifs
    · simp only [within_aprsRefuse, within_self]
    · exact (within_aprsRefuse ..).mpr hgreeted
    · dsimp only
      split
      · exact (within_aprsAck _).mpr hgreeted
      · exact hgreeted.trans (within_aprsSpeak ..)
    · dsimp only
      split
      · exact (within_aprsAck _).mpr (within_rfJoin hgreeted)
      · exact (within_rfJoin hgreeted).trans (within_aprsSpeak ..)

theorem within_aprsText (s : Server) (m : Moment) (msg : AprsMessage) (text : Text) :
    Within G s (s.aprsText m src msg text) := by
  unfold aprsText
  split_ifs
  · simp only [within_aprsRefuse, within_self]
  · simp only [within_aprsRefuse, within_self]
  · split
    · exact within_aprsPrivate ..
    · split
      · simp only [within_aprsRefuse, within_self]
      · exact within_aprsChannelLine ..

theorem within_aprsFresh (s : Server) (m : Moment) (msg : AprsMessage) :
    Within G s (s.aprsFresh m src msg) := by
  unfold aprsFresh
  split_ifs
  · simp only [within_aprsRejOrAck, within_self]
  · split
    · exact within_aprsText ..
    · split_ifs
      · simp only [within_aprsAck, within_self]
      · exact Within.trans ((within_mk ..).mpr (within_self s)) (within_aprsText ..)

theorem within_handleAprsMessage (s : Server) (m : Moment) (msg : AprsMessage) :
    Within G s (s.handleAprsMessage m src msg) := by
  unfold handleAprsMessage
  split_ifs
  · exact within_self s
  · split <;> simp only [within_perform, within_self]
  · rcases hrate : s.rfStationRateOk m src with ⟨ok, t⟩
    have hcounted : Within G s t := within_rfStationRateOk hrate
    cases ok with
    | false => exact (within_perform _).mpr hcounted
    | true =>
      dsimp only
      rcases hcontact : t.firstContactOk m src with ⟨ok, r⟩
      have hmet : Within G s r := hcounted.trans (within_firstContactOk hcontact)
      cases ok with
      | false => exact hmet
      | true =>
        dsimp only
        split_ifs
        · exact (within_aprsAck _).mpr hmet
        · have hnoted : Within G s ((r.perform (.touch src m.now)).perform (.note src .aprs)) := by
            simpa only [within_perform] using hmet
          exact hnoted.trans (within_aprsFresh ..)

theorem within_handleAprsBeacon (s : Server) (m : Moment) (summary : Text) :
    Within G s (s.handleAprsBeacon m src summary) := by
  unfold handleAprsBeacon showBeacon
  split_ifs
  · exact within_self s
  · split
    · exact within_self s
    · dsimp only
      split_ifs <;> simp only [within_send, within_mk, within_self]

theorem within_handleRfFrame (s : Server) (reader : BeaconReader) (m : Moment) (f : Ax25Frame) :
    Within G s (s.handleRfFrame reader m f) := by
  have hcounted : Within G s { s with outlet := { s.outlet with framesRx := s.outlet.framesRx + 1 }
    } :=
    (within_mk ..).mpr (within_self s)
  refine hcounted.trans ?_
  unfold handleRfFrame
  dsimp only
  split
  · exact within_self _
  · exact within_handleAprsMessage ..
  · exact within_handleAprsBeacon ..
  · exact within_handleAircFrame ..

/-! ### Connections and the clock -/

theorem within_connect (hmay : G.enters (.ip id)) (s : Server) (m : Moment) (host : Text)
    (listenOnly : Bool) : Within G s (s.connect m id host listenOnly) := by
  unfold connect
  extract_lets counted o
  have hcounted : Within G s counted := (within_mk ..).mpr (within_self s)
  split_ifs
  · exact hcounted
  · let user : User := { User.new (.ip id) host m.now with listenOnly := listenOnly }
    have hnew : New G user.id user := by
      refine ⟨.inr hmay, fun mark hmark => ?_⟩
      cases mark <;> cases hmark
    refine (within_congr ?_ ?_).mpr (within_insert hnew hcounted) <;> rfl

theorem within_reapEvictedPeers (s : Server) (m : Moment) : Within G s (s.reapEvictedPeers m) :=
  within_foldl (fun s _ => within_quitUser _ (within_self s)) _
    ((within_perform _).mpr (within_self s))

theorem within_tickStations (s : Server) (m : Moment) : Within G s (s.tickStations m) := by
  refine within_foldl (fun s _ => within_quitUser _ (within_self s)) _ ?_
  simp only [within_perform, within_self]

theorem within_tickAir (s : Server) (m : Moment) : Within G s (s.tickAir m) := by
  unfold tickAir
  dsimp only
  simp only [within_perform, within_mk, within_withPolicy, within_self]

theorem within_expireUnregistered (s : Server) (m : Moment) : Within G s (s.expireUnregistered m) :=
  within_foldl (fun s _ => within_quitUser _ ((within_closeLink _).mpr (within_self s))) _
    (within_self s)

theorem within_identifyTimeout (h : Within G s t) : Within G s (t.identifyTimeout m uid) := by
  unfold identifyTimeout
  simp only [within_noticeUser, within_closeLink, within_quitUser, h]

theorem within_releaseNick (s : Server) (m : Moment) (uid : UserId) :
    Within G s (s.releaseNick m uid) := by
  unfold releaseNick
  extract_lets guest old released mask
  have hreleased : Within G s released := within_modifyUser (fun _ => .of_same rfl) (within_self s)
  split_ifs
  · exact within_identifyTimeout hreleased
  · split
    · exact within_identifyTimeout hreleased
    · rename_i st hset
      have hnamed : Within G s { released with state := st } := within_setNick hset hreleased
      extract_lets named told noticed
      have hnoticed : Within G s noticed := by
        simp only [noticed, told, within_noticeUser, within_send]
        exact hnamed
      exact within_refreshPrivileges hnoticed

theorem within_warnNickStoreFailures (s : Server) (m : Moment) :
    Within G s (s.warnNickStoreFailures m) := by
  unfold warnNickStoreFailures
  split_ifs
  · exact within_self s
  · exact within_foldl (fun s _ => (within_noticeUser _).mpr (within_self s)) _
      ((within_mk ..).mpr (within_self s))

theorem within_tick (s : Server) (m : Moment) : Within G s (s.tick m) := by
  have hbefore : Within G s (((s.tickStations m).tickAir m).expireUnregistered m) :=
    ((within_tickStations s m).trans (within_tickAir ..)).trans (within_expireUnregistered ..)
  have hreleased : Within G s
      ((((s.tickStations m).tickAir m).expireUnregistered m).expireUnidentified m) :=
    within_foldl (fun s uid => within_releaseNick s m uid) _ hbefore
  exact hreleased.trans (within_warnNickStoreFailures ..)

theorem within_shutdown (s : Server) (m : Moment) : Within G s (s.shutdown m) := by
  unfold shutdown
  simp only [within_send, within_perform, within_self]

end AccessEvents
