import Rfircd.PresenceNotices
import Rfircd.StationCallsigns
import Rfircd.StationRecords

/-! Listen-only connections and the transmitter.
They may watch a channel. That they come and go is told on the air all the same. -/
namespace ListenOnly

open Basics KeyedTable MessageText HostKey IrcMessage IrcState RadioGateway AirPolicy AirScreen
open Accounts ServerOutput ServerCore ServerCore.Server CallsignCascade CallsignOwners LateResults
open TransitionSystem PresenceNotices
open ServerSteps (recompute recompute_cases query_core admitted)
open StationRecords (broadcastPeers_core)

variable {s t : Server} {m : Moment} {uid : UserId} {id : ℕ} {user : User} {msg : Message}
  {cmd : String}

/-! ### Commands that touch no transmitter -/

/-- Only lines to clients and rate limits change. -/
def Mute (s t : Server) : Prop := t.outlet.core = s.outlet.core

theorem Mute.trans {r : Server} (h : Mute s t) (h' : Mute t r) : Mute s r := Eq.trans h' h

theorem mute_numeric (s : Server) (uid : UserId) (code : Text) (params : List Text) :
    Mute s (s.numeric uid code params) := Outlet.numeric_core ..

theorem mute_noticeUser (s : Server) (m : Moment) (id : ℕ) (text : Text) :
    Mute s (s.noticeUser m (.ip id) text) := rfl

theorem mute_closeLink (s : Server) (uid : UserId) (line : Text) : Mute s (s.closeLink uid line) := by
  cases uid <;> rfl

theorem mute_quitUser (s : Server) (m : Moment) (id : ℕ) (reason : Text) :
    Mute s (s.quitUser m (.ip id) reason) := by
  unfold quitUser
  cases s.user (.ip id) with
  | none => rfl
  | some u =>
    dsimp -zeta only
    extract_lets told channels air removed gone
    have htold : Mute s told := by
      unfold told
      split_ifs
      · exact broadcastPeers_core _ _ _ _ _ fun _ => rfl
      · rfl
    have hgone : Mute told gone := rfl
    refine (htold.trans hgone).trans ?_
    refine foldl_same (fun s : Server => s.outlet.core) (fun s c => ?_) gone channels
    split_ifs
    · rfl
    · exact Outlet.noticeRfAudience_core ..

theorem mute_welcome (s : Server) (m : Moment) (id : ℕ) (user : User) :
    Mute s (s.welcome m (.ip id) user) := by
  unfold welcome
  extract_lets s₁ s₂ s₃ s₄ s₅ s₆ s₇ s₈ s₉
  have h₅ : Mute s s₅ := ((((mute_numeric ..).trans (mute_numeric ..)).trans (mute_numeric ..)).trans
    (mute_numeric ..)).trans (mute_numeric ..)
  have h₆ : Mute s₅ s₆ := (Outlet.sendMotd_core ..).trans (Outlet.sendLusers_core ..)
  have h₇ : Mute s₆ s₇ := by
    unfold s₇
    split_ifs
    · exact mute_noticeUser ..
    · rfl
  have h₉ : Mute s₇ s₉ := (mute_noticeUser ..).trans (mute_noticeUser ..)
  have hall : Mute s s₉ := ((h₅.trans h₆).trans h₇).trans h₉
  split_ifs
  · exact hall.trans (mute_noticeUser ..)
  · exact hall

theorem mute_tryCompleteRegistration (s : Server) (m : Moment) (id : ℕ) :
    Mute s (s.tryCompleteRegistration m (.ip id)) := by
  unfold tryCompleteRegistration
  cases s.user (.ip id) with
  | none => rfl
  | some user =>
    dsimp only
    split_ifs
    · rfl
    · exact ((mute_numeric ..).trans (mute_closeLink ..)).trans (mute_quitUser ..)
    · have hregistered : Mute s (s.modifyUser (.ip id) fun u => { u with registered := true }) := rfl
      exact hregistered.trans (mute_welcome ..)

theorem mute_reapplyFlags (s : Server) (uid : UserId) : Mute s (s.reapplyFlags uid) := by
  refine foldl_same (fun s : Server => s.outlet.core) (fun s ch => ?_) s _
  rcases s.state.applyIntendedFlags uid ch with ⟨_ | ⟨old, new⟩, st⟩
  · rfl
  · have hmode : ∀ (s : Server) (changed : Prop) [Decidable changed] (changes : Text) (args : List Text),
        (if changed then s.announceMode ch s.cfg.name changes args else s).outlet.core =
          s.outlet.core := by
      intro s changed _ changes args
      split_ifs
      · exact announceMode_core ..
      · rfl
    exact (hmode ..).trans (hmode ..)

/-- Where nothing is restored, nobody else is told anything. -/
theorem mute_refreshPrivileges (h : restored s uid = none) : Mute s (s.refreshPrivileges m uid) := by
  rw [refreshPrivileges, refreshWith_kept h]
  have hrecomputed : Mute s (recompute s uid) := by
    rcases recompute_cases s uid with ⟨-, heq⟩ | ⟨u, c, -, heq⟩
    · rw [heq]
      rfl
    · rw [heq]
      rfl
  exact hrecomputed.trans (mute_reapplyFlags ..)

theorem mute_nickChange (s : Server) (m : Moment) (uid : UserId) (old mask new : Text) :
    Mute s (s.send fun o st => o.broadcastPeers st m uid (.nickChange old mask new) true) :=
  broadcastPeers_core _ _ _ _ _ fun _ => rfl

theorem mute_recaseNick (s : Server) (m : Moment) (id : ℕ) (user : User) (nick : Text) :
    Mute s (s.recaseNick m (.ip id) user nick) := by
  unfold recaseNick
  extract_lets named told
  have htold : Mute s told := by
    unfold told
    split_ifs
    · rfl
    · exact mute_nickChange named m (.ip id) ..
    · rfl
  split_ifs
  · exact htold
  · exact htold.trans (mute_tryCompleteRegistration ..)

/-- Nothing is restored to whoever is not known to own the nick. -/
theorem restored_unidentified {f : User → User} (hf : ∀ u, (f u).nickIdentified = false)
    (h : t.state = (s.modifyUser uid f).state) : restored t uid = none := by
  have huser : t.user uid = (s.user uid).map f := by
    have hmodify := State.user_modifyUser s.state uid f uid
    rw [if_pos rfl] at hmodify
    rw [Server.user, h]
    exact hmodify
  unfold restored
  rw [huser]
  cases s.user uid with
  | none => rfl
  | some u =>
    rw [Option.map_some, Option.bind_some, stored, hf, if_neg Bool.false_ne_true, ite_self]

/-- Whoever takes a nick is not known to own it, and nothing is restored. -/
theorem mute_takeNick (s : Server) (m : Moment) (id : ℕ) (user : User) (nick : Text) :
    Mute s (s.takeNick m (.ip id) user nick) := by
  unfold takeNick
  rcases hset : s.state.setNick (.ip id) nick with ⟨ok, st⟩
  cases ok with
  | false => exact mute_numeric ..
  | true =>
    dsimp -zeta only
    extract_lets claimed named taken told
    have htold : Mute s told := by
      unfold told
      split_ifs
      · exact mute_noticeUser taken m id _
      · rfl
    split_ifs
    · refine (htold.trans (mute_nickChange ..)).trans (mute_refreshPrivileges ?_)
      have hstate : told.state = taken.state := by
        unfold told
        split_ifs <;> rfl
      exact restored_unidentified (fun _ => rfl) hstate
    · exact htold.trans (mute_tryCompleteRegistration ..)

theorem mute_cmdNick (s : Server) (m : Moment) (id : ℕ) (msg : Message) :
    Mute s (s.cmdNick m (.ip id) msg) := by
  unfold cmdNick
  cases msg.param 0 with
  | none => exact mute_numeric ..
  | some nick =>
    dsimp only
    by_cases hvalid : isValidNick nick s.cfg.maxNickLen = true
    swap
    · rw [if_pos (by simpa using hvalid)]
      exact mute_numeric ..
    rw [if_neg (by simpa using hvalid)]
    by_cases hreserved : (reservedFromNick nick).isSome = true
    · rw [if_pos hreserved]
      exact mute_numeric ..
    rw [if_neg hreserved]
    cases s.user (.ip id) with
    | none => rfl
    | some user =>
      dsimp only
      split_ifs
      · exact mute_recaseNick ..
      · exact mute_numeric ..
      · exact mute_takeNick ..

theorem mute_cmdUser (s : Server) (m : Moment) (id : ℕ) (msg : Message) :
    Mute s (s.cmdUser m (.ip id) msg) := by
  unfold cmdUser
  by_cases hregistered : (s.user (.ip id)).any User.registered = true
  · rw [if_pos hregistered]
    exact mute_numeric ..
  rw [if_neg hregistered]
  split
  · split
    · exact mute_numeric ..
    · exact mute_tryCompleteRegistration ..
  · exact mute_numeric ..

theorem mute_cmdQuit (s : Server) (m : Moment) (id : ℕ) (msg : Message) :
    Mute s (s.cmdQuit m (.ip id) msg) :=
  (mute_closeLink ..).trans (mute_quitUser ..)

theorem mute_cmdPass (s : Server) (uid : UserId) (msg : Message) : Mute s (s.cmdPass uid msg) := by
  unfold cmdPass
  cases msg.param 0 with
  | none => exact mute_numeric ..
  | some given => rfl

theorem mute_cmdAway (s : Server) (uid : UserId) (msg : Message) : Mute s (s.cmdAway uid msg) := by
  unfold cmdAway
  extract_lets away marked
  have hmarked : Mute s marked := rfl
  split_ifs
  · exact hmarked.trans (mute_numeric ..)
  · exact hmarked.trans (mute_numeric ..)

/-- Whoever asks for a topic or for modes changes neither. -/
theorem mute_cmdTopic (hparam : msg.param 1 = none) : Mute s (s.cmdTopic m uid msg) := by
  unfold cmdTopic
  rw [hparam]
  cases msg.param 0 with
  | none => exact mute_numeric ..
  | some name =>
    dsimp only
    cases s.state.channel name with
    | none => exact mute_numeric ..
    | some chan => exact Outlet.sendTopic_core ..

theorem mute_cmdMode (hparam : msg.param 1 = none) : Mute s (s.cmdMode m uid msg) := by
  unfold cmdMode
  rw [hparam]
  cases msg.param 0 with
  | none => exact mute_numeric ..
  | some target =>
    dsimp only
    split_ifs
    · exact mute_numeric ..
    · exact mute_numeric ..
    · cases s.state.channel target with
      | none => exact mute_numeric ..
      | some chan => exact mute_numeric ..

/-- What `RADIO` is asked for. -/
def radioAsked (msg : Message) : String := String.ofList (((msg.param 0).getD "STATUS").map toAsciiUpper)

/-- An operator's `RADIO`, other than for its status. -/
def Operates (s : Server) (id : ℕ) (cmd : String) (msg : Message) : Prop :=
  cmd = "RADIO" ∧ radioAsked msg ≠ "STATUS" ∧ s.isOper (.ip id) = true

theorem mute_cmdRadio (h : ¬ Operates s id "RADIO" msg) : Mute s (s.cmdRadio m (.ip id) msg) := by
  unfold cmdRadio
  change Mute s (if radioAsked msg = "STATUS" then _ else _)
  by_cases hstatus : radioAsked msg = "STATUS"
  · rw [if_pos hstatus]
    exact Outlet.radioStatus_core ..
  · rw [if_neg hstatus]
    cases hoper : s.isOper (.ip id) with
    | true => exact absurd ⟨rfl, hstatus, hoper⟩ h
    | false =>
      rw [requireOper, hoper, if_neg Bool.false_ne_true]
      exact mute_numeric ..

/-! ### Coming and going -/

/-- One entry of a `JOIN` or a `PART`, or one channel left on `JOIN 0`. -/
inductive Passage where
  | enter (name key : Text)
  | leave (name reason : Text)
  | depart (key : Text)

/-- The name under which a channel is left on `JOIN 0`. -/
def nameOf (s : Server) (key : Text) : Text := (s.state.channels.get key).elim key Channel.name

def Passage.take (s : Server) (m : Moment) (uid : UserId) : Passage → Server
  | .enter name key => s.doJoin m uid name key
  | .leave name reason => s.doPart m uid name reason
  | .depart key => s.doPart m uid (nameOf s key) "Leaving"

/-- The air is told of it. -/
def Passage.Told (s : Server) (m : Moment) (uid : UserId) : Passage → Prop
  | .enter name key => Arrives s m uid name key
  | .leave name _ => Leaves s m uid name
  | .depart key => Leaves s m uid (nameOf s key)

theorem take_cases (s : Server) (m : Moment) (id : ℕ) (p : Passage) :
    Either (p.Told s m (.ip id)) s.outlet (p.take s m (.ip id)).outlet := by
  cases p with
  | enter name key => exact doJoin_cases ..
  | leave name reason => exact doPart_cases ..
  | depart key => exact doPart_cases ..

def takeAll (s : Server) (m : Moment) (uid : UserId) (passages : List Passage) : Server :=
  passages.foldl (fun s p => p.take s m uid) s

/-- The air is told of none of them, each in the state in which it is taken up. -/
def Unannounced (s : Server) (m : Moment) (uid : UserId) : List Passage → Prop
  | [] => True
  | p :: passages => ¬ p.Told s m uid ∧ Unannounced (p.take s m uid) m uid passages

theorem queued_le {told : Prop} {o o' : Outlet} (h : Either told o o') : queued o ≤ queued o' := by
  rcases h with ⟨-, hsilent⟩ | ⟨-, hless⟩
  · exact hsilent.queued.ge
  · exact hless.le

/-- What one entry has handed over, the next do not take back. -/
theorem takeAll_queued (s : Server) (m : Moment) (id : ℕ) (passages : List Passage) :
    queued s.outlet ≤ queued (takeAll s m (.ip id) passages).outlet := by
  induction passages generalizing s with
  | nil => exact le_rfl
  | cons p passages ih => exact (queued_le (take_cases s m id p)).trans (ih _)

theorem takeAll_cases (s : Server) (m : Moment) (id : ℕ) (passages : List Passage) :
    Either (¬ Unannounced s m (.ip id) passages) s.outlet (takeAll s m (.ip id) passages).outlet := by
  induction passages generalizing s with
  | nil => exact .inl ⟨not_not.mpr trivial, .refl _⟩
  | cons p passages ih =>
    rcases take_cases s m id p with ⟨hno, hsilent⟩ | ⟨hyes, hless⟩
    · rcases ih (p.take s m (.ip id)) with ⟨hnone, hrest⟩ | ⟨hsome, hmore⟩
      · exact .inl ⟨not_not.mpr ⟨hno, not_not.mp hnone⟩, hsilent.trans hrest⟩
      · exact .inr ⟨fun h => hsome h.2, hsilent.queued ▸ hmore⟩
    · exact .inr ⟨fun h => h.1 hyes, hless.trans_le (takeAll_queued ..)⟩

/-- The entries of a `JOIN`. -/
def joins (s : Server) (uid : UserId) (msg : Message) : List Passage :=
  match msg.param 0 with
  | none => []
  | some list =>
    if list = ['0'] then ((s.user uid).elim [] User.channels).map .depart
    else (splitOn ',' list).zipIdx.map fun e =>
      .enter e.1 ((splitOn ',' ((msg.param 1).getD [])).getD e.2 [])

/-- The entries of a `PART`. -/
def parts (msg : Message) : List Passage :=
  match msg.param 0 with
  | none => []
  | some list => (splitOn ',' list).map fun name => .leave name ((msg.param 1).getD "Leaving")

/-- The channels that a command enters or leaves, one after the other. -/
def passages (s : Server) (uid : UserId) (cmd : String) (msg : Message) : List Passage :=
  match cmd with
  | "JOIN" => joins s uid msg
  | "PART" => parts msg
  | _ => []

theorem cmdJoin_cases (s : Server) (m : Moment) (id : ℕ) (msg : Message) :
    Either (¬ Unannounced s m (.ip id) (joins s (.ip id) msg)) s.outlet
      (s.cmdJoin m (.ip id) msg).outlet := by
  have htake := takeAll_cases s m id (joins s (.ip id) msg)
  unfold cmdJoin
  unfold joins at htake ⊢
  cases hlist : msg.param 0 with
  | none => exact .inl ⟨not_not.mpr trivial, silent_of_core (Outlet.numeric_core ..)⟩
  | some list =>
    rw [hlist] at htake
    dsimp only at htake ⊢
    by_cases hall : list = ['0']
    · rw [if_pos hall] at htake ⊢
      rw [takeAll, List.foldl_map] at htake
      rwa [if_pos hall]
    · rw [if_neg hall] at htake ⊢
      rw [takeAll, List.foldl_map] at htake
      rwa [if_neg hall]

theorem cmdPart_cases (s : Server) (m : Moment) (id : ℕ) (msg : Message) :
    Either (¬ Unannounced s m (.ip id) (parts msg)) s.outlet (s.cmdPart m (.ip id) msg).outlet := by
  have htake := takeAll_cases s m id (parts msg)
  unfold cmdPart
  unfold parts at htake ⊢
  cases hlist : msg.param 0 with
  | none => exact .inl ⟨not_not.mpr trivial, silent_of_core (Outlet.numeric_core ..)⟩
  | some list =>
    rw [hlist] at htake
    dsimp only at htake ⊢
    rw [takeAll, List.foldl_map] at htake
    exact htake

/-! ### Commands -/

/-- What a listen-only connection may ask of the server, other than to come and go. -/
theorem mute_command (s : Server) (m : Moment) (id : ℕ) (msg : Message)
    (hcmd : listenOnlyCommand cmd msg = true) (hoper : ¬ Operates s id cmd msg)
    (hjoin : cmd ≠ "JOIN") (hpart : cmd ≠ "PART") : Mute s (s.command m id msg cmd) := by
  have hasks : ∀ cmd, (cmd = "MODE" ∨ cmd = "TOPIC") → listenOnlyCommand cmd msg = true →
      msg.param 1 = none := by
    rintro cmd (rfl | rfl) h <;> exact Option.isNone_iff_eq_none.mp h
  unfold command
  extract_lets uid
  split
  · exact mute_cmdPass ..
  · exact mute_cmdNick ..
  · exact mute_cmdUser ..
  · exact mute_cmdQuit ..
  · exact absurd rfl hjoin
  · exact absurd rfl hpart
  · cases hcmd
  · cases hcmd
  · exact mute_cmdTopic (hasks _ (.inr rfl) hcmd)
  · exact mute_cmdMode (hasks _ (.inl rfl) hcmd)
  · exact mute_cmdAway ..
  · cases hcmd
  · cases hcmd
  · exact mute_cmdRadio hoper
  · cases hcmd
  · cases hcmd
  · cases hcmd
  · cases hcmd
  · cases hcmd
  · cases hcmd
  · cases hcmd
  · cases hcmd
  · cases hcmd
  · cases hcmd
  · cases hcmd
  · cases hcmd
  · split
    · rename_i hquery
      exact query_core hquery
    · exact mute_numeric ..

theorem passages_none (s : Server) (uid : UserId) (msg : Message) (hjoin : cmd ≠ "JOIN")
    (hpart : cmd ≠ "PART") : passages s uid cmd msg = [] := by
  unfold passages
  split
  · exact absurd rfl hjoin
  · exact absurd rfl hpart
  · rfl

/-- A command that is let through tells the air of the channels that it enters or leaves, or of
nothing. -/
theorem command_cases (s : Server) (m : Moment) (id : ℕ) (msg : Message)
    (hcmd : listenOnlyCommand cmd msg = true) (hoper : ¬ Operates s id cmd msg) :
    Either (¬ Unannounced s m (.ip id) (passages s (.ip id) cmd msg)) s.outlet
      (s.command m id msg cmd).outlet := by
  by_cases hjoin : cmd = "JOIN"
  · subst hjoin
    exact cmdJoin_cases s m id msg
  by_cases hpart : cmd = "PART"
  · subst hpart
    exact cmdPart_cases s m id msg
  rw [passages_none s (.ip id) msg hjoin hpart]
  exact .inl ⟨not_not.mpr trivial, silent_of_core (mute_command s m id msg hcmd hoper hjoin hpart)⟩

/-! ### Lines -/

/-- The air is told nothing of a line: no operator works the radio with it, and of the channels that it
enters or leaves none is announced. -/
def Discreet (s : Server) (m : Moment) (id : ℕ) (line : Text) : Prop :=
  ∀ msg, Message.parse line = some msg → Heeded s m id msg →
    ¬ Operates s id (String.ofList msg.command) msg ∧
      Unannounced (admitted s m id) m (.ip id)
        (passages (admitted s m id) (.ip id) (String.ofList msg.command) msg)

theorem mute_active (s : Server) (m : Moment) (id : ℕ) :
    Mute s (s.modifyUser (.ip id) fun u => { u with lastActive := m.now }) := rfl

theorem isOper_active (s : Server) (m : Moment) (id : ℕ) :
    Server.isOper (s.modifyUser (.ip id) fun u => { u with lastActive := m.now }) (.ip id) =
      s.isOper (.ip id) := by
  have huser := State.user_modifyUser s.state (.ip id) (fun u => { u with lastActive := m.now }) (.ip id)
  rw [if_pos rfl] at huser
  change (State.user _ _).any User.oper = (s.state.user (.ip id)).any User.oper
  rw [modifyUser, huser]
  cases s.state.user (.ip id) <;> rfl

/-- The flood limit does not concern the air, and the commands that it does not concern enter and leave
nothing. -/
theorem counted_command (msg : Message) {ok : Bool} {cmd : String} (h : (s.modifyUser (.ip id) fun u =>
    { u with lastActive := m.now }).cmdRateOk m id cmd = (ok, t)) :
    Mute s t ∧ t.isOper (.ip id) = s.isOper (.ip id) ∧
      (passages t (.ip id) cmd msg = [] ∧ passages (admitted s m id) (.ip id) cmd msg = [] ∨
        t = admitted s m id) := by
  unfold cmdRateOk at h
  by_cases hfree : unlimitedCommand cmd = true
  · rw [if_pos hfree] at h
    obtain ⟨-, rfl⟩ := Prod.mk.inj h
    have hother : cmd ≠ "JOIN" ∧ cmd ≠ "PART" := by
      constructor
      · rintro rfl
        cases hfree
      · rintro rfl
        cases hfree
    exact ⟨mute_active s m id, isOper_active s m id, .inl ⟨passages_none _ _ msg hother.1 hother.2,
      passages_none _ _ msg hother.1 hother.2⟩⟩
  · rw [if_neg hfree] at h
    obtain ⟨-, rfl⟩ := Prod.mk.inj h
    exact ⟨rfl, isOper_active s m id, .inr rfl⟩

/-- A line that is turned down is discreet. -/
theorem discreet_of_unheeded {line : Text} (hparse : Message.parse line = some msg)
    (h : ¬ Heeded s m id msg) : Discreet s m id line := by
  intro msg' hparse' hheeded
  obtain rfl := Option.some.inj (hparse.symm.trans hparse')
  exact absurd hheeded h

/-- As long as no operator works the radio, a line of a listen-only connection tells the air of the
channels that it enters or leaves, or of nothing. -/
theorem handleLine_cases (line : Text) (huser : s.user (.ip id) = some user)
    (hlisten : user.listenOnly = true) (hoper : ∀ msg, Message.parse line = some msg →
      Heeded s m id msg → ¬ Operates s id (String.ofList msg.command) msg) :
    Either (¬ Discreet s m id line) s.outlet (s.handleLine m id line).outlet := by
  unfold handleLine
  cases hparse : Message.parse line with
  | none =>
    refine .inl ⟨not_not.mpr fun msg h => ?_, .refl _⟩
    cases hparse.symm.trans h
  | some msg =>
    have hrefused : ∀ t : Server, ¬ Heeded s m id msg → Mute s t →
        Either (¬ Discreet s m id line) s.outlet t.outlet := fun t hno hmute =>
      .inl ⟨not_not.mpr (discreet_of_unheeded hparse hno), silent_of_core hmute⟩
    dsimp only
    unfold handleClientMessage
    extract_lets uid cmd active
    rw [huser]
    dsimp only
    rcases hrate : active.cmdRateOk m id cmd with ⟨ok, t⟩
    obtain ⟨hmute, hsame, hpassages⟩ := counted_command msg hrate
    cases ok with
    | false =>
      refine hrefused _ ?_ hmute
      rintro ⟨-, -, -, -, hok⟩
      rw [hrate] at hok
      cases hok
    | true =>
      dsimp only
      by_cases hregistered : (!user.registered && !handshakeCommand cmd) = true
      · rw [if_pos hregistered]
        refine hrefused _ ?_ (hmute.trans (mute_numeric ..))
        rintro ⟨u, hu, hreg, -⟩
        obtain rfl := Option.some.inj (huser.symm.trans hu)
        rcases hreg with hreg | hreg <;> simp_all [cmd]
      rw [if_neg hregistered]
      by_cases hspeaks : (user.listenOnly && !listenOnlyCommand cmd msg) = true
      · rw [if_pos hspeaks]
        refine hrefused _ ?_ (hmute.trans (mute_numeric ..))
        rintro ⟨u, hu, -, hlet, -⟩
        obtain rfl := Option.some.inj (huser.symm.trans hu)
        rcases hlet with hlet | hlet <;> simp_all [cmd]
      rw [if_neg hspeaks]
      have hheeded : Heeded s m id msg := by
        refine ⟨user, huser, ?_, ?_, congrArg Prod.fst hrate⟩
        · cases hreg : user.registered <;> simp_all [cmd]
        · cases hcmd : listenOnlyCommand cmd msg <;> simp_all [cmd]
      have hcmd : listenOnlyCommand cmd msg = true := by simpa [hlisten] using hspeaks
      have hidle := hoper msg hparse hheeded
      have hidle' : ¬ Operates t id cmd msg := fun h => hidle ⟨h.1, h.2.1, hsame ▸ h.2.2⟩
      have hdiscreet : Discreet s m id line ↔ Unannounced (admitted s m id) m (.ip id)
          (passages (admitted s m id) (.ip id) cmd msg) := by
        constructor
        · intro h
          exact (h msg hparse hheeded).2
        · rintro h msg' hparse' -
          obtain rfl := Option.some.inj (hparse.symm.trans hparse')
          exact ⟨hidle, h⟩
      have htold : Unannounced t m (.ip id) (passages t (.ip id) cmd msg) ↔
          Unannounced (admitted s m id) m (.ip id) (passages (admitted s m id) (.ip id) cmd msg) := by
        rcases hpassages with ⟨hnone, hnone'⟩ | heq
        · rw [hnone, hnone']
          exact Iff.rfl
        · rw [heq]
      rcases command_cases t m id msg hcmd hidle' with ⟨hno, hsilent⟩ | ⟨hyes, hless⟩
      · refine .inl ⟨not_not.mpr (hdiscreet.mpr (htold.mp (not_not.mp hno))), ?_⟩
        exact (silent_of_core hmute).trans hsilent
      · refine .inr ⟨fun h => hyes (htold.mpr (hdiscreet.mp h)), ?_⟩
        exact (silent_of_core hmute).queued ▸ hless

/-- That a listen-only connection ends is not told on the air. One of its lines reaches the transmitter
exactly if a channel that it enters or leaves is announced there; nobody on it is an operator. -/
theorem watchers_are_silent (s : Server) (m : Moment) (id : ℕ) (user : User)
    (huser : s.user (.ip id) = some user) (hlisten : user.listenOnly = true) :
    (∀ reason, Silent s.outlet (s.quitUser m (.ip id) reason).outlet) ∧
    (∀ line, Discreet s m id line → Silent s.outlet (s.handleLine m id line).outlet) ∧
    (user.oper = false → ∀ line, Silent s.outlet (s.handleLine m id line).outlet →
      Discreet s m id line) := by
  refine ⟨fun reason => silent_of_core (mute_quitUser ..), fun line h => ?_, fun hoper line h => ?_⟩
  · rcases handleLine_cases line huser hlisten (fun msg hparse hheeded => (h msg hparse hheeded).1) with
      ⟨-, hsilent⟩ | ⟨hyes, -⟩
    · exact hsilent
    · exact absurd h hyes
  · have hidle : s.isOper (.ip id) = false := by
      rw [isOper, huser]
      exact hoper
    rcases handleLine_cases line huser hlisten
      (fun msg _ _ hoperates => by cases hidle.symm.trans hoperates.2.2) with ⟨hno, -⟩ | ⟨-, hless⟩
    · exact not_not.mp hno
    · exact absurd h.queued hless.ne'

/-! ### A watcher -/

/-- Anna watches over a plain connection. -/
def watched : List ServerRuns.Event := ServerRuns.Small.joins 1 "anna" true

def watching : Server := ServerRuns.Small.run watched

/-- She enters the bridged channel, and everyone in range is told. -/
theorem watcher_keys_the_transmitter :
    ServerRuns.Small.Feasible (watched ++ [.line 1 "JOIN #rf"]) ∧
      (watching.user (.ip 1)).any (fun u => u.listenOnly && !u.oper) = true ∧
      ¬ Silent watching.outlet (watching.handleLine (ServerRuns.Small.second 4) 1 "JOIN #rf").outlet := by
  refine ⟨by decide +kernel, by decide +kernel, fun h => ?_⟩
  have hqueued := h.queued
  have hbefore : queued watching.outlet = 0 := by decide +kernel
  have hafter : queued (watching.handleLine (ServerRuns.Small.second 4) 1 "JOIN #rf").outlet = 1 := by
    decide +kernel
  omega

/-- What she does otherwise is not told, and that is why her entry is. -/
theorem watchers_are_silent_anna :
    Silent watching.outlet (watching.quitUser (ServerRuns.Small.second 4) (.ip 1) "gone").outlet ∧
      Silent watching.outlet (watching.handleLine (ServerRuns.Small.second 4) 1 "JOIN rf").outlet ∧
      ¬ Discreet watching (ServerRuns.Small.second 4) 1 "JOIN #rf" := by
  have hlistens : (watching.user (.ip 1)).any User.listenOnly = true := by decide +kernel
  obtain ⟨u, hu, hlisten⟩ := Option.any_eq_true .. |>.mp hlistens
  have hsilent := watchers_are_silent watching (ServerRuns.Small.second 4) 1 u hu hlisten
  refine ⟨hsilent.1 "gone", ?_, fun h => ?_⟩
  · refine hsilent.2.1 "JOIN rf" fun msg hparse _ => ?_
    have hmsg : Message.parse "JOIN rf" = some ⟨none, "JOIN", ["rf"]⟩ := by decide +kernel
    obtain rfl := Option.some.inj (hmsg.symm.trans hparse)
    have hname : ¬ isChannelName ['r', 'f'] = true := by decide +kernel
    refine ⟨fun h => ?_, fun h => hname h.1.channel, trivial⟩
    exact absurd h.1 (by decide +kernel)
  · have hqueued := (hsilent.2.1 "JOIN #rf" h).queued
    have hbefore : queued watching.outlet = 0 := by decide +kernel
    have hafter : queued (watching.handleLine (ServerRuns.Small.second 4) 1 "JOIN #rf").outlet = 1 := by
      decide +kernel
    omega

end ListenOnly
