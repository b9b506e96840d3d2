import Rfircd.ModeLines

/-! Who decides what is bridged.
Only commands of control operators change what a channel radiates. Whoever is operator of a bridged
channel follows from the configuration and from accounts, or was made one by a control operator
after the channel had become bridged. -/
namespace BridgeControl

open Basics KeyedTable MessageText HostKey IrcMessage IrcState AirScreen Accounts ServerOutput
open ServerCore ServerCore.Server Bridge ServerRuns ServerInvariants StateConsistency
open StationRecords ChannelStatus BridgedOperators ModeLines TransitionSystem
open ServerSteps hiding Entitled

variable {L : Licence} {verifies : Text → Text → Prop} {reader : BeaconReader}
variable {st : State} {s t r : Server} {uid : UserId} {k : Text} {c d : Channel}
variable {e : Moment × ServerRuns.Event} {m : Moment} {msg : Message} {held : UserId → Text → Bool}

/-! ### What was given -/

/-- The mode line of a control operator that is carried out. -/
def operatorLine (s : Server) (e : Moment × ServerRuns.Event) : Option Message :=
  match e.2 with
  | .line id line =>
    (Message.parse line).filter fun msg => decide (String.ofList msg.command = "MODE") &&
      (s.user (.ip id)).any fun u => u.oper && u.registered &&
        !(u.listenOnly && !listenOnlyCommand "MODE" msg) &&
        (s.outlet.policy.ipCmdRateOk (natText id) e.1.now).1
  | _ => none

/-- Whether a control operator made the user operator of the channel since it is bridged, after an
event. -/
def gives (s : Server) (e : Moment × ServerRuns.Event) (uid : UserId) (k : Text) (held : Bool) : Bool :=
  match operatorLine s e with
  | none => held
  | some msg =>
    match (msg.param 0).filter isChannelName, msg.param 1 with
    | some target, some changes =>
      if lower target = k then
        match s.state.channels.get k with
        | some chan =>
          (changes.foldl (Reading.letter msg (called s.state uid)) ⟨true, 2, chan.rf, held⟩).given
        | none => held
      else held
    | _, _ => held

/-- Operator of a bridged channel. -/
def operates (s : Server) (uid : UserId) (k : Text) : Bool :=
  (s.state.channels.get k).any fun c => c.rf && (c.members.get uid).any MemberFlags.op

/-- A control operator made the user operator of the channel since it is bridged, and the user has
been that ever since. -/
def empowered (reader : BeaconReader) (uid : UserId) (k : Text) :
    Server → Bool → List (Moment × ServerRuns.Event) → Bool
  | _, held, [] => held
  | s, held, e :: es =>
    let t := s.next reader e
    empowered reader uid k t (operates t uid k && gives s e uid k held) es

/-- Who is operator of a bridged channel is what is on record. -/
abbrev Recorded (held : UserId → Text → Bool) (s : Server) : Prop :=
  Governed (fun uid k => held uid k = true) (fun _ _ => False) s.state

theorem Recorded.operates (h : Recorded held s) :
    Recorded (fun uid k => operates s uid k && held uid k) s := by
  intro k c uid f hc hrf hf
  obtain ⟨hop, hmanual⟩ := h k c uid f hc hrf hf
  refine ⟨hop, fun hhand => ?_⟩
  obtain ⟨hopped, hheld⟩ := hmanual hhand
  refine ⟨hopped, ?_⟩
  simp [BridgeControl.operates, hc, hrf, hf, hopped, hheld]

/-! ### Events -/

/-- A licence for all but modes and nicks that are given up. -/
def opening : Licence := { anything with changes := fun c => c = .creates }

theorem opening_lenient : Lenient opening :=
  ⟨⟨fun _ _ => trivial, fun _ => trivial, fun _ => trivial, fun _ => trivial, fun _ => trivial⟩,
    fun _ _ => trivial, fun _ _ => trivial, fun _ => trivial, fun _ => trivial⟩

theorem opening_recorded (hsteps : Steps opening s t) (hs : Grounded s) (hl : Linked s.state)
    (h : Recorded held s) : Recorded held t :=
  steps_governed hsteps (fun h => by cases h) (fun _ h => by cases h) hs.standing hl h

/-- Neither a mode line nor a nick that is given up. -/
def Ordinary (e : ServerRuns.Event) : Prop := ∀ c, EventAlters e c → c = .creates

theorem gives_none (h : operatorLine s e = none) (uid : UserId) (k : Text) (held : Bool) :
    gives s e uid k held = held := by
  rw [gives, h]

/-- A mode line of a control operator. -/
theorem cmdMode_operator (m : Moment) (msg : Message) (hoper : s.isOper uid = true) :
    (s.cmdMode m uid msg).state =
      match (msg.param 0).filter isChannelName, msg.param 1 with
      | some target, some changes =>
        match s.state.channel target with
        | some chan => (s.changeModes m ⟨uid, msg, chan, true⟩ changes).state
        | none => s.state
      | _, _ => s.state := by
  unfold cmdMode
  cases htarget : msg.param 0 with
  | none => rfl
  | some target =>
    dsimp only
    cases hname : isChannelName target with
    | false =>
      rw [if_pos (by decide), Option.filter_eq_none_iff.mpr (by simpa using hname)]
      split_ifs <;> rfl
    | true =>
      rw [Option.filter_some, if_pos hname, if_neg (by simp)]
      cases hchan : s.state.channel target with
      | none =>
        cases msg.param 1 with
        | none => rfl
        | some changes =>
          dsimp only
          rw [hchan]
          rfl
      | some chan =>
        cases hchanges : msg.param 1 with
        | none => rfl
        | some changes =>
          dsimp only
          rw [hoper, if_neg (by simp), hchan]

theorem operatorLine_spec (h : operatorLine s e = some msg) : ∃ id line u, e.2 = .line id line ∧
    Message.parse line = some msg ∧ String.ofList msg.command = "MODE" ∧
    s.user (.ip id) = some u ∧ u.oper = true ∧
    s.handleLine e.1 id line = (admitted s e.1 id).cmdMode e.1 (.ip id) msg := by
  unfold operatorLine at h
  split at h
  · rename_i id line he
    obtain ⟨hparse, hwho⟩ := Option.filter_eq_some_iff.mp h
    simp only [Bool.and_eq_true, decide_eq_true_eq] at hwho
    obtain ⟨hmode, hwho⟩ := hwho
    obtain ⟨u, hu, hwho⟩ := (Option.any_eq_true _ _).mp hwho
    simp only [Bool.and_eq_true, Bool.not_eq_true'] at hwho
    obtain ⟨⟨⟨hoper, hreg⟩, hspeaks⟩, hrate⟩ := hwho
    exact ⟨id, line, u, he, hparse, hmode, hu, hoper,
      handleLine_command hparse hmode hu hreg hspeaks rfl hrate⟩
  · cases h

theorem admitted_called (s : Server) (m : Moment) (id : ℕ) (uid : UserId) :
    called (admitted s m id).state uid = called s.state uid := by
  funext who
  rw [called, admitted_findTarget]
  rfl

/-- A mode line of a control operator gives what the reading says. -/
theorem operatorLine_recorded (hs : Grounded s) (hl : Linked s.state)
    (hline : operatorLine s e = some msg) (h : Recorded held s) :
    Recorded (fun uid k => gives s e uid k (held uid k)) (handled reader s e) := by
  obtain ⟨id, line, u, he, -, -, hu, hoper, heq⟩ := operatorLine_spec hline
  have hhandled : handled reader s e = (admitted s e.1 id).cmdMode e.1 (.ip id) msg := by
    rw [← heq, handled, he]
  have hsteps : Steps opening s (admitted s e.1 id) := admitted_steps ..
  have hadmitted : Recorded held (admitted s e.1 id) := opening_recorded hsteps hs hl h
  have hchannels : (admitted s e.1 id).state.channels = s.state.channels :=
    State.channels_modifyUser ..
  have hisOper : (admitted s e.1 id).isOper (.ip id) = true := by
    rw [isOper, admitted_user, if_pos rfl, hu]
    exact hoper
  rw [Recorded, hhandled, cmdMode_operator _ _ hisOper]
  simp only [gives, hline]
  split
  · rename_i target changes htarget hchanges
    rw [State.channel, hchannels]
    split
    · rename_i chan hchan
      have hname : lower chan.name = lower target := hs.named _ chan hchan
      have hheld : ∀ uid, held uid (lower chan.name) = true →
          (fun uid => held uid (lower target)) uid = true := by
        intro uid huid
        rwa [hname] at huid
      have hgoverned := changeModes_governed e.1 changes (rfl : (⟨.ip id, msg, chan, true⟩ : ModeChange).oper = _)
        (steps_grounded hsteps hs)
        (steps_linked hsteps hs.standing hl) (by rw [State.channel, hchannels, hname]; exact hchan)
        hheld hadmitted
      refine hgoverned.mono (fun uid k hk => ?_) fun _ _ h => h
      dsimp only at hk
      rw [hname] at hk
      by_cases hkey : k = lower target
      · subst hkey
        rw [if_pos rfl, admitted_called] at hk
        rw [if_pos rfl, hchan]
        exact hk
      · rw [if_neg hkey] at hk
        rw [if_neg fun heq => hkey heq.symm]
        exact hk
    · rename_i hnone
      refine hadmitted.mono (fun uid k hk => ?_) fun _ _ h => h
      split_ifs with hkey
      · subst hkey
        rw [hnone]
        exact hk
      · exact hk
  · exact hadmitted

/-- A mode line of anybody else. -/
theorem cmdMode_minor (m : Moment) (msg : Message) (hn : Named s) (hoper : s.isOper uid = false) :
    MinorState s.state (s.cmdMode m uid msg).state := by
  unfold cmdMode
  split
  · exact .refl _
  · split_ifs
    · exact .refl _
    · exact .refl _
    · split
      · exact .refl _
      · exact .refl _
      · rename_i chan changes hchan hchanges
        split_ifs
        · exact .refl _
        · exact changeModes_minor m changes hoper (hn.lookup hchan)

theorem minor_governed {given pending : UserId → Text → Prop} {st' : State} (h : MinorState st st')
    (hg : Governed given pending st) : Governed given pending st' := by
  intro k d uid g hd hrf hg'
  cases hc : st.channels.get k with
  | none => exact absurd ((h.absent k hc).symm.trans hd) (by simp)
  | some c =>
    obtain ⟨d', hd', hminor⟩ := h.channels k c hc
    obtain rfl := Option.some.inj (hd'.symm.trans hd)
    have hon : c.rf = true := hminor.rf.symm.trans hrf
    have hmember := hminor.members hon uid
    rw [hg', Option.map_some] at hmember
    obtain ⟨f, hf, hsame⟩ := Option.map_eq_some_iff.mp hmember.symm
    obtain ⟨hop, hmanual⟩ := Prod.mk.inj hsame
    have hold := hg k c uid f hc hon hf
    rw [hop, hmanual] at hold
    rw [entitled, State.user, h.users, hminor.operators]
    exact hold

/-! ### Events of anybody else -/

theorem isOper_modifyUser (s : Server) (id : ℕ) {change : User → User}
    (h : ∀ u, (change u).oper = u.oper) :
    (s.modifyUser (.ip id) change).isOper (.ip id) = s.isOper (.ip id) := by
  rw [isOper, isOper, Server.user, modifyUser, State.user_modifyUser, if_pos rfl]
  cases hu : s.user (.ip id) with
  | none =>
    rw [Server.user] at hu
    rw [hu]
    rfl
  | some u =>
    rw [Server.user] at hu
    rw [hu]
    exact h u

/-- A mode line that is carried out and is not on record is of nobody who is an operator. -/
theorem operatorLine_none {id : ℕ} {line : Text} {u : User} (hnone : operatorLine s e = none)
    (he : e.2 = .line id line) (hparse : Message.parse line = some msg)
    (hmode : String.ofList msg.command = "MODE") (hu : s.user (.ip id) = some u)
    (hreg : u.registered = true) (hspeaks : (u.listenOnly && !listenOnlyCommand "MODE" msg) = false)
    (hrate : (s.outlet.policy.ipCmdRateOk (natText id) e.1.now).1 = true) : u.oper = false := by
  rw [operatorLine, he] at hnone
  dsimp only at hnone
  rw [hparse, Option.filter_eq_none_iff] at hnone
  cases hoper : u.oper with
  | false => rfl
  | true =>
    refine absurd ?_ (hnone msg rfl)
    rw [hu, Option.any_some, hoper, hreg, hspeaks, hrate, hmode]
    rfl

/-- What a line of anybody but an operator keeps, if it is a mode line. -/
theorem modeLine_minor {id : ℕ} {line : Text} (hs : Grounded s) (hnone : operatorLine s e = none)
    (he : e.2 = .line id line) (hparse : Message.parse line = some msg)
    (hmode : String.ofList msg.command = "MODE") :
    (∀ L : Licence, Steps L s (handled reader s e)) ∨
      ∃ t, (∀ L : Licence, Steps L s t) ∧ t.state.channels = s.state.channels ∧
        MinorState t.state (handled reader s e).state := by
  have hhandled : handled reader s e = s.handleClientMessage e.1 id msg := by
    rw [handled, he]
    dsimp only
    unfold handleLine
    rw [hparse]
  rw [hhandled]
  rcases handleClientMessage_cases s e.1 id msg with hrefused | ⟨u, t, hu, hreg, hspeaks, hrate, heq⟩
  · exact .inl hrefused
  · right
    rw [hmode] at hreg hspeaks hrate heq
    have hcount : (s.outlet.policy.ipCmdRateOk (natText id) e.1.now).1 = true := congrArg Prod.fst hrate
    have hoper := operatorLine_none hnone he hparse hmode hu (hreg rfl) hspeaks hcount
    have hsteps : ∀ L : Licence, Steps L s t := fun L => (counted_steps hrate).1
    have hstate := (counted_steps (L := anything) hrate).2
    refine ⟨t, hsteps, ?_, ?_⟩
    · rw [hstate]
      exact State.channels_modifyUser ..
    · rw [heq]
      refine cmdMode_minor e.1 msg (steps_named (hsteps anything) hs.named) ?_
      have hisOper : isOper (s.modifyUser (.ip id) fun u => { u with lastActive := e.1.now }) (.ip id) =
          isOper s (.ip id) := isOper_modifyUser s id fun _ => rfl
      rw [isOper, Server.user, hstate, ← Server.user, ← isOper, hisOper, isOper, hu]
      exact hoper

/-- A command that is let through. -/
theorem command_recorded {id : ℕ} {line : Text} (hs : Grounded s) (hl : Linked s.state)
    (he : e.2 = .line id line) (hparse : Message.parse line = some msg)
    (hcommand : ∀ t, Grounded t → Linked t.state → Recorded held t →
      Recorded held (t.command e.1 id msg (String.ofList msg.command)))
    (h : Recorded held s) : Recorded held (handled reader s e) := by
  have hhandled : handled reader s e = s.handleClientMessage e.1 id msg := by
    rw [handled, he]
    dsimp only
    unfold handleLine
    rw [hparse]
  rw [hhandled]
  rcases handleClientMessage_cases s e.1 id msg with hrefused | ⟨u, t, -, -, -, hrate, heq⟩
  · exact opening_recorded (hrefused _) hs hl h
  · have hsteps : Steps opening s t := (counted_steps hrate).1
    rw [heq]
    exact hcommand t (steps_grounded hsteps hs) (steps_linked hsteps hs.standing hl)
      (opening_recorded hsteps hs hl h)

theorem finishJob_recorded (m : Moment) {job : Job} {result : Except AccountError (Option Text)}
    (hkind : job.kind = .unregister) (hs : Grounded s) (hl : Linked s.state)
    (h : Recorded held s) : Recorded held (s.finishJob m job result) := by
  unfold finishJob finishAuth
  rw [hkind]
  dsimp only
  split
  · exact h
  · rename_i user hu
    split_ifs
    · exact h
    · cases result with
      | error err => exact h
      | ok v =>
        have hdone : Step anything s { s with jobs := s.jobs.erase job } := .done
        dsimp only
        exact finishUnregister_governed m ⟨step_standing hdone hs.standing, hs.named, hs.topics⟩ hl hu h

/-- Whatever else happens keeps what is on record. -/
theorem other_recorded (hs : Grounded s) (hl : Linked s.state) (he : ServerRuns.Enabled verifies s e)
    (hnone : operatorLine s e = none) (h : Recorded held s) : Recorded held (handled reader s e) := by
  by_cases hordinary : Ordinary e.2
  · have hsteps : Steps opening s (handled reader s e) :=
      handled_steps hs.standing hs.named he (fun _ => trivial)
        (lenient_licensed opening_lenient hs.standing he (fun _ _ _ _ _ => trivial) hordinary)
    exact opening_recorded hsteps hs hl h
  · unfold Ordinary at hordinary
    push Not at hordinary
    obtain ⟨c, hc, hne⟩ := hordinary
    obtain ⟨m, e⟩ := e
    cases e with
    | line id line =>
      obtain ⟨msg, hparse, halters⟩ := hc
      have hcommand (hdone : ∀ t, Grounded t → Linked t.state → Recorded held t →
          Recorded held (t.command m id msg (String.ofList msg.command))) (h : Recorded held s) :
          Recorded held (handled reader s (m, .line id line)) :=
        command_recorded hs hl rfl hparse hdone h
      generalize hcmd : String.ofList msg.command = cmd at halters hcommand
      cases halters with
      | modes =>
        rcases modeLine_minor hs hnone rfl hparse hcmd with hrefused | ⟨t, ht, -, hminor⟩
        · exact opening_recorded (hrefused _) hs hl h
        · exact minor_governed hminor (opening_recorded (ht _) hs hl h)
      | joins => exact absurd rfl hne
      | renames => exact hcommand (fun t ht hlt h => cmdNick_governed m id msg ht hlt h) h
      | drops => exact hcommand (fun t ht hlt h => cmdDropnick_governed m msg ht hlt h) h
    | authFinished job result => exact finishJob_recorded m hc.1 hs hl h
    | _ => exact hc.elim

/-- What is on record after an event. -/
theorem next_recorded (hs : Grounded s) (hl : Linked s.state) (he : ServerRuns.Enabled verifies s e)
    (h : Recorded held s) :
    Recorded (fun uid k => operates (s.next reader e) uid k && gives s e uid k (held uid k))
      (s.next reader e) := by
  have hsteps : Steps anything s (handled reader s e) :=
    handled_steps hs.standing hs.named he (fun _ => trivial)
      (lenient_licensed anything_lenient hs.standing he (fun _ _ _ _ _ => trivial) fun _ _ => trivial)
  have hhandled : Recorded (fun uid k => gives s e uid k (held uid k)) (handled reader s e) := by
    cases hline : operatorLine s e with
    | some msg => exact operatorLine_recorded hs hl hline h
    | none =>
      have hsame : (fun uid k => gives s e uid k (held uid k)) = held := by
        funext uid k
        exact gives_none hline uid k _
      rw [hsame]
      exact other_recorded hs hl he hline h
  apply Recorded.operates
  rw [next_eq]
  split_ifs
  · exact opening_recorded (reapEvictedPeers_steps _ e.1 trivial)
      (steps_grounded hsteps hs)
      (steps_linked hsteps hs.standing hl) hhandled
  · exact hhandled

/-! ### What is bridged -/

/-- No channel has become bridged, or ceased to be, and bridged ones are as moderated as before. -/
def Untouched (st st' : State) : Prop :=
  ∀ k d, st'.channels.get k = some d →
    match st.channels.get k with
    | some c => d.rf = c.rf ∧ (c.rf = true → d.moderated = c.moderated)
    | none => d.rf = false

/-- Every channel was there before. -/
def Kept (st st' : State) : Prop :=
  ∀ k d, st'.channels.get k = some d → ∃ c, st.channels.get k = some c ∧ Preserved c d

theorem steps_kept (hsteps : Steps L s t) (hmodes : ¬ L.changes .modes)
    (hcreates : ¬ L.changes .creates) (hs : Standing s) (hl : Linked s.state) :
    Kept s.state t.state := by
  induction hsteps with
  | refl => exact fun k d hd => ⟨d, hd, rfl, rfl, rfl⟩
  | tail hbefore hstep ih =>
    intro k e he
    have hturn := step_turn hstep (steps_linked hbefore hs hl) k
    rw [he] at hturn
    obtain ⟨d, hd, hsame⟩ := (hturn.before hmodes).resolve_right fun h => hcreates h.1
    obtain ⟨c, hc, hold⟩ := ih k d hd
    exact ⟨c, hc, hsame.rf.trans hold.rf, hsame.moderated.trans hold.moderated,
      hsame.operators.trans hold.operators⟩

theorem Untouched.kept {st' st'' : State} (h : Untouched st st') (h' : Kept st' st'') :
    Untouched st st'' := by
  intro k d hd
  obtain ⟨e, he, hsame⟩ := h' k d hd
  have hbefore := h k e he
  split at hbefore
  · exact ⟨hsame.rf.trans hbefore.1, fun hon => hsame.moderated.trans (hbefore.2 hon)⟩
  · exact hsame.rf.trans hbefore

theorem Untouched.refl (st : State) : Untouched st st := by
  intro k d hd
  rw [hd]
  exact ⟨rfl, fun _ => rfl⟩

theorem Kept.untouched {st' : State} (h : Kept st st') : Untouched st st' :=
  (Untouched.refl st).kept h

theorem Untouched.of_channels {st' st'' : State} (h : st'.channels = st.channels)
    (h' : Untouched st' st'') : Untouched st st'' := by
  intro k d hd
  have hbefore := h' k d hd
  rwa [h] at hbefore

theorem minor_untouched {st' : State} (h : MinorState st st') : Untouched st st' := by
  intro k d hd
  cases hc : st.channels.get k with
  | none => exact absurd ((h.absent k hc).symm.trans hd) (by simp)
  | some c =>
    obtain ⟨d', hd', hminor⟩ := h.channels k c hc
    obtain rfl := Option.some.inj (hd'.symm.trans hd)
    exact ⟨hminor.rf, hminor.moderated⟩

/-! ### Joining -/

/-- Channels may be opened, and none is lost. -/
structure Grows (st st' : State) : Prop where
  kept : ∀ k c, st.channels.get k = some c → ∃ d, st'.channels.get k = some d ∧ Preserved c d
  opened : ∀ k d, st.channels.get k = none → st'.channels.get k = some d → d.rf = false

theorem Grows.refl (st : State) : Grows st st :=
  ⟨fun _ c hc => ⟨c, hc, rfl, rfl, rfl⟩, fun _ _ hnone hd => absurd (hnone.symm.trans hd) (by simp)⟩

theorem Grows.trans {st' st'' : State} (h : Grows st st') (h' : Grows st' st'') : Grows st st'' where
  kept k c hc := by
    obtain ⟨d, hd, hsame⟩ := h.kept k c hc
    obtain ⟨e, he, hsame'⟩ := h'.kept k d hd
    exact ⟨e, he, hsame'.rf.trans hsame.rf, hsame'.moderated.trans hsame.moderated,
      hsame'.operators.trans hsame.operators⟩
  opened k e hnone he := by
    cases hd : st'.channels.get k with
    | none => exact h'.opened k e hd he
    | some d =>
      obtain ⟨e', he', hsame⟩ := h'.kept k d hd
      obtain rfl := Option.some.inj (he'.symm.trans he)
      exact hsame.rf.trans (h.opened k d hnone hd)

theorem Grows.untouched {st' : State} (h : Grows st st') : Untouched st st' := by
  intro k d hd
  cases hc : st.channels.get k with
  | none => exact h.opened k d hc hd
  | some c =>
    obtain ⟨d', hd', hsame⟩ := h.kept k c hc
    obtain rfl := Option.some.inj (hd'.symm.trans hd)
    exact ⟨hsame.rf, fun _ => hsame.moderated⟩

theorem grows_ensureChannel (st : State) (name : Text) : Grows st (st.ensureChannel name false) := by
  refine ⟨fun k c hc => ?_, fun k d hnone hd => ?_⟩
  · refine ⟨c, ?_, rfl, rfl, rfl⟩
    rw [ensureChannel_get]
    split_ifs with hk
    · rw [hc]
      rfl
    · exact hc
  · rw [ensureChannel_get] at hd
    split_ifs at hd with hk
    · rw [hnone] at hd
      obtain rfl := Option.some.inj hd
      rfl
    · exact absurd (hnone.symm.trans hd) (by simp)

theorem grows_join {st' : State} {channel : Text} {flags : MemberFlags}
    (h : st.join uid channel = some (flags, st')) : Grows st st' := by
  obtain ⟨-, c, -, hc, -, -, -, hchannels⟩ := join_spec h
  refine ⟨fun k d hd => ?_, fun k d hnone hd => ?_⟩
  · rw [hchannels]
    split_ifs with hk
    · subst hk
      obtain rfl := Option.some.inj (hc.symm.trans hd)
      exact ⟨_, rfl, rfl, rfl, rfl⟩
    · exact ⟨d, hd, rfl, rfl, rfl⟩
  · rw [hchannels] at hd
    split_ifs at hd with hk
    · subst hk
      exact absurd (hnone.symm.trans hc) (by simp)
    · exact absurd (hnone.symm.trans hd) (by simp)

theorem announceJoin_state (s : Server) (m : Moment) (uid : UserId) (name : Text)
    (flags : MemberFlags) : (s.announceJoin m uid name flags).state = s.state := by
  unfold announceJoin
  rcases s.signature uid with ⟨nick, mask⟩
  dsimp only
  split_ifs <;> rfl

theorem doJoin_grows (s : Server) (m : Moment) (uid : UserId) (name key : Text) :
    Grows s.state (s.doJoin m uid name key).state := by
  unfold doJoin
  extract_lets chan real made
  split_ifs
  · exact .refl _
  · exact .refl _
  · exact .refl _
  · exact .refl _
  · exact .refl _
  · have hmade : Grows s.state made.state := grows_ensureChannel s.state name
    split
    · exact hmade
    · rename_i flags joined hjoin
      obtain ⟨⟨f, st⟩, hst, heq⟩ := Option.map_eq_some_iff.mp hjoin
      obtain ⟨-, rfl⟩ := Prod.mk.inj heq
      rw [announceJoin_state]
      exact hmade.trans (grows_join hst)

theorem cmdJoin_untouched (m : Moment) (msg : Message) (hs : Standing s) (hl : Linked s.state) :
    Untouched s.state (s.cmdJoin m uid msg).state := by
  unfold cmdJoin
  split
  · exact .refl _
  · split_ifs
    · have hsteps : Steps calm s _ := foldl_steps (fun s key => doPart_steps s m uid
        ((s.state.channels.get key).elim key Channel.name) "Leaving") s
        ((s.user uid).elim [] User.channels)
      exact (steps_kept hsteps id id hs hl).untouched
    · refine Grows.untouched ?_
      refine List.foldlRecOn (motive := fun t : Server => Grows s.state t.state) _ _ (.refl _) ?_
      exact fun t ht e _ => ht.trans (doJoin_grows ..)

/-- A command line of a control operator. -/
def ByOperator (s : Server) (e : Moment × ServerRuns.Event) : Prop :=
  ∃ id line, e.2 = .line id line ∧ s.isOper (.ip id) = true

theorem handled_untouched (hs : Grounded s) (hl : Linked s.state)
    (he : ServerRuns.Enabled verifies s e) (hnot : ¬ ByOperator s e) :
    Untouched s.state (handled reader s e).state := by
  have hnone : operatorLine s e = none := by
    cases hline : operatorLine s e with
    | none => rfl
    | some msg =>
      obtain ⟨id, line, u, he', -, -, hu, hoper, -⟩ := operatorLine_spec hline
      refine absurd ⟨id, line, he', ?_⟩ hnot
      rw [isOper, hu]
      exact hoper
  by_cases hplain : ∀ c, EventAlters e.2 c → c ≠ .modes ∧ c ≠ .creates
  · let quiet : Licence := { anything with changes := fun c => c ≠ .modes ∧ c ≠ .creates }
    have hquiet : Lenient quiet :=
      ⟨⟨fun _ _ => trivial, fun _ => trivial, fun _ => trivial, fun _ => trivial, fun _ => trivial⟩,
        fun _ _ => trivial, fun _ _ => trivial, fun _ => trivial, fun _ => trivial⟩
    have hsteps : Steps quiet s (handled reader s e) :=
      handled_steps hs.standing hs.named he (fun _ => trivial)
        (lenient_licensed hquiet hs.standing he (fun _ _ _ _ _ => trivial) hplain)
    exact (steps_kept hsteps (fun h => h.1 rfl) (fun h => h.2 rfl) hs.standing hl).untouched
  · push Not at hplain
    obtain ⟨c, hc, hchange⟩ := hplain
    obtain ⟨m, e⟩ := e
    cases e with
    | line id line =>
      obtain ⟨msg, hparse, halters⟩ := hc
      have hcalm : ∀ {t : Server}, (∀ L : Licence, Steps L s t) → Untouched s.state t.state :=
        fun h => (steps_kept (h calm) (fun h => h) (fun h => h) hs.standing hl).untouched
      generalize hcmd : String.ofList msg.command = cmd at halters
      cases halters with
      | modes =>
        rcases modeLine_minor hs hnone rfl hparse hcmd with hrefused | ⟨t, -, hchannels, hminor⟩
        · exact hcalm hrefused
        · exact (minor_untouched hminor).of_channels hchannels
      | joins =>
        have hhandled : handled reader s (m, .line id line) = s.handleClientMessage m id msg := by
          unfold handled handleLine
          dsimp only
          rw [hparse]
        rw [hhandled]
        rcases handleClientMessage_cases s m id msg with hrefused | ⟨u, t, -, -, -, hrate, heq⟩
        · exact hcalm hrefused
        · obtain ⟨hsteps, hstate⟩ := counted_steps (L := calm) hrate
          rw [heq, hcmd]
          refine (cmdJoin_untouched m msg (steps_standing hsteps hs.standing)
            (steps_linked hsteps hs.standing hl)).of_channels ?_
          rw [hstate]
          exact State.channels_modifyUser ..
      | renames => exact absurd (hchange (by simp)) (by simp)
      | drops => exact absurd (hchange (by simp)) (by simp)
    | authFinished job result =>
      obtain ⟨-, rfl⟩ := hc
      exact absurd (hchange (by simp)) (by simp)
    | _ => exact hc.elim

theorem next_untouched (hs : Grounded s) (hl : Linked s.state) (he : ServerRuns.Enabled verifies s e)
    (hnot : ¬ ByOperator s e) : Untouched s.state (s.next reader e).state := by
  have hhandled : Untouched s.state (handled reader s e).state := handled_untouched hs hl he hnot
  have hsteps : Steps anything s (handled reader s e) :=
    handled_steps hs.standing hs.named he (fun _ => trivial)
      (lenient_licensed anything_lenient hs.standing he (fun _ _ _ _ _ => trivial) fun _ _ => trivial)
  rw [next_eq]
  split_ifs
  · refine hhandled.kept (steps_kept (L := calm) (reapEvictedPeers_steps _ e.1 trivial) id id
      (steps_standing hsteps hs.standing) (steps_linked hsteps hs.standing hl))
  · exact hhandled

/-! ### Configured operators -/

/-- The lists of operators are those of the configuration. -/
def AsConfigured (st₀ st : State) : Prop := ∀ k,
  (∀ c₀, st₀.channels.get k = some c₀ →
    ∃ c, st.channels.get k = some c ∧ c.configured = true ∧ c.operators = c₀.operators) ∧
  (st₀.channels.get k = none → ∀ c, st.channels.get k = some c → c.operators = [])

theorem steps_asConfigured {st₀ : State} (hsteps : Steps L s t) (hs : Standing s)
    (hl : Linked s.state) (h : AsConfigured st₀ s.state) : AsConfigured st₀ t.state := by
  induction hsteps with
  | refl => exact h
  | tail hbefore hstep ih =>
    intro k
    obtain ⟨hthere, hnew⟩ := ih k
    have hturn := step_turn hstep (steps_linked hbefore hs hl) k
    constructor
    · intro c₀ hc₀
      obtain ⟨c, hc, hconf, hoperators⟩ := hthere c₀ hc₀
      rw [hc] at hturn
      obtain ⟨d, hd, hdconf, hsame⟩ := hturn.lasts hconf
      exact ⟨d, hd, hdconf, hsame.trans hoperators⟩
    · intro hnone d hd
      rw [hd] at hturn
      rcases hturn.operators with ⟨c, hc, hsame⟩ | ⟨-, hempty⟩
      · exact hsame.trans (hnew hnone c hc)
      · exact hempty

/-- The operators that the configuration gives a channel. -/
def configuredOperators (s₀ : Server) (k : Text) : List Text :=
  (s₀.state.channels.get k).elim [] Channel.operators

theorem AsConfigured.operators {s₀ : Server} (h : AsConfigured s₀.state st)
    (hc : st.channels.get k = some c) : c.operators = configuredOperators s₀ k := by
  obtain ⟨hthere, hnew⟩ := h k
  unfold configuredOperators
  cases hc₀ : s₀.state.channels.get k with
  | none => exact hnew hc₀ c hc
  | some c₀ =>
    obtain ⟨d, hd, -, hsame⟩ := hthere c₀ hc₀
    obtain rfl := Option.some.inj (hd.symm.trans hc)
    exact hsame

theorem initial_asConfigured (h : Initial s) : AsConfigured s.state s.state := by
  obtain ⟨cfg, attached, tnc, accounts, unix, rfl⟩ := h
  refine fun k => ⟨fun c hc => ⟨c, hc, (configuredChannels_empty cfg unix k c hc).1, rfl⟩, ?_⟩
  exact fun hnone c hc => absurd (hnone.symm.trans hc) (by simp)

/-! ### Runs -/

theorem initial_recorded (h : Initial s) (held : UserId → Text → Bool) : Recorded held s := by
  obtain ⟨cfg, attached, tnc, accounts, unix, rfl⟩ := h
  intro k c uid f hc _ hf
  have hout := (configuredChannels_empty cfg unix k c hc).2 uid
  rw [Channel.isMember, hf] at hout
  cases hout

/-- In every run, whoever is operator of a bridged channel is what the record says. -/
theorem run_recorded {es : List (Moment × ServerRuns.Event)} {st₀ : State}
    (hrun : Runs everyStep (ServerRuns.Enabled verifies) (Server.next reader) s es) (hs : Grounded s)
    (hl : Linked s.state) (hconf : AsConfigured st₀ s.state) (h : Recorded held s) :
    AsConfigured st₀ (es.foldl (Server.next reader) s).state ∧
      Recorded (fun uid k => empowered reader uid k s (held uid k) es)
        (es.foldl (Server.next reader) s) := by
  induction es generalizing s held with
  | nil => exact ⟨hconf, h⟩
  | cons e es ih =>
    obtain ⟨-, he, hrest⟩ := hrun
    have hsteps : Steps anything s (s.next reader e) := next_anything hs he
    exact ih hrest (grounded_next hs he) (steps_linked hsteps hs.standing hl)
      (steps_asConfigured hsteps hs.standing hl hconf) (next_recorded hs hl he h)

/-- In every run: whatever anybody does who is not a control operator, no channel becomes bridged or
ceases to be, and bridged ones stay as moderated as they are; and whoever is operator of a bridged
channel is a control operator, or on its list and identified, or was made one by a control operator
since it is bridged. -/
theorem only_operators_bridge {s₀ : Server} {es : List (Moment × ServerRuns.Event)}
    (hstart : Initial s₀)
    (hrun : Runs everyStep (ServerRuns.Enabled verifies) (Server.next reader) s₀ es) :
    let s := es.foldl (Server.next reader) s₀
    (∀ e, ServerRuns.Enabled verifies s e → ¬ ByOperator s e →
      Untouched s.state (s.next reader e).state) ∧
    ∀ k c uid f, s.state.channels.get k = some c → c.rf = true → c.members.get uid = some f →
      f.op = true → ∃ u, s.user uid = some u ∧
        (u.oper = true ∨ u.nickIdentified = true ∧ lower u.nick ∈ configuredOperators s₀ k ∨
          empowered reader uid k s₀ false es = true) := by
  intro s
  obtain ⟨hs, hl⟩ := reachable_linked ((Reachable.initial hstart).run hrun)
  refine ⟨fun e he hnot => next_untouched hs hl he hnot, fun k c uid f hc hrf hf hop => ?_⟩
  have hfirst : Reachable (ServerRuns.system reader verifies) everyStep s₀ := .initial hstart
  obtain ⟨hs₀, hl₀⟩ := reachable_linked hfirst
  obtain ⟨hconf, hrecorded⟩ := run_recorded hrun hs₀ hl₀ (initial_asConfigured hstart)
    (initial_recorded hstart fun _ _ => false)
  obtain ⟨u, hu⟩ := Option.isSome_iff_exists.mp
    (hl.member_present ⟨c, hc, by rw [Channel.isMember, hf]; rfl⟩)
  refine ⟨u, hu, ?_⟩
  obtain ⟨hops, hmanual⟩ := hrecorded k c uid f hc hrf hf
  rcases hops hop with hhand | hpending | hentitled
  · exact .inr (.inr (hmanual hhand).2)
  · exact hpending.elim
  · rw [entitled, hu, Option.any_some, hconf.operators hc] at hentitled
    simp only [Entitled, Bool.or_eq_true, Bool.and_eq_true, decide_eq_true_eq] at hentitled
    rcases hentitled with hoper | ⟨hlisted, hidentified⟩
    · exact .inl hoper
    · exact .inr (.inl ⟨hidentified, hlisted⟩)

/-- A control operator makes herself operator of a bridged channel, and somebody else connects. -/
def opped : List ServerRuns.Event :=
  Small.joins 1 "anna" false ++
    [.line 1 "OPER root secret", .line 1 "JOIN #rf", .line 1 "MODE #rf +o anna"] ++
    Small.joins 2 "bob" false

def meddling : Moment × ServerRuns.Event := (Small.second 10, .line 2 "MODE #rf -rm+o bob")

/-- Whoever meddles with its modes changes nothing, and she is operator by right. -/
theorem only_operators_bridge_opped :
    Untouched (Small.run opped).state ((Small.run opped).next Small.noBeacon meddling).state ∧
      ∃ u, (Small.run opped).user (.ip 1) = some u ∧
        (u.oper = true ∨
          u.nickIdentified = true ∧ lower u.nick ∈ configuredOperators Small.start "#rf" ∨
          empowered Small.noBeacon (.ip 1) "#rf" Small.start false (Small.seconds opped) = true) := by
  have hstart : Initial Small.start := ⟨Small.config, true, .default, .empty, 0, rfl⟩
  have hruns : Small.Feasible opped := by decide +kernel
  have hseat : ((Small.run opped).state.channels.get "#rf").any (fun c =>
      c.rf && (c.members.get (.ip 1)).any MemberFlags.op) = true := by decide +kernel
  obtain ⟨huntouched, hoperators⟩ := only_operators_bridge hstart hruns
  constructor
  · refine huntouched meddling (by decide +kernel) ?_
    rintro ⟨id, line, heq, hoper⟩
    obtain ⟨rfl, -⟩ := ServerRuns.Event.line.inj heq
    exact absurd hoper (by decide +kernel)
  · obtain ⟨c, hc, hop⟩ := (Option.any_eq_true _ _).mp hseat
    obtain ⟨hrf, hop⟩ := (Bool.and_eq_true _ _).mp hop
    obtain ⟨f, hf, hop⟩ := (Option.any_eq_true _ _).mp hop
    exact hoperators "#rf" c (.ip 1) f hc hrf hf hop

end BridgeControl
