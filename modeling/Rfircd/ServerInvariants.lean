import Rfircd.EventSteps

/-! What holds in every state that the server reaches, and the privilege to transmit. -/
namespace ServerInvariants

open Basics Ax25 AircSession KeyedTable MessageText HostKey IrcMessage IrcState AirPolicy
open RadioGateway Accounts ServerOutput ServerCore Bridge ServerRuns ServerSteps TransitionSystem
open ServerCore.Server (configuredChannels)

variable {L : Licence} {s : Server} {verifies : Text → Text → Prop} {reader : BeaconReader}
  {guard : Server → Moment × ServerRuns.Event → Prop}

/-! ### At the start -/

/-- What a configured channel is set to. -/
structure Configures (f : Channel → Channel) : Prop where
  name : ∀ c, (f c).name = c.name
  members : ∀ c, (f c).members = c.members
  configured : ∀ c, (f c).configured = true
  origin : ∀ c, (f c).topicOrigin = c.topicOrigin

/-- What holds of no channels and survives a configured one holds at the start. -/
theorem configuredChannels_induction {P : State → Prop} (h₀ : P .empty)
    (hstep : ∀ st name rf f, Configures f → P st →
      P ((st.ensureChannel name rf).modifyChannel name f))
    (cfg : ServerConfig) (unix : ℕ) : P (configuredChannels cfg unix) := by
  refine List.foldlRecOn cfg.channels _ h₀ fun st h ch _ => hstep st _ _ _ ?_ h
  refine ⟨fun c => ?_, fun c => ?_, fun c => ?_, fun c => ?_⟩
  all_goals
    dsimp only
    split_ifs <;> rfl

/-- Nobody is there. -/
theorem configuredChannels_vacant (cfg : ServerConfig) (unix : ℕ) :
    (configuredChannels cfg unix).users = .empty ∧ (configuredChannels cfg unix).nicks = .empty := by
  refine configuredChannels_induction (P := fun st => st.users = .empty ∧ st.nicks = .empty)
    ⟨rfl, rfl⟩ (fun st name rf f _ h => ?_) cfg unix
  simpa using h

theorem initial_standing (h : Initial s) : Standing s := by
  obtain ⟨cfg, attached, tnc, accounts, unix, rfl⟩ := h
  refine ⟨fun uid u hu => ?_, fun j hj => ?_⟩
  · have hnone : (Server.new cfg attached tnc accounts unix).user uid = none := by
      change (configuredChannels cfg unix).users.get uid = none
      rw [(configuredChannels_vacant cfg unix).1]
      rfl
    rw [hnone] at hu
    cases hu
  · cases hj

/-- A channel of the start was configured under its name. -/
theorem configured_get {st : State} {name k : Text} {rf : Bool} {f : Channel → Channel} {c : Channel}
    (hf : Configures f)
    (hc : ((st.ensureChannel name rf).modifyChannel name f).channels.get k = some c) :
    (∃ d, st.channels.get k = some d ∧ c.name = d.name ∧ c.topicOrigin = d.topicOrigin) ∨
      k = lower name ∧ c.name = name ∧ c.topicOrigin = .gateway := by
  have hensured : ∀ d, (st.ensureChannel name rf).channels.get k = some d →
      st.channels.get k = some d ∨ k = lower name ∧ d = .new name rf := by
    intro d hd
    unfold State.ensureChannel at hd
    split_ifs at hd
    · exact .inl hd
    · rw [Table.get_set] at hd
      split_ifs at hd with hk
      · exact .inr ⟨hk, (Option.some.inj hd).symm⟩
      · exact .inl hd
  rw [State.channel_modifyChannel] at hc
  split_ifs at hc with hk
  · obtain ⟨d, hd, rfl⟩ := Option.map_eq_some_iff.mp hc
    rw [hf.name, hf.origin]
    rcases hensured d (hk ▸ hd) with hold | ⟨-, rfl⟩
    · exact .inl ⟨d, hold, rfl, rfl⟩
    · exact .inr ⟨hk, rfl, rfl⟩
  · rcases hensured c hc with hold | ⟨hk', -⟩
    · exact .inl ⟨c, hold, rfl, rfl⟩
    · exact absurd hk' hk

theorem initial_named (h : Initial s) : Named s := by
  obtain ⟨cfg, attached, tnc, accounts, unix, rfl⟩ := h
  refine configuredChannels_induction (P := fun st => ∀ k c, st.channels.get k = some c → lower c.name = k)
    (fun k c hc => by cases hc) (fun st name rf f hf h k c hc => ?_) cfg unix
  rcases configured_get hf hc with ⟨d, hd, hname, -⟩ | ⟨rfl, hname, -⟩
  · rw [hname]
    exact h k d hd
  · rw [hname]

theorem initial_topics (h : Initial s) : OwnTopics s := by
  obtain ⟨cfg, attached, tnc, accounts, unix, rfl⟩ := h
  refine configuredChannels_induction (P := fun st => ∀ k c, st.channels.get k = some c →
      ∀ call text, c.topicOrigin ≠ .station call text)
    (fun k c hc => by cases hc) (fun st name rf f hf h k c hc => ?_) cfg unix
  rcases configured_get hf hc with ⟨d, hd, -, horigin⟩ | ⟨-, -, horigin⟩
  · rw [horigin]
    exact h k d hd
  · rw [horigin]
    exact fun call text h => by cases h

theorem initial_onRecord (h : Initial s) : OnRecord L s := by
  obtain ⟨cfg, attached, tnc, accounts, unix, rfl⟩ := h
  have hempty : ∀ {α : Type} {P : α → Prop}, ∀ x ∈ ([] : List α), P x :=
    fun x hx => absurd hx List.not_mem_nil
  exact ⟨hempty, fun _ => hempty, hempty, hempty⟩

/-! ### In every run -/

/-- Every user is sound, and every channel stands under its name, with a topic that no station
wrote. -/
structure Grounded (s : Server) : Prop where
  standing : Standing s
  named : Named s
  topics : OwnTopics s

theorem initial_grounded (h : Initial s) : Grounded s :=
  ⟨initial_standing h, initial_named h, initial_topics h⟩

theorem steps_grounded {t : Server} (hsteps : Steps L s t) (h : Grounded s) : Grounded t where
  standing := steps_standing hsteps h.standing
  named := steps_named hsteps h.named
  topics := steps_topics hsteps h.topics

/-- A licence that lets everything on record and stations into every channel, and drops every
account. -/
structure Recording (L : Licence) : Prop where
  enters : ∀ call channel, L.enters call channel
  aired : ∀ r, L.aired r
  joined : ∀ r, L.joined r
  relayed : ∀ r, L.relayed r
  drop : ∀ nick, L.drop nick

/-- A frame is taken in, and the station that it comes from let in, as the licence has it. -/
structure Admits (L : Licence) (reader : BeaconReader) (s : Server) (m : Moment) (frame : Ax25Frame) :
    Prop where
  received : ∀ f forUs broadcast, heard s.cfg reader frame = .airc f forUs broadcast →
    L.received frame.source.call f
  enter : ∀ f forUs broadcast, heard s.cfg reader frame = .airc f forUs broadcast →
    ∀ msg, s.uplink m frame.source.call f forUs broadcast = some msg →
      msg.kind = .hello ∨ msg.kind = .join → L.station frame.source.call
  stay : s.outlet.sessions.isBanned frame.source.call = false → L.station frame.source.call

theorem Recording.mayJoin (hL : Recording L) (t : Server) (src : Callsign) (display : Text)
    (reply : Bool) : MayJoin L t src display reply :=
  ⟨hL.enters _ _, fun _ _ _ _ => hL.joined _, fun _ _ _ _ _ _ => hL.aired _⟩

theorem Recording.mayChat (hL : Recording L) (t : Server) (src : Callsign) (display : Text)
    (reply : Bool) : MayChat L t src display reply :=
  ⟨fun _ _ _ _ => hL.relayed _, fun _ _ _ _ _ => ⟨hL.mayJoin .., fun _ _ => hL.relayed _⟩⟩

theorem Recording.aprs (hL : Recording L) {src : Callsign} {msg : AprsCodec.AprsMessage}
    (hstation : s.outlet.sessions.isBanned src = false → L.station src) : AprsLicence L s src msg :=
  ⟨fun _ _ _ _ => hL.aired _, hstation, fun _ _ _ _ _ => hL.aired _,
    fun _ _ _ _ t _ => hL.mayChat t ..⟩

theorem Recording.airc (hL : Recording L) {src : Callsign} {msg : Airc.AircFrame}
    (henter : msg.kind = .hello ∨ msg.kind = .join → L.station src)
    (hstation : s.outlet.sessions.isBanned src = false → L.station src) : AircLicence L s src msg :=
  ⟨fun _ _ _ _ => hL.aired _, henter, fun _ => hstation, fun _ _ _ t _ => hL.mayJoin t ..,
    fun _ _ _ _ _ t _ => hL.mayChat t ..⟩

/-- What an event may change beyond what all of them may. -/
def EventAlters (e : ServerRuns.Event) (c : Change) : Prop :=
  match e with
  | .line id line => ∃ msg, Message.parse line = some msg ∧ Alters id (String.ofList msg.command) c
  | .authFinished job _ => job.kind = .unregister ∧ c = .yields (.ip job.client)
  | _ => False

theorem recording_licensed {e : Moment × ServerRuns.Event} (hL : Recording L)
    (hanswers : ∀ src id, L.answers src id) (hs : Standing s)
    (he : ServerRuns.Enabled verifies s e)
    (hadmits : ∀ frame, e.2 = .rf frame → Acceptable s frame.source.call →
      Admits L reader s e.1 frame) (hexpires : L.expires e.1.now)
    (howner : ∀ job v, e.2 = .authFinished job (.ok v) → ∀ uid nick, L.owner uid nick)
    (hchanges : ∀ c, EventAlters e.2 c → L.changes c)
    (hrecalls : Recalls L reader s e := by exact recalls_all (fun _ _ => trivial) fun _ _ => trivial) :
    EventLicence L reader s e := by
  obtain ⟨m, e⟩ := e
  cases e with
  | line id line =>
    intro msg hmsg
    exact ⟨⟨fun _ _ _ _ => hL.aired _, fun _ _ _ => hL.joined _, fun _ _ _ => hL.relayed _⟩,
      hL.drop, fun c hc => hchanges c ⟨msg, hmsg, hc⟩⟩
  | authFinished job result =>
    intro v hv
    exact ⟨(hs.jobs job he.1).2, fun _ _ _ _ => howner job v (hv ▸ rfl) _ _,
      fun _ _ _ _ => hL.drop _, fun hkind => hchanges _ ⟨hkind, rfl⟩⟩
  | rf frame =>
    have hadmits := hadmits frame rfl
    simp only [EventLicence, RfLicence]
    split
    · rename_i msg hheard
      refine ⟨hrecalls.rations frame rfl, fun hsource => ⟨fun _ _ => hanswers _ _, ?_⟩,
        hrecalls.learns frame msg rfl hheard⟩
      exact hL.aprs (hadmits hsource).stay
    · rename_i f forUs broadcast hheard
      refine ⟨hrecalls.rations frame rfl, fun hsource => ?_⟩
      have hadmits := hadmits hsource
      refine ⟨hadmits.received f forUs broadcast hheard, fun msg hmsg t _ hbanned => ?_⟩
      refine hL.airc (hadmits.enter f forUs broadcast hheard msg hmsg) fun hfree => ?_
      rw [Sessions.isBanned, hbanned] at hfree
      exact hadmits.stay hfree
    · trivial
    · trivial
  | tick => exact ⟨hexpires, hrecalls.ages rfl, hrecalls.lapses rfl⟩
  | _ => trivial

/-- A licence that takes in every frame, answers every message and lets every station in. -/
structure Welcoming (L : Licence) : Prop where
  answers : ∀ src id, L.answers src id
  enters : ∀ call channel, L.enters call channel
  received : ∀ src f, L.received src f
  station : ∀ call, L.station call
  expires : ∀ now, L.expires now

/-- A licence that only who becomes the owner of a nick is of interest for. -/
structure Lenient (L : Licence) : Prop extends Recording L, Welcoming L

theorem lenient_licensed {e : Moment × ServerRuns.Event} (hL : Lenient L) (hs : Standing s)
    (he : ServerRuns.Enabled verifies s e)
    (howner : ∀ job v, e.2 = .authFinished job (.ok v) → ∀ uid nick, L.owner uid nick)
    (hchanges : ∀ c, EventAlters e.2 c → L.changes c)
    (hrecalls : Recalls L reader s e := by exact recalls_all (fun _ _ => trivial) fun _ _ => trivial) :
    EventLicence L reader s e :=
  recording_licensed hL.toRecording hL.answers hs he (fun _ _ _ =>
    ⟨fun _ _ _ _ => hL.received _ _, fun _ _ _ _ _ _ _ => hL.station _, fun _ => hL.station _⟩)
    (hL.expires _) howner hchanges hrecalls

/-- A licence for everything. -/
def anything : Licence :=
  ⟨.free, fun _ => True, fun _ => True, fun _ _ => True, fun _ => True, fun _ => True⟩

theorem anything_lenient : Lenient anything :=
  ⟨⟨fun _ _ => trivial, fun _ => trivial, fun _ => trivial, fun _ => trivial, fun _ => trivial⟩,
    fun _ _ => trivial, fun _ _ => trivial, fun _ => trivial, fun _ => trivial⟩

theorem next_anything {e : Moment × ServerRuns.Event} (h : Grounded s)
    (he : ServerRuns.Enabled verifies s e) : Steps anything s (s.next reader e) :=
  next_steps h.standing h.named he trivial
    (lenient_licensed anything_lenient h.standing he (fun _ _ _ _ _ => trivial)
      fun _ _ => trivial)

theorem grounded_inductive : Inductive (system reader verifies) guard Grounded :=
  .ofNext (fun _ h => initial_grounded h) fun _ _ h _ he => steps_grounded (next_anything h he) h

theorem grounded_next {e : Moment × ServerRuns.Event} (hs : Grounded s)
    (he : ServerRuns.Enabled verifies s e) : Grounded (s.next reader e) := by
  have hinductive : Inductive (system reader verifies) everyStep Grounded :=
    grounded_inductive
  exact hinductive.step s e _ hs trivial ⟨he, rfl⟩

theorem reachable_grounded (h : Reachable (system reader verifies) guard s) : Grounded s :=
  grounded_inductive.reachable h

/-- When every event keeps to the licence, all that is ever on record is under it. The licence may
rest on the configuration of the policy, which no event changes. -/
theorem reachable_onRecord {L : PolicyConfig → Licence} (hsweeps : ∀ c, (L c).sweeps)
    (hguard : ∀ s e, Grounded s → guard s e → ServerRuns.Enabled verifies s e →
      EventLicence (L s.outlet.policy.config) reader s e)
    (h : Reachable (system reader verifies) guard s) : OnRecord (L s.outlet.policy.config) s := by
  have hboth : Inductive (system reader verifies) guard fun s =>
      Grounded s ∧ OnRecord (L s.outlet.policy.config) s := by
    refine .ofNext (fun _ h => ⟨initial_grounded h, initial_onRecord h⟩) ?_
    intro s e ⟨hs, hr⟩ hg he
    have hsteps := next_steps hs.standing hs.named he (hsweeps _) (hguard s e hs hg he)
    refine ⟨grounded_inductive.step s e _ hs hg ⟨he, rfl⟩, ?_⟩
    rw [(steps_config hsteps).2]
    exact steps_onRecord hsteps hr
  exact (hboth.reachable h).2

/-! ### The privilege to transmit -/

/-- The privilege of a user is never more than its account and its nick give it. -/
theorem privilege_follows_account {id : ℕ} {u : User}
    (h : Reachable (system reader verifies) everyStep s) (hu : s.user (.ip id) = some u) :
    (u.rfTx = true → u.oper = true ∨ u.nickIdentified = true ∧ s.accounts.grantsRfTx u.nick = true) ∧
      (u.nickIdentified = true → s.accounts.isRegistered u.nick = true) := by
  have hsound := (reachable_grounded h).standing.users _ u hu
  exact ⟨hsound.privileged rfl, fun hi => (hsound.identified rfl hi).2⟩

/-- An operator may transmit. -/
theorem operator_privilege : ∃ u,
    (Small.run (Small.joins 1 "anna" false ++ [.line 1 "OPER root secret"])).user (.ip 1) = some u ∧
      u.rfTx = true ∧
      (u.rfTx = true → u.oper = true ∨ u.nickIdentified = true ∧
        (Small.run (Small.joins 1 "anna" false ++
          [.line 1 "OPER root secret"])).accounts.grantsRfTx u.nick = true) := by
  have hreached : Small.Feasible (Small.joins 1 "anna" false ++ [.line 1 "OPER root secret"]) := by
    decide +kernel
  have hoper : ((Small.run (Small.joins 1 "anna" false ++
      [.line 1 "OPER root secret"])).user (.ip 1)).any User.rfTx = true := by decide +kernel
  obtain ⟨u, hu, hrf⟩ := Option.any_eq_true .. |>.mp hoper
  exact ⟨u, hu, hrf, (privilege_follows_account (Small.reachable hreached) hu).1⟩

end ServerInvariants
