import Rfircd.Bridge
import Rfircd.OutletSteps

/-! What an event of the server is made of.
Every command, frame, result and tick is a sequence of the steps below, each under the condition
that its callers have checked. What a step keeps, every event keeps. -/
namespace ServerSteps

open Basics KeyedTable MessageText IrcState AirPolicy ServerOutput Accounts ServerCore

/-- What few events do: change the modes of a channel, open one, or take a nick from its owner. -/
inductive Change where
  | modes
  | creates
  | yields (uid : UserId)

/-- What an event may add to the records, which frames it may take in, whom it may let in and make
the owner of a nick, which accounts it may drop, and what else it may change. -/
structure Licence extends OutletLicence where
  joined : Joined → Prop
  relayed : Relayed → Prop
  owner : UserId → Text → Prop
  drop : Text → Prop
  changes : Change → Prop

/-- Nothing that counts for the standing of a user differs. -/
structure SameStanding (u v : User) : Prop where
  id : v.id = u.id
  nick : v.nick = u.nick
  registered : v.registered = u.registered
  nickIdentified : v.nickIdentified = u.nickIdentified
  oper : v.oper = u.oper
  gotNick : v.gotNick = u.gotNick
  rfTx : v.rfTx = u.rfTx

/-- The owner of a nick gives it up, and the privilege that came with it. A user who is not
registered yet has neither. -/
structure Yields (u v : User) : Prop where
  id : v.id = u.id
  nick : v.nick = u.nick
  registered : v.registered = u.registered
  nickIdentified : v.nickIdentified = false
  oper : v.oper = u.oper
  gotNick : v.gotNick = u.gotNick
  channels : v.channels = u.channels
  rfTx : v.rfTx = u.oper ∨ u.registered = false ∧ v.rfTx = u.rfTx

/-- Every account is still there, with the same grant. -/
def Extends (a b : Store) : Prop :=
  ∀ nick x, a.get nick = some x → ∃ y, b.get nick = some y ∧ y.rfTx = x.rfTx

/-- A user nobody knows yet. -/
structure Blank (u : User) : Prop where
  nick : u.nick = ['*']
  nickIdentified : u.nickIdentified = false
  gotNick : u.gotNick = false
  oper : u.oper = false
  rfTx : u.rfTx = false
  channels : u.channels = []

/-- A change to a channel that leaves what is configured of it, and gives it no topic of a
station. -/
structure Edits (f : Channel → Channel) : Prop where
  name : ∀ c, (f c).name = c.name
  operators : ∀ c, (f c).operators = c.operators
  configured : ∀ c, (f c).configured = c.configured
  origin : ∀ c, (f c).topicOrigin = c.topicOrigin ∨ ∀ call text, (f c).topicOrigin ≠ .station call text

/-- What decides who may speak, and whether it is radiated, stays. -/
structure SameModes (c d : Channel) : Prop where
  rf : d.rf = c.rf
  moderated : d.moderated = c.moderated
  members : d.members = c.members

def joinedRecord (s : Server) (uid : UserId) (channel : Text) (given : Option Text) : Joined :=
  let chan := s.state.channel channel
  ⟨uid, channel, chan.bind Channel.key, given, chan.bind Channel.limit,
    chan.elim 0 fun c => c.members.size⟩

/-- The privileges of one user are computed anew, and nobody else's callsign is touched. -/
def recompute (s : Server) (uid : UserId) : Server := s.refreshRfTx (fun s _ => s) uid

/-- A grant is stored, and the user who is online under the nick has it at once. -/
def withGrant (s : Server) (accounts : Store) (nick : Text) : Server :=
  match AirScreen.findTarget s.state nick with
  | none => { s with accounts := accounts }
  | some target => recompute { s with accounts := accounts } target

inductive Step (L : Licence) : Server → Server → Prop where
  | outlet {s o} : OutletStep L.toOutletLicence s.outlet o → Step L s { s with outlet := o }
  /-- Users. -/
  | touch {s uid f} : (∀ u, SameStanding u (f u)) → (∀ u, (f u).channels = u.channels) →
      Step L s (s.modifyUser uid f)
  | register {s uid} : (∀ u, s.user uid = some u → u.gotNick = true) →
      Step L s (s.modifyUser uid fun u => { u with registered := true })
  | oper {s uid} : Step L s (s.modifyUser uid fun u => { u with oper := true })
  | recompute {s uid} : Step L s (recompute s uid)
  | yields {s uid f} : L.changes (.yields uid) → (∀ u, Yields u (f u)) →
      Step L s (s.modifyUser uid f)
  | identify {s uid u} : s.user uid = some u → u.registered = true →
      s.accounts.isRegistered u.nick = true → L.owner uid u.nick →
      Step L s (s.modifyUser uid Server.identified)
  /-- Nicks. -/
  | recase {s uid u nick} : s.user uid = some u → lower u.nick = lower nick → nick ≠ ['*'] →
      Step L s { s with state := (s.state.setNick uid nick).2 }
  | rename {s uid u nick st} : s.user uid = some u → u.nickIdentified = false → nick ≠ ['*'] →
      s.state.setNick uid nick = (true, st) → Step L s { s with state := st }
  | named {s uid} : (∀ u, s.user uid = some u → u.nick ≠ ['*']) →
      Step L s (s.modifyUser uid fun u => { u with gotNick := true })
  /-- Arrivals and departures. -/
  | refuse {s id} : Step L s { s with clientIds := id :: s.clientIds }
  | connect {s id u} : id ∉ s.clientIds → u.id = .ip id → Blank u → u.registered = false →
      Step L s { s with clientIds := id :: s.clientIds, state := s.state.insertUser u }
  | station {s call u} : s.user (.rf call) = none → u.id = .rf call → Blank u → L.station call →
      (s.outlet.peer call).isSome = true → Step L s { s with state := s.state.insertUser u }
  | remove {s uid} : Step L s { s with state := s.state.removeUser uid }
  | forget {s call} : s.user (.rf call) = none →
      Step L s { s with outlet := s.outlet.perform (.forget call) }
  /-- Channels. -/
  | channel {s name f} : (L.changes .modes ∨ ∀ c, SameModes c (f c)) → Edits f →
      (∀ c, s.state.channel name = some c → ∀ uid, (f c).isMember uid = c.isMember uid) →
      Step L s (s.modifyChannel name f)
  | ensure {s name} : L.changes .creates → Step L s { s with state := s.state.ensureChannel name false }
  | join {s uid channel given flags s'} : s.join uid channel given = some (flags, s') →
      L.joined (joinedRecord s uid channel given) → Step L s s'
  | part {s uid channel} : Step L s { s with state := (s.state.part uid channel).2 }
  | flags {s uid channel} :
      Step L s { s with state := (s.state.applyIntendedFlags uid channel).2 }
  | relayed {s} {r : Relayed} : L.relayed r → Step L s { s with relayed := s.relayed ++ [r] }
  /-- Accounts. -/
  | accounts {s a} : Extends s.accounts a → Step L s { s with accounts := a }
  | grant {s nick rfTx a} : s.accounts.setRfTx nick rfTx = .ok a → Step L s (withGrant s a nick)
  | drop {s nick a} : s.accounts.dropNick nick = .ok a → L.drop nick →
      (∀ u, s.state.byNick nick = some u → u.nickIdentified = false) ∨
        (∃ uid u, s.user uid = some u ∧ lower u.nick = lower nick ∧ u.nickIdentified = false) →
      Step L s { s with accounts := a }
  /-- Jobs and settings. -/
  | start {s} {j : Job} {u} : s.user (.ip j.client) = some u → u.registered = true →
      Step L s { s with jobs := s.jobs ++ [j] }
  | done {s} {j : Job} : Step L s { s with jobs := s.jobs.erase j }
  | settings {s : Server} {password bans failures} :
      Step L s { s with
        connectionPassword := password
        admissionBans := bans
        persistFailSeen := failures }

abbrev Steps (L : Licence) : Server → Server → Prop := Relation.ReflTransGen (Step L)

variable {L : Licence} {s t : Server}

theorem recompute_cases (s : Server) (uid : UserId) :
    (∀ u, s.user uid = some u → u.isRf = true) ∧ recompute s uid = s ∨ ∃ u c, s.user uid = some u ∧ recompute s uid = s.modifyUser uid fun v =>
      { v with
        rfTx := v.oper || (u.nickIdentified && s.accounts.grantsRfTx u.nick)
        callsign := v.callsign <|> c } := by
  unfold recompute Server.refreshRfTx
  cases hu : s.user uid with
  | none => exact .inl ⟨fun u h => (by cases h), rfl⟩
  | some u =>
    simp only
    split_ifs with hrf
    · exact .inl ⟨fun v hv => Option.some.inj hv ▸ hrf, rfl⟩
    all_goals
      refine .inr ⟨u, ?_⟩
      split <;> exact ⟨_, rfl, rfl⟩

/-! ### Records -/

/-- All that is on record is under the licence, and so is what the held mail will leave. -/
structure OnRecord (L : Licence) (s : Server) : Prop where
  aired : ∀ r ∈ s.outlet.aired, L.aired r
  held : ∀ call, ∀ mail ∈ s.outlet.mailbox.queue call, L.aired ⟨mail.origin, mail.text⟩
  joined : ∀ r ∈ s.joined, L.joined r
  relayed : ∀ r ∈ s.relayed, L.relayed r

theorem store_queue {mb : HeldMail.Mailbox} {call j : Callsign} {mail x : HeldMail.StoredMessage}
    (h : x ∈ (mb.store call mail).2.queue j) : x = mail ∨ x ∈ mb.queue j := by
  unfold HeldMail.Mailbox.store at h
  split_ifs at h
  · exact .inr h
  · exact .inr h
  · exact .inr h
  · simp only [HeldMail.Mailbox.queue, Table.get_set] at h ⊢
    split_ifs at h with hj
    · rcases List.mem_append.mp h with h | h
      · exact .inr (hj ▸ h)
      · exact .inl (List.mem_singleton.mp h)
    · exact .inr h

theorem outletStep_onRecord {o : Outlet} (hstep : OutletStep L.toOutletLicence s.outlet o)
    (h : OnRecord L s) : OnRecord L { s with outlet := o } := by
  cases hstep with
  | book hcore =>
    have haired : o.aired = s.outlet.aired := congrArg Core.aired hcore
    have hheld : o.mailbox = s.outlet.mailbox := congrArg Core.mailbox hcore
    refine ⟨?_, ?_, h.joined, h.relayed⟩
    · rw [haired]
      exact h.aired
    · rw [hheld]
      exact h.held
  | radio op => exact ⟨h.aired, h.held, h.joined, h.relayed⟩
  | record hr =>
    refine ⟨fun r hmem => ?_, h.held, h.joined, h.relayed⟩
    rcases List.mem_append.mp hmem with hmem | hmem
    · exact h.aired r hmem
    · exact List.mem_singleton.mp hmem ▸ hr
  | recordMail hmail =>
    refine ⟨fun r hmem => ?_, h.held, h.joined, h.relayed⟩
    rcases List.mem_append.mp hmem with hmem | hmem
    · exact h.aired r hmem
    · exact List.mem_singleton.mp hmem ▸ h.held _ _ hmail
  | hold hr =>
    refine ⟨h.aired, fun call mail hmem => ?_, h.joined, h.relayed⟩
    rcases store_queue hmem with rfl | hmem
    · exact hr
    · exact h.held call mail hmem
  | take _ => exact ⟨h.aired, fun j mail hmem => h.held j mail (Outlet.dropFront_thin _ _ j hmem),
      h.joined, h.relayed⟩
  | expire _ => exact ⟨h.aired, fun j mail hmem => h.held j mail (Outlet.expire_thin _ _ j hmem),
      h.joined, h.relayed⟩
  | remember _ | ration _ => exact ⟨h.aired, h.held, h.joined, h.relayed⟩

theorem step_onRecord (hstep : Step L s t) (h : OnRecord L s) : OnRecord L t := by
  have hsame : ∀ {t : Server}, t.outlet = s.outlet → t.joined = s.joined → t.relayed = s.relayed →
      OnRecord L t := by
    intro t ho hj hr
    exact ⟨ho ▸ h.aired, ho ▸ h.held, hj ▸ h.joined, hr ▸ h.relayed⟩
  have hrecompute : ∀ {s t : Server}, OnRecord L s → ∀ uid, recompute s uid = t → OnRecord L t := by
    intro s t h uid heq
    rcases recompute_cases s uid with ⟨-, hr⟩ | ⟨u, c, -, hr⟩
    all_goals
      rw [← heq, hr]
      exact ⟨h.aired, h.held, h.joined, h.relayed⟩
  cases hstep with
  | outlet hstep => exact outletStep_onRecord hstep h
  | recompute => exact hrecompute h _ rfl
  | forget _ => exact ⟨h.aired, h.held, h.joined, h.relayed⟩
  | join hjoin hr =>
    obtain ⟨⟨flags, st⟩, hst, heq⟩ := Option.map_eq_some_iff.mp hjoin
    obtain ⟨-, rfl⟩ := Prod.mk.inj heq
    refine ⟨h.aired, h.held, fun r hmem => ?_, h.relayed⟩
    rcases List.mem_append.mp hmem with hmem | hmem
    · exact h.joined r hmem
    · exact List.mem_singleton.mp hmem ▸ hr
  | relayed hr =>
    refine ⟨h.aired, h.held, h.joined, fun r hmem => ?_⟩
    rcases List.mem_append.mp hmem with hmem | hmem
    · exact h.relayed r hmem
    · exact List.mem_singleton.mp hmem ▸ hr
  | @grant nick rfTx a ha =>
    have haccounts : OnRecord L { s with accounts := a } := hsame rfl rfl rfl
    unfold withGrant
    split
    · exact haccounts
    · exact hrecompute haccounts _ rfl
  | _ => exact hsame rfl rfl rfl

theorem steps_onRecord (hsteps : Steps L s t) (h : OnRecord L s) : OnRecord L t := by
  induction hsteps with
  | refl => exact h
  | tail _ hstep ih => exact step_onRecord hstep ih

/-! ### Configuration and channel names -/

/-- The channels stand under their folded names. -/
def Named (s : Server) : Prop :=
  ∀ k c, s.state.channels.get k = some c → lower c.name = k

theorem Named.lookup (h : Named s) {name : Text} {c : Channel} (hc : s.state.channel name = some c) :
    s.state.channel c.name = some c := by
  rw [State.channel, h _ _ hc]
  exact hc

theorem recompute_same (s : Server) (uid : UserId) : (recompute s uid).outlet = s.outlet ∧
    (recompute s uid).state.channels = s.state.channels := by
  rcases recompute_cases s uid with ⟨-, heq⟩ | ⟨u, c, -, heq⟩
  · rw [heq]
    exact ⟨rfl, rfl⟩
  · rw [heq]
    exact ⟨rfl, State.channels_modifyUser ..⟩

theorem withGrant_same (s : Server) (a : Store) (nick : Text) :
    (withGrant s a nick).outlet = s.outlet ∧
      (withGrant s a nick).state.channels = s.state.channels := by
  unfold withGrant
  split
  · exact ⟨rfl, rfl⟩
  · exact recompute_same { s with accounts := a } _

/-- What a step can do to the outlet. -/
theorem step_outlet (hstep : Step L s t) :
    t.outlet = s.outlet ∨ OutletStep L.toOutletLicence s.outlet t.outlet ∨
      ∃ call, s.user (.rf call) = none ∧ t.outlet = s.outlet.perform (.forget call) := by
  cases hstep with
  | outlet hstep => exact .inr (.inl hstep)
  | forget hnone => exact .inr (.inr ⟨_, hnone, rfl⟩)
  | recompute => exact .inl (recompute_same s _).1
  | grant => exact .inl (withGrant_same s _ _).1
  | join hjoin _ =>
    obtain ⟨⟨flags, st⟩, -, heq⟩ := Option.map_eq_some_iff.mp hjoin
    obtain ⟨-, rfl⟩ := Prod.mk.inj heq
    exact .inl rfl
  | _ => exact .inl rfl

/-- What only some steps of the outlet change, they change in turn. -/
theorem steps_related {α : Type*} {φ : Outlet → α} {R : α → α → Prop}
    (houtlet : ∀ o o', OutletStep L.toOutletLicence o o' → φ o' = φ o ∨ R (φ o) (φ o'))
    (hforget : ∀ (o : Outlet) call, φ (o.perform (.forget call)) = φ o) (hsteps : Steps L s t) :
    Relation.ReflTransGen R (φ s.outlet) (φ t.outlet) := by
  induction hsteps with
  | refl => exact .refl
  | @tail u v _ hstep ih =>
    rcases step_outlet hstep with hsame | hstep | ⟨call, -, hforgotten⟩
    · rwa [hsame]
    · rcases houtlet _ _ hstep with hsame | hrelated
      · rwa [hsame]
      · exact ih.tail hrelated
    · rwa [hforgotten, hforget]

theorem step_config (hstep : Step L s t) :
    t.cfg = s.cfg ∧ t.outlet.policy.config = s.outlet.policy.config := by
  rw [Server.cfg, Server.cfg]
  rcases step_outlet hstep with hsame | hstep | ⟨call, -, hforgotten⟩
  · rw [hsame]
    exact ⟨rfl, rfl⟩
  · exact Outlet.steps_config (.single hstep)
  · rw [hforgotten]
    exact ⟨rfl, rfl⟩

theorem steps_config (hsteps : Steps L s t) :
    t.cfg = s.cfg ∧ t.outlet.policy.config = s.outlet.policy.config := by
  induction hsteps with
  | refl => exact ⟨rfl, rfl⟩
  | tail _ hstep ih =>
    obtain ⟨hcfg, hpolicy⟩ := step_config hstep
    exact ⟨hcfg.trans ih.1, hpolicy.trans ih.2⟩

theorem reapChannel_get {st : State} {key k : Text} {c : Channel}
    (h : (st.reapChannel key).channels.get k = some c) : st.channels.get k = some c := by
  unfold State.reapChannel at h
  split_ifs at h
  · rw [Table.get_erase] at h
    split_ifs at h
    exact h
  · exact h

/-- Leaving changes the members of a channel, or takes the channel away. -/
theorem leave_get {st : State} {uid : UserId} {key k : Text} {c : Channel}
    (h : (st.leave uid key).channels.get k = some c) :
    ∃ d, st.channels.get k = some d ∧ c = { d with members := c.members } := by
  unfold State.leave at h
  split at h
  · exact ⟨c, reapChannel_get h, rfl⟩
  · rename_i d hd
    have h' := reapChannel_get h
    rw [Table.get_set] at h'
    split_ifs at h' with hk
    · obtain rfl := Option.some.inj h'
      exact ⟨d, hk ▸ hd, rfl⟩
    · exact ⟨c, h', rfl⟩

theorem leaveAll_get {uid : UserId} {k : Text} {c : Channel} (keys : List Text) (st : State)
    (h : (keys.foldl (fun st key => st.leave uid key) st).channels.get k = some c) :
    ∃ d, st.channels.get k = some d ∧ c = { d with members := c.members } := by
  induction keys generalizing st with
  | nil => exact ⟨c, h, rfl⟩
  | cons key keys ih =>
    obtain ⟨d, hd, hc⟩ := ih _ h
    obtain ⟨e, he, hd'⟩ := leave_get hd
    exact ⟨e, he, by rw [hc, hd']⟩

theorem removeUser_get {st : State} {uid : UserId} {k : Text} {c : Channel}
    (h : (st.removeUser uid).channels.get k = some c) :
    ∃ d, st.channels.get k = some d ∧ c = { d with members := c.members } := by
  unfold State.removeUser at h
  split at h
  · exact ⟨c, h, rfl⟩
  · rename_i u _
    exact leaveAll_get u.channels
      { st with users := st.users.erase uid, nicks := st.nicks.erase (lower u.nick) } h

theorem part_get {st : State} {uid : UserId} {channel k : Text} {c : Channel}
    (h : (st.part uid channel).2.channels.get k = some c) :
    ∃ d, st.channels.get k = some d ∧ c = { d with members := c.members } := by
  unfold State.part at h
  simp only at h
  split at h
  · exact ⟨c, h, rfl⟩
  · obtain ⟨d, hd, hc⟩ := leave_get h
    rw [State.channels_modifyUser] at hd
    exact ⟨d, hd, hc⟩

theorem applyIntendedFlags_get {st : State} {uid : UserId} {channel k : Text} {c : Channel}
    (h : (st.applyIntendedFlags uid channel).2.channels.get k = some c) :
    ∃ d, st.channels.get k = some d ∧ c = { d with members := c.members } := by
  unfold State.applyIntendedFlags at h
  split at h
  · exact ⟨c, h, rfl⟩
  · rename_i d hd
    split at h
    · exact ⟨c, h, rfl⟩
    · simp only at h
      split_ifs at h
      · exact ⟨c, h, rfl⟩
      · rw [Table.get_set] at h
        split_ifs at h with hk
        · obtain rfl := Option.some.inj h
          exact ⟨d, hk ▸ hd, rfl⟩
        · exact ⟨c, h, rfl⟩

theorem join_get {st st' : State} {uid : UserId} {channel k : Text} {flags : MemberFlags}
    {c : Channel} (hjoin : st.join uid channel = some (flags, st'))
    (h : st'.channels.get k = some c) :
    ∃ d, st.channels.get k = some d ∧ c = { d with members := c.members } := by
  unfold State.join at hjoin
  split at hjoin
  · rename_i u d hu hd
    split_ifs at hjoin
    obtain ⟨-, rfl⟩ := Prod.mk.inj (Option.some.inj hjoin)
    rw [Table.get_set] at h
    split_ifs at h with hk
    · obtain rfl := Option.some.inj h
      exact ⟨d, hk ▸ hd, rfl⟩
    · exact ⟨c, h, rfl⟩
  · cases hjoin

/-- A channel that was there before, under the same name, with no topic of a station that it did not
have. -/
structure Continues (d c : Channel) : Prop where
  name : c.name = d.name
  origin : c.topicOrigin = d.topicOrigin ∨ ∀ call text, c.topicOrigin ≠ .station call text

/-- A channel after a step is one from before, or a new one. -/
theorem step_channels (hstep : Step L s t) {k : Text} {c : Channel}
    (hc : t.state.channels.get k = some c) :
    (∃ d, s.state.channels.get k = some d ∧ Continues d c) ∨
      ∃ name, k = lower name ∧ c = .new name false := by
  have hmembers : (∃ d, s.state.channels.get k = some d ∧ c = { d with members := c.members }) →
      (∃ d, s.state.channels.get k = some d ∧ Continues d c) ∨
        ∃ name, k = lower name ∧ c = .new name false := by
    rintro ⟨d, hd, heq⟩
    exact .inl ⟨d, hd, by rw [heq], .inl (by rw [heq])⟩
  have hsame : t.state.channels = s.state.channels →
      (∃ d, s.state.channels.get k = some d ∧ Continues d c) ∨
        ∃ name, k = lower name ∧ c = .new name false :=
    fun heq => hmembers ⟨c, heq ▸ hc, rfl⟩
  cases hstep with
  | touch _ | register _ | oper | yields _ | identify _ _ _ _ | named _ =>
    exact hsame (State.channels_modifyUser ..)
  | recompute => exact hsame (recompute_same s _).2
  | grant _ => exact hsame (withGrant_same s _ _).2
  | @recase uid u nick hu _ _ =>
    refine hsame ?_
    change (s.state.setNick uid nick).2.channels = s.state.channels
    cases hset : s.state.setNick uid nick with
    | mk ok st =>
      cases ok with
      | true => exact (State.setNick_true hu hset).2.2.1
      | false => rw [State.setNick_false hset]
  | rename hu _ _ hset => exact hsame (State.setNick_true hu hset).2.2.1
  | remove => exact hmembers (removeUser_get hc)
  | @channel name f _ hf =>
    have hc' := (State.channel_modifyChannel s.state name f k).symm.trans hc
    split_ifs at hc' with hk
    · obtain ⟨d, hd, rfl⟩ := Option.map_eq_some_iff.mp hc'
      exact .inl ⟨d, hk ▸ hd, hf.name d, hf.origin d⟩
    · exact .inl ⟨c, hc', rfl, .inl rfl⟩
  | @ensure name =>
    simp only [State.ensureChannel] at hc
    split_ifs at hc
    · exact .inl ⟨c, hc, rfl, .inl rfl⟩
    · rw [Table.get_set] at hc
      split_ifs at hc with hk
      · exact .inr ⟨name, hk, (Option.some.inj hc).symm⟩
      · exact .inl ⟨c, hc, rfl, .inl rfl⟩
  | join hjoin _ =>
    obtain ⟨⟨flags, st⟩, hst, heq⟩ := Option.map_eq_some_iff.mp hjoin
    obtain ⟨-, rfl⟩ := Prod.mk.inj heq
    exact hmembers (join_get hst hc)
  | part => exact hmembers (part_get hc)
  | flags => exact hmembers (applyIntendedFlags_get hc)
  | _ => exact hsame rfl

theorem step_named (hstep : Step L s t) (h : Named s) : Named t := by
  intro k c hc
  rcases step_channels hstep hc with ⟨d, hd, hcont⟩ | ⟨name, rfl, rfl⟩
  · rw [hcont.name]
    exact h k d hd
  · rfl

/-- No channel has a topic that a station wrote. -/
def OwnTopics (s : Server) : Prop :=
  ∀ k c, s.state.channels.get k = some c → ∀ call text, c.topicOrigin ≠ .station call text

theorem step_topics (hstep : Step L s t) (h : OwnTopics s) : OwnTopics t := by
  intro k c hc
  rcases step_channels hstep hc with ⟨d, hd, hcont⟩ | ⟨name, rfl, rfl⟩
  · rcases hcont.origin with heq | hother
    · rw [heq]
      exact h k d hd
    · exact hother
  · exact fun call text heq => by cases heq

theorem steps_topics (hsteps : Steps L s t) (h : OwnTopics s) : OwnTopics t := by
  induction hsteps with
  | refl => exact h
  | tail _ hstep ih => exact step_topics hstep ih

theorem steps_named (hsteps : Steps L s t) (h : Named s) : Named t := by
  induction hsteps with
  | refl => exact h
  | tail _ hstep ih => exact step_named hstep ih

end ServerSteps
