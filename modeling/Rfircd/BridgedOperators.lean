import Rfircd.ChannelStatus

/-! Who is operator of a bridged channel, as long as no modes are changed.
Membership and accounts change what a member's flags are derived from. Whoever gives up a nick has
its privileges computed anew, and nobody else loses what the flags rest on. -/
namespace BridgedOperators

open Basics KeyedTable MessageText IrcMessage IrcState AirScreen Accounts ServerOutput ServerCore
open ServerCore.Server Bridge ServerRuns ServerInvariants StateConsistency StationRecords
open ChannelStatus TransitionSystem
open ServerSteps hiding Entitled

variable {L : Licence} {verifies : Text → Text → Prop} {reader : BeaconReader}
variable {st : State} {s t r : Server} {uid v : UserId} {k key : Text} {c d : Channel}
variable {f g : MemberFlags} {o p : Option Channel}

/-! ### What a step makes of a channel -/

/-- What becomes of the channel under a key. -/
inductive Turn (L : Licence) (st : State) (k : Text) : Option Channel → Option Channel → Prop where
  | same {o : Option Channel} : Turn L st k o o
  | moded {c d : Channel} : L.changes .modes → d.operators = c.operators →
      d.configured = c.configured → Turn L st k (some c) (some d)
  | edited {c d : Channel} : d.rf = c.rf → d.moderated = c.moderated → d.members = c.members →
      d.operators = c.operators → d.configured = c.configured → Turn L st k (some c) (some d)
  | left {c : Channel} (id : UserId) : Turn L st k (some c) (without id c)
  | entered {id : UserId} {u : User} {c : Channel} : st.user id = some u → c.members.get id = none →
      Turn L st k (some c) (some { c with
        members := c.members.set id
          (st.flagsForParts id c.rf c.members.entries.isEmpty c.operators) })
  | derived {id : UserId} {c : Channel} {old : MemberFlags} : c.members.get id = some old →
      Turn L st k (some c) (some { c with
        members := c.members.set id
          { old with
            op := (st.flagsForParts id c.rf false c.operators).op || old.opManual
            voice := (st.flagsForParts id c.rf false c.operators).voice || old.voiceManual } })
  | opened {name : Text} : L.changes .creates → k = lower name → Turn L st k none (some (.new name false))

theorem Turn.of_eq (h : p = o) : Turn L st k o p := h ▸ .same

theorem leaves_turn {keys : Text → Prop} {st' : State} (h : Leaves uid keys st st') :
    Turn L st k (st.channels.get k) (st'.channels.get k) := by
  by_cases hk : keys k
  · rw [h.left k hk]
    cases st.channels.get k with
    | none => exact .same
    | some c => exact .left uid
  · exact .of_eq (h.same k hk)

theorem join_turn {st' : State} {channel : Text} {flags : MemberFlags}
    (h : st.join uid channel = some (flags, st')) :
    Turn L st k (st.channels.get k) (st'.channels.get k) := by
  unfold State.join at h
  split at h
  · rename_i u c hu hc
    split_ifs at h with hmember
    obtain ⟨-, rfl⟩ := Prod.mk.inj (Option.some.inj h)
    by_cases hk : k = lower channel
    · subst hk
      rw [hc, Table.get_set_self]
      exact .entered hu (by simpa [Channel.isMember] using hmember)
    · exact .of_eq (Table.get_set_ne _ hk _)
  · cases h

theorem applyIntendedFlags_turn (st : State) (uid : UserId) (channel : Text) :
    Turn L st k (st.channels.get k) ((st.applyIntendedFlags uid channel).2.channels.get k) := by
  unfold State.applyIntendedFlags
  split
  · exact .same
  · rename_i c hc
    split
    · exact .same
    · rename_i old hold
      dsimp only
      split_ifs with hsame
      · exact .same
      · by_cases hk : k = lower channel
        · subst hk
          rw [hc, Table.get_set_self]
          exact .derived hold
        · exact .of_eq (Table.get_set_ne _ hk _)

/-- Every step is a turn of each channel. -/
theorem step_turn (hstep : Step L s t) (hl : Linked s.state) (k : Text) :
    Turn L s.state k (s.state.channels.get k) (t.state.channels.get k) := by
  have hsame : t.state.channels = s.state.channels →
      Turn L s.state k (s.state.channels.get k) (t.state.channels.get k) :=
    fun heq => .of_eq (by rw [heq])
  cases hstep with
  | touch _ | register _ | oper | yields _ | identify _ _ _ _ | named _ =>
    exact hsame (State.channels_modifyUser ..)
  | recompute => exact hsame (recompute_same s _).2
  | grant _ => exact hsame (withGrant_same ..).2
  | @recase uid _ nick _ _ _ => exact hsame (channels_setNick _ uid nick)
  | rename hu _ _ hset => exact hsame (State.setNick_true hu hset).2.2.1
  | @remove uid => exact leaves_turn (removeUser_leaves hl uid)
  | @channel name f hquiet hf _ =>
    rw [modifyChannel, State.channel_modifyChannel]
    split_ifs with hk
    · rw [hk, ← State.channel]
      cases s.state.channel name with
      | none => exact .same
      | some c =>
        rcases hquiet with hmodes | hsame
        · exact .moded hmodes (hf.operators c) (hf.configured c)
        · have hc := hsame c
          exact .edited hc.rf hc.moderated hc.members (hf.operators c) (hf.configured c)
    · exact .same
  | @ensure name hcreates =>
    simp only [State.ensureChannel]
    split_ifs with hthere
    · exact .same
    · by_cases hk : k = lower name
      · subst hk
        have hnone : s.state.channels.get (lower name) = none := by simpa [State.channel] using hthere
        rw [Table.get_set_self, hnone]
        exact .opened hcreates rfl
      · exact .of_eq (Table.get_set_ne _ hk _)
  | join hjoin _ =>
    obtain ⟨⟨flags, st⟩, hst, heq⟩ := Option.map_eq_some_iff.mp hjoin
    obtain ⟨-, rfl⟩ := Prod.mk.inj heq
    exact join_turn hst
  | part => exact leaves_turn (part_leaves ..)
  | flags => exact applyIntendedFlags_turn ..
  | _ => exact hsame rfl

theorem without_eq (h : without uid c = some d) : d = { c with members := c.members.erase uid } := by
  unfold without at h
  dsimp only at h
  split_ifs at h
  exact (Option.some.inj h).symm

/-- What is the same of a channel that was there before. -/
structure Preserved (c d : Channel) : Prop where
  rf : d.rf = c.rf
  moderated : d.moderated = c.moderated
  operators : d.operators = c.operators

theorem Turn.before (h : Turn L st k o (some d)) (hmodes : ¬ L.changes .modes) :
    (∃ c, o = some c ∧ Preserved c d) ∨
      L.changes .creates ∧ o = none ∧ ∃ name, d = .new name false := by
  generalize hp : some d = p at h
  cases h with
  | same => exact .inl ⟨d, hp.symm, rfl, rfl, rfl⟩
  | moded h _ _ => exact absurd h hmodes
  | edited hrf hmoderated _ hoperators _ =>
    obtain rfl := Option.some.inj hp
    exact .inl ⟨_, rfl, hrf, hmoderated, hoperators⟩
  | left id =>
    obtain rfl := without_eq hp.symm
    exact .inl ⟨_, rfl, rfl, rfl, rfl⟩
  | entered _ _ | derived _ =>
    obtain rfl := Option.some.inj hp
    exact .inl ⟨_, rfl, rfl, rfl, rfl⟩
  | opened hcreates _ => exact .inr ⟨hcreates, rfl, _, Option.some.inj hp⟩

/-- Nobody is put on a list of operators. -/
theorem Turn.operators (h : Turn L st k o (some d)) :
    (∃ c, o = some c ∧ d.operators = c.operators) ∨ o = none ∧ d.operators = [] := by
  generalize hp : some d = p at h
  cases h with
  | same => exact .inl ⟨d, hp.symm, rfl⟩
  | moded _ hoperators _ | edited _ _ _ hoperators _ =>
    obtain rfl := Option.some.inj hp
    exact .inl ⟨_, rfl, hoperators⟩
  | left id =>
    obtain rfl := without_eq hp.symm
    exact .inl ⟨_, rfl, rfl⟩
  | entered _ _ | derived _ =>
    obtain rfl := Option.some.inj hp
    exact .inl ⟨_, rfl, rfl⟩
  | opened _ _ =>
    obtain rfl := Option.some.inj hp
    exact .inr ⟨rfl, rfl⟩

/-- A configured channel stays, with its list of operators. -/
theorem Turn.lasts (h : Turn L st k (some c) p) (hconf : c.configured = true) :
    ∃ d, p = some d ∧ d.configured = true ∧ d.operators = c.operators := by
  generalize ho : some c = o at h
  cases h with
  | same => exact ⟨c, ho.symm, hconf, rfl⟩
  | edited _ _ _ hoperators hconfigured | moded _ hoperators hconfigured =>
    obtain rfl := Option.some.inj ho
    exact ⟨_, rfl, hconfigured.trans hconf, hoperators⟩
  | left id =>
    obtain rfl := Option.some.inj ho
    refine ⟨{ c with members := c.members.erase id }, ?_, hconf, rfl⟩
    simp [without, hconf]
  | entered _ _ | derived _ =>
    obtain rfl := Option.some.inj ho
    exact ⟨_, rfl, hconf, rfl⟩
  | opened _ _ => cases ho

/-! ### What a step makes of a member's flags -/

/-- The user is there, and an operator of every channel that has this list of operators. -/
def entitled (st : State) (uid : UserId) (operators : List Text) : Bool :=
  (st.user uid).any fun u => Entitled u operators

theorem flagsForParts_bridged (st : State) (uid : UserId) (first : Bool) (operators : List Text) :
    (st.flagsForParts uid true first operators).op = entitled st uid operators ∧
      (st.flagsForParts uid true first operators).opManual = false := by
  unfold State.flagsForParts entitled State.user
  cases st.users.get uid with
  | none => exact ⟨rfl, rfl⟩
  | some u => exact ⟨rfl, rfl⟩

/-- In a bridged channel flags stay, or they are derived from the account and what was given. -/
theorem Turn.flags (h : Turn L st k o (some d)) (hmodes : ¬ L.changes .modes) (hrf : d.rf = true)
    (hg : d.members.get uid = some g) : ∃ c, o = some c ∧ Preserved c d ∧
      (c.members.get uid = some g ∨
        g.op = (entitled st uid d.operators || g.opManual) ∧
          (g.opManual = true → ∃ f, c.members.get uid = some f ∧ f.opManual = true)) := by
  generalize hp : some d = p at h
  cases h with
  | same => exact ⟨d, hp.symm, ⟨rfl, rfl, rfl⟩, .inl hg⟩
  | moded h _ _ => exact absurd h hmodes
  | edited hsame hmoderated hmembers hoperators _ =>
    obtain rfl := Option.some.inj hp
    exact ⟨_, rfl, ⟨hsame, hmoderated, hoperators⟩, .inl (hmembers ▸ hg)⟩
  | left id =>
    obtain rfl := without_eq hp.symm
    rw [Table.get_erase] at hg
    split_ifs at hg
    exact ⟨_, rfl, ⟨rfl, rfl, rfl⟩, .inl hg⟩
  | @entered id u c hu hout =>
    obtain rfl := Option.some.inj hp
    refine ⟨c, rfl, ⟨rfl, rfl, rfl⟩, ?_⟩
    rw [Table.get_set] at hg
    split_ifs at hg with hid
    · obtain rfl := Option.some.inj hg
      have hflags := flagsForParts_bridged st id c.members.entries.isEmpty c.operators
      have hbridged : c.rf = true := hrf
      refine .inr ⟨?_, fun h => ?_⟩
      · rw [hbridged, hflags.1, hflags.2, Bool.or_false, hid]
      · rw [hbridged, hflags.2] at h
        cases h
    · exact .inl hg
  | @derived id c old hold =>
    obtain rfl := Option.some.inj hp
    refine ⟨c, rfl, ⟨rfl, rfl, rfl⟩, ?_⟩
    rw [Table.get_set] at hg
    split_ifs at hg with hid
    · obtain rfl := Option.some.inj hg
      have hbridged : c.rf = true := hrf
      refine .inr ⟨?_, fun h => ⟨old, hid ▸ hold, h⟩⟩
      dsimp only
      rw [hbridged, (flagsForParts_bridged ..).1, hid]
    · exact .inl hg
  | opened _ _ =>
    obtain rfl := Option.some.inj hp
    cases hrf

theorem entitled_modifyUser {j : UserId} {change : User → User} {operators : List Text}
    (hchange : ∀ u, st.user j = some u → Entitled u operators = true →
      Entitled (change u) operators = true)
    (h : entitled st uid operators = true) : entitled (st.modifyUser j change) uid operators = true := by
  unfold entitled at h ⊢
  rw [State.user_modifyUser]
  split_ifs with hj
  · subst hj
    obtain ⟨u, hu, hentitled⟩ := (Option.any_eq_true _ _).mp h
    rw [hu]
    exact hchange u hu hentitled
  · exact h

/-- Nobody but who gives up a nick loses what follows from the account. -/
theorem step_entitled (hstep : Step L s t) (hs : Standing s)
    (hyields : ¬ L.changes (.yields uid)) (hthere : (t.user uid).isSome = true)
    {operators : List Text} (h : entitled s.state uid operators = true) :
    entitled t.state uid operators = true := by
  have hsame : t.state.users = s.state.users → entitled t.state uid operators = true := by
    intro heq
    rwa [entitled, State.user, heq]
  have hfresh : ∀ {u : User}, s.user u.id = none →
      entitled (s.state.insertUser u) uid operators = true := by
    intro u hnone
    have huser := State.user_insertUser s.state u uid
    rw [entitled, huser, if_neg]
    · exact h
    · rintro rfl
      rw [entitled, show s.state.user u.id = none from hnone] at h
      cases h
  cases hstep with
  | touch hf _ =>
    refine entitled_modifyUser (fun u _ hu => ?_) h
    rwa [Entitled, (hf u).oper, (hf u).nick, (hf u).nickIdentified]
  | register _ | named _ => exact entitled_modifyUser (fun _ _ hu => hu) h
  | oper => exact entitled_modifyUser (fun _ _ _ => rfl) h
  | @recompute v =>
    rcases recompute_cases s v with ⟨-, heq⟩ | ⟨u, c, -, heq⟩
    · rwa [heq]
    · rw [heq]
      exact entitled_modifyUser (fun _ _ hu => hu) h
  | @yields j _ hj hf =>
    have hne : uid ≠ j := by
      rintro rfl
      exact hyields hj
    rwa [entitled, modifyUser, State.user_modifyUser, if_neg hne]
  | @identify j u hu _ _ _ =>
    refine entitled_modifyUser (fun u _ hu => ?_) h
    simp only [Entitled, identified, Bool.or_eq_true, Bool.and_eq_true] at hu ⊢
    exact hu.imp_right fun hu => ⟨hu.1, trivial⟩
  | @recase j u nick hu hlower _ =>
    cases hset : s.state.setNick j nick with
    | mk ok st =>
      cases ok with
      | false =>
        rw [State.setNick_false hset]
        exact h
      | true =>
        rw [entitled, (State.setNick_true hu hset).1]
        split_ifs with hj
        · subst hj
          rw [entitled, show s.state.user uid = some u from hu] at h
          rw [Option.any_some] at h ⊢
          rwa [Entitled, ← hlower]
        · exact h
  | @rename j u nick st hu hfree _ hset =>
    rw [entitled, (State.setNick_true hu hset).1]
    split_ifs with hj
    · subst hj
      rw [entitled, show s.state.user uid = some u from hu] at h
      simpa [Entitled, hfree] using h
    · exact h
  | @connect id u hnew hid _ _ =>
    refine hfresh ?_
    cases hu : s.user u.id with
    | none => rfl
    | some v => exact absurd ((hs.users _ v hu).met id hid) hnew
  | station hnone hid _ _ => exact hfresh (hid ▸ hnone)
  | @remove j =>
    have huser := State.user_removeUser s.state j uid
    have hne : uid ≠ j := by
      rintro rfl
      rw [if_pos rfl] at huser
      rw [Server.user, huser] at hthere
      cases hthere
    rwa [entitled, huser, if_neg hne]
  | channel _ _ _ => exact hsame (State.users_modifyChannel ..)
  | ensure _ => exact hsame (State.users_ensureChannel ..)
  | join hjoin _ =>
    obtain ⟨⟨flags, st⟩, hst, heq⟩ := Option.map_eq_some_iff.mp hjoin
    obtain ⟨-, rfl⟩ := Prod.mk.inj heq
    obtain ⟨-, u, hu, husers⟩ := State.join_users hst
    rw [entitled, husers]
    split_ifs with hj
    · subst hj
      rw [entitled, hu] at h
      exact h
    · exact h
  | @part j channel =>
    rcases (State.part_users s.state j channel).2 with heq | heq
    · rwa [entitled, heq]
    · rw [entitled, heq]
      exact entitled_modifyUser (fun _ _ hu => hu) h
  | flags => exact hsame (State.applyIntendedFlags_users ..).1
  | @grant nick _ a _ =>
    unfold withGrant
    split
    · exact h
    · rename_i target _
      rcases recompute_cases { s with accounts := a } target with ⟨-, heq⟩ | ⟨u, c, -, heq⟩
      · rwa [heq]
      · rw [heq]
        exact entitled_modifyUser (fun _ _ hu => hu) h
  | _ => exact h

/-! ### Who is operator of a bridged channel -/

/-- Whoever is operator of a bridged channel was made one by hand, or follows from the account, or
is about to be looked at again. Nothing else was given by hand than what is on record. -/
def Governed (given pending : UserId → Text → Prop) (st : State) : Prop :=
  ∀ k c uid f, st.channels.get k = some c → c.rf = true → c.members.get uid = some f →
    (f.op = true → f.opManual = true ∨ pending uid k ∨ entitled st uid c.operators = true) ∧
      (f.opManual = true → f.op = true ∧ given uid k)

variable {given pending : UserId → Text → Prop}

theorem Governed.mono {given' pending' : UserId → Text → Prop} (h : Governed given pending st)
    (hgiven : ∀ uid k, given uid k → given' uid k)
    (hpending : ∀ uid k, pending uid k → pending' uid k) : Governed given' pending' st := by
  intro k c uid f hc hrf hf
  obtain ⟨hop, hmanual⟩ := h k c uid f hc hrf hf
  exact ⟨fun h => (hop h).imp_right (Or.imp_left (hpending uid k)),
    fun h => (hmanual h).imp_right (hgiven uid k)⟩

theorem step_governed (hstep : Step L s t) (hmodes : ¬ L.changes .modes)
    (hyields : ∀ uid, L.changes (.yields uid) → ∀ k, pending uid k) (hs : Standing s)
    (hl : Linked s.state) (h : Governed given pending s.state) : Governed given pending t.state := by
  intro k d uid g hd hrf hg
  have hthere : (t.user uid).isSome = true :=
    (step_linked hstep hs hl).member_present ⟨d, hd, by rw [Channel.isMember, hg]; rfl⟩
  have hkept : ∀ operators, entitled s.state uid operators = true →
      pending uid k ∨ entitled t.state uid operators = true := by
    intro operators hentitled
    by_cases hgives : L.changes (.yields uid)
    · exact .inl (hyields uid hgives k)
    · exact .inr (step_entitled hstep hs hgives hthere hentitled)
  have hturn := step_turn hstep hl k
  rw [hd] at hturn
  obtain ⟨c, hc, hsame, hflags⟩ := hturn.flags hmodes hrf hg
  have hbridged : c.rf = true := hsame.rf.symm.trans hrf
  rcases hflags with hflags | ⟨hop, hmanual⟩
  · obtain ⟨hop, hmanual⟩ := h k c uid g hc hbridged hflags
    refine ⟨fun hg => ?_, hmanual⟩
    rcases hop hg with hhand | hpending | hentitled
    · exact .inl hhand
    · exact .inr (.inl hpending)
    · exact .inr (hkept _ (hsame.operators ▸ hentitled))
  · constructor
    · intro hg
      rw [hop, Bool.or_eq_true] at hg
      exact hg.symm.imp_right (hkept _)
    · intro hhand
      obtain ⟨f, hf, hfhand⟩ := hmanual hhand
      refine ⟨?_, ((h k c uid f hc hbridged hf).2 hfhand).2⟩
      rw [hop, hhand, Bool.or_true]

theorem steps_governed (hsteps : Steps L s t) (hmodes : ¬ L.changes .modes)
    (hyields : ∀ uid, L.changes (.yields uid) → ∀ k, pending uid k) (hs : Standing s)
    (hl : Linked s.state) (h : Governed given pending s.state) : Governed given pending t.state := by
  induction hsteps with
  | refl => exact h
  | tail hbefore hstep ih =>
    exact step_governed hstep hmodes hyields (steps_standing hbefore hs)
      (steps_linked hbefore hs hl) ih

/-- What counts for one channel of a state. -/
def GovernedIn (given pending : UserId → Prop) (st : State) (ch : Channel) : Prop :=
  ch.rf = true → ∀ uid f, ch.members.get uid = some f →
    (f.op = true → f.opManual = true ∨ pending uid ∨ entitled st uid ch.operators = true) ∧
      (f.opManual = true → f.op = true ∧ given uid)

theorem Governed.modifyChannel {given' pending' : UserId → Text → Prop} {ch : Channel} {name : Text}
    {change : Channel → Channel} (h : Governed given pending st) (hch : st.channel name = some ch)
    (hother : ∀ uid k, k ≠ lower name → (given uid k → given' uid k) ∧
      (pending uid k → pending' uid k))
    (hown : GovernedIn (given' · (lower name)) (pending' · (lower name)) st (change ch)) :
    Governed given' pending' (st.modifyChannel name change) := by
  have husers : ∀ uid operators,
      entitled (st.modifyChannel name change) uid operators = entitled st uid operators := by
    intro uid operators
    rw [entitled, State.user, State.users_modifyChannel]
    rfl
  intro k d uid f hd hrf hf
  rw [husers]
  rw [State.channel_modifyChannel, hch] at hd
  split_ifs at hd with hk
  · obtain rfl := Option.some.inj hd
    subst hk
    exact hown hrf uid f hf
  · obtain ⟨hop, hmanual⟩ := h k d uid f hd hrf hf
    exact ⟨fun h => (hop h).imp_right (Or.imp_left (hother uid k hk).2),
      fun h => (hmanual h).imp_right (hother uid k hk).1⟩

/-! ### Recomputations -/

/-- A licence for all but modes, new channels and nicks that are given up. -/
def calm : Licence := { anything with changes := fun _ => False }

/-- The flags of a member after they were derived. -/
theorem applyIntendedFlags_settles {channel : Text}
    (hd : (st.applyIntendedFlags uid channel).2.channels.get (lower channel) = some d)
    (hrf : d.rf = true) (hg : d.members.get uid = some g) :
    g.op = (entitled st uid d.operators || g.opManual) := by
  unfold State.applyIntendedFlags at hd
  split at hd
  · rename_i hnone
    rw [hnone] at hd
    cases hd
  · rename_i c hc
    split at hd
    · rename_i hout
      obtain rfl := Option.some.inj (hc.symm.trans hd)
      rw [hout] at hg
      cases hg
    · rename_i old hold
      dsimp only at hd
      split_ifs at hd with hsame
      · obtain rfl := Option.some.inj (hc.symm.trans hd)
        obtain rfl := Option.some.inj (hold.symm.trans hg)
        have hop := congrArg MemberFlags.op hsame
        rwa [hrf, (flagsForParts_bridged ..).1] at hop
      · rw [Table.get_set_self] at hd
        obtain rfl := Option.some.inj hd
        rw [Table.get_set_self] at hg
        obtain rfl := Option.some.inj hg
        have hbridged : c.rf = true := hrf
        dsimp only
        rw [hbridged, (flagsForParts_bridged ..).1]

/-- The flags in one more channel are looked at. -/
theorem Governed.apply {todo : Text → Prop} (channel : Text)
    (h : Governed given (fun w k => pending w k ∨ w = uid ∧ todo k) st) :
    Governed given (fun w k => pending w k ∨ w = uid ∧ todo k ∧ k ≠ lower channel)
      (st.applyIntendedFlags uid channel).2 := by
  have husers : ∀ w operators,
      entitled (st.applyIntendedFlags uid channel).2 w operators = entitled st w operators := by
    intro w operators
    rw [entitled, State.user, (State.applyIntendedFlags_users ..).1]
    rfl
  intro k d w g hd hrf hg
  rw [husers]
  have hturn : Turn calm st k _ _ := applyIntendedFlags_turn st uid channel
  rw [hd] at hturn
  obtain ⟨c, hc, hsame, hflags⟩ := hturn.flags id hrf hg
  have hbridged : c.rf = true := hsame.rf.symm.trans hrf
  rcases hflags with hflags | ⟨hop, hmanual⟩
  · obtain ⟨hop, hmanual⟩ := h k c w g hc hbridged hflags
    refine ⟨fun hg' => ?_, hmanual⟩
    by_cases hown : w = uid ∧ k = lower channel
    · obtain ⟨rfl, rfl⟩ := hown
      rw [applyIntendedFlags_settles hd hrf hg, Bool.or_eq_true] at hg'
      exact hg'.symm.imp_right .inr
    · rcases hop hg' with hhand | (hpending | ⟨hw, htodo⟩) | hentitled
      · exact .inl hhand
      · exact .inr (.inl (.inl hpending))
      · exact .inr (.inl (.inr ⟨hw, htodo, fun hk => hown ⟨hw, hk⟩⟩))
      · exact .inr (.inr (hsame.operators ▸ hentitled))
  · constructor
    · intro hg'
      rw [hop, Bool.or_eq_true] at hg'
      exact hg'.symm.imp_right .inr
    · intro hhand
      obtain ⟨f, hf, hfhand⟩ := hmanual hhand
      refine ⟨?_, ((h k c w f hc hbridged hf).2 hfhand).2⟩
      rw [hop, hhand, Bool.or_true]

theorem Governed.applyAll {todo : Text → Prop} (channels : List Text)
    (h : Governed given (fun w k => pending w k ∨ w = uid ∧ todo k) st) :
    Governed given (fun w k => pending w k ∨ w = uid ∧ todo k ∧ k ∉ channels.map lower)
      (ChannelStatus.applyAll uid st channels) := by
  induction channels generalizing st todo with
  | nil => exact h.mono (fun _ _ h => h) fun _ _ h => h.imp_right fun h => ⟨h.1, h.2, List.not_mem_nil⟩
  | cons channel channels ih =>
    refine (ih (h.apply channel)).mono (fun _ _ h => h) fun w k hk => hk.imp_right ?_
    rintro ⟨hw, ⟨htodo, hne⟩, hout⟩
    refine ⟨hw, htodo, fun hmem => ?_⟩
    rw [List.map_cons, List.mem_cons] at hmem
    exact hmem.elim hne hout

theorem applyAll_holds (channels : List Text) (st : State) :
    Holds (applyAll uid st channels) k v ↔ Holds st k v := by
  induction channels generalizing st with
  | nil => rfl
  | cons channel channels ih =>
    exact (ih _).trans (holds_congr (applyIntendedFlags_members st uid channel k) v)

/-- The user goes through all of its channels. -/
theorem Governed.reapply (hl : Linked s.state) (hn : Named s)
    (h : Governed given (fun w k => pending w k ∨ w = uid) s.state) :
    Governed given pending (s.reapplyFlags uid).state := by
  have hall : Governed given _ (ChannelStatus.applyAll uid s.state (Outlet.channelNames s.state uid)) :=
    Governed.applyAll _ (h.mono (fun _ _ h => h) fun _ _ h =>
      h.imp_right fun h => (⟨h, trivial⟩ : _ ∧ True))
  rw [reapplyFlags_state]
  intro k d w g hd hrf hg
  obtain ⟨hop, hmanual⟩ := hall k d w g hd hrf hg
  refine ⟨fun hg' => ?_, hmanual⟩
  rcases hop hg' with hhand | (hpending | ⟨rfl, -, hout⟩) | hentitled
  · exact .inl hhand
  · exact .inr (.inl hpending)
  · refine absurd ?_ hout
    have hholds : Holds s.state k w := by
      refine (applyAll_holds _ s.state).mp ⟨d, hd, ?_⟩
      rw [Channel.isMember, hg]
      rfl
    obtain ⟨u, hu, hlisted⟩ := (hl.channels w k).mpr hholds
    obtain ⟨c, hc, -⟩ := hholds
    rw [Outlet.channelNames, hu, Option.elim_some]
    exact List.mem_map.mpr ⟨c.name, List.mem_filterMap.mpr ⟨k, hlisted, by rw [hc]; rfl⟩, hn k c hc⟩
  · exact .inr (.inr hentitled)

theorem calm_governed (hsteps : Steps calm s t) (hs : Standing s) (hl : Linked s.state)
    (h : Governed given pending s.state) : Governed given pending t.state :=
  steps_governed hsteps id (fun _ h => h.elim) hs hl h

/-- The specification of a recomputation, for bridged channels. The induction is on the rounds that
are left; only the last thing that a round does is of interest. -/
theorem refreshWith_governed (n : ℕ) (m : Moment) (hs : Standing (recompute s uid))
    (hl : Linked (recompute s uid).state) (hn : Named (recompute s uid))
    (h : Governed given (fun w k => pending w k ∨ w = uid) (recompute s uid).state) :
    Governed given pending (refreshWith n s m uid).state := by
  have hreapplied : ∀ t, Steps calm (recompute s uid) t → Governed given pending (t.reapplyFlags uid).state :=
    fun t ht => (calm_governed ht hs hl h).reapply (steps_linked ht hs hl) (steps_named ht hn)
  cases n with
  | zero => exact hreapplied _ (refreshRfTx_steps (fun _ _ => .refl) uid)
  | succ n =>
    refine hreapplied _ (refreshRfTx_steps (fun s c => stripWith_steps s (fun s v => ?_) ..) uid)
    exact (Relation.ReflTransGen.single .recompute).trans (refreshWith_settles n s m v)

theorem refreshPrivileges_governed (m : Moment) (hs : Standing (recompute s uid))
    (hl : Linked (recompute s uid).state) (hn : Named (recompute s uid))
    (h : Governed given (fun w k => pending w k ∨ w = uid) (recompute s uid).state) :
    Governed given pending (s.refreshPrivileges m uid).state :=
  refreshWith_governed _ m hs hl hn h

/-! ### Who gives up a nick -/

/-- A licence under which nobody but one user may give up a nick. -/
def yielding (uid : UserId) : Licence := { calm with changes := fun c => c = .yields uid }

/-- Whoever gives up a nick has its privileges computed anew. -/
theorem yielding_governed (m : Moment) (hsteps : Steps (yielding uid) s (recompute t uid))
    (hs : Grounded s) (hl : Linked s.state) (h : Governed given pending s.state) :
    Governed given pending (t.refreshPrivileges m uid).state := by
  apply refreshPrivileges_governed m (steps_standing hsteps hs.standing)
    (steps_linked hsteps hs.standing hl) (steps_named hsteps hs.named)
  refine steps_governed hsteps (fun h => by cases h) (fun v hv k => .inr ?_) hs.standing hl
    (h.mono (fun _ _ h => h) fun _ _ => .inl)
  exact Change.yields.inj hv

theorem takeNick_governed (m : Moment) {id : ℕ} {user : User} {nick : Text} (hs : Grounded s)
    (hl : Linked s.state) (hu : s.user (.ip id) = some user) (hnick : nick ≠ ['*'])
    (h : Governed given pending s.state) :
    Governed given pending (s.takeNick m (.ip id) user nick).state := by
  rcases takeNick_cases (L := calm) s m (.ip id) user nick with heq | ⟨st, deadline, o, hset, ho, heq⟩
  · rw [heq]
    exact h
  · rw [heq]
    split_ifs with hreg
    · have hyields : Steps (yielding (.ip id)) s (recompute (afterNick s st (.ip id) deadline o) _) :=
        afterNick_registered rfl hs.standing hu hreg hnick hset ho
      exact yielding_governed m hyields hs hl h
    · have hunreg : user.registered = false := by simpa using hreg
      have hafter : Steps calm s (afterNick s st (.ip id) deadline o) :=
        afterNick_unregistered hs.standing hu hunreg hnick hset ho
      exact calm_governed (hafter.trans (tryCompleteRegistration_steps ..)) hs.standing hl h

theorem cmdNick_governed (m : Moment) (id : ℕ) (msg : Message) (hs : Grounded s)
    (hl : Linked s.state) (h : Governed given pending s.state) :
    Governed given pending (s.cmdNick m (.ip id) msg).state := by
  unfold cmdNick
  split
  · exact h
  · rename_i nick _
    split
    · exact h
    · rename_i hvalid
      have hnick : nick ≠ ['*'] := ServerSteps.validNick_ne_star (by simpa using hvalid)
      split
      · exact h
      · split
        · exact h
        · rename_i user hu
          split_ifs with hown
          · exact calm_governed (recaseNick_steps m hu hown.2.2 hnick) hs.standing hl h
          · exact h
          · exact takeNick_governed m hs hl hu hnick h

theorem finishUnregister_governed (m : Moment) {user : User} (hs : Grounded s) (hl : Linked s.state)
    (hu : s.user uid = some user) (h : Governed given pending s.state) :
    Governed given pending (s.finishUnregister m uid user).state := by
  unfold finishUnregister
  split
  · exact h
  · rename_i accounts ha
    have hgone : Steps (yielding uid) s ({ s with accounts := accounts }.modifyUser uid disowned) :=
      unregister_steps hu rfl ha trivial
    exact yielding_governed m ((hgone.trans (noticeUser_steps ..)).tail .recompute) hs hl h

theorem cmdDropnick_governed (m : Moment) (msg : Message) (hs : Grounded s) (hl : Linked s.state)
    (h : Governed given pending s.state) :
    Governed given pending (s.cmdDropnick m uid msg).state := by
  unfold cmdDropnick requireOper
  split_ifs
  · split
    · exact h
    · rename_i nick _
      dsimp only
      split
      · exact h
      · rename_i accounts ha
        rw [findTarget]
        cases hby : s.state.byNick nick with
        | none => exact h
        | some w =>
          have hgone : Steps (yielding w.id) s _ := disown_steps hs.standing rfl hby ha trivial
          exact yielding_governed m ((hgone.trans (noticeUser_steps ..)).tail .recompute) hs hl h
  · exact h

end BridgedOperators
