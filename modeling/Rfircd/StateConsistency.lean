import Rfircd.ServerCore
import Rfircd.ServerInvariants

/-! Users, nicks and channels agree with each other.
Each is kept by code of its own in every operation, so what one says of another is proved here for
each operation, and from it for every state they reach. -/
namespace StateConsistency

open Basics KeyedTable MessageText IrcMessage IrcState ServerOutput TransitionSystem
open ServerCore.Server (configuredChannels)
open ServerInvariants (Configures configuredChannels_induction)

/-! ### The invariant -/

/-- The user has that nick, up to case. Nobody is called by the placeholder. -/
def Bears (st : State) (id : UserId) (key : Text) : Prop :=
  ∃ u, st.user id = some u ∧ u.nick ≠ ['*'] ∧ lower u.nick = key

/-- The user lists the channel. -/
def Lists (st : State) (id : UserId) (key : Text) : Prop :=
  ∃ u, st.user id = some u ∧ key ∈ u.channels

/-- The channel lists the user. -/
def Holds (st : State) (key : Text) (id : UserId) : Prop :=
  ∃ c, st.channels.get key = some c ∧ c.isMember id = true

structure Linked (st : State) : Prop where
  nicks : ∀ key id, st.nicks.get key = some id ↔ Bears st id key
  channels : ∀ id key, Lists st id key ↔ Holds st key id
  once : ∀ id u, st.user id = some u → u.channels.Nodup

/-- A channel that users made has somebody in it. -/
def Occupied (st : State) : Prop :=
  ∀ key c, st.channels.get key = some c → c.configured = false → ∃ id, c.isMember id = true

structure Consistent (st : State) : Prop extends Linked st where
  occupied : Occupied st

variable {st t : State} {id j : UserId} {key k : Text}

theorem Linked.member_present (h : Linked st) (hk : Holds st key id) :
    (st.user id).isSome = true := by
  obtain ⟨u, hu, -⟩ := (h.channels id key).mpr hk
  rw [hu]
  rfl

/-- Two users are never called the same. -/
theorem Linked.bears_unique (h : Linked st) (hi : Bears st id key) (hj : Bears st j key) :
    id = j :=
  Option.some.inj (((h.nicks key id).mpr hi).symm.trans ((h.nicks key j).mpr hj))

/-! ### Nicks -/

/-- Somebody comes who is called nothing yet. -/
theorem Linked.insertUser (h : Linked st) {u : User} (hfresh : st.user u.id = none)
    (hnick : u.nick = ['*']) (hchannels : u.channels = []) : Linked (st.insertUser u) := by
  have huser : ∀ j, (st.insertUser u).user j = if j = u.id then some u else st.user j :=
    State.user_insertUser st u
  have hold : ∀ {j v}, st.user j = some v → (st.insertUser u).user j = some v := by
    intro j v hv
    rw [huser, if_neg, hv]
    rintro rfl
    exact Option.some_ne_none v (hv.symm.trans hfresh)
  have hnew : ∀ {j v}, (st.insertUser u).user j = some v → v = u ∨ st.user j = some v := by
    intro j v hv
    rw [huser] at hv
    split_ifs at hv
    · exact .inl (Option.some.inj hv).symm
    · exact .inr hv
  constructor
  · intro key id
    rw [show (st.insertUser u).nicks = st.nicks from rfl, h.nicks]
    constructor
    · rintro ⟨v, hv, hb⟩
      exact ⟨v, hold hv, hb⟩
    · rintro ⟨v, hv, hstar, hb⟩
      rcases hnew hv with rfl | hv
      · exact absurd hnick hstar
      · exact ⟨v, hv, hstar, hb⟩
  · intro id key
    rw [show Holds (st.insertUser u) key id ↔ Holds st key id from Iff.rfl, ← h.channels]
    constructor
    · rintro ⟨v, hv, hk⟩
      rcases hnew hv with rfl | hv
      · rw [hchannels] at hk
        cases hk
      · exact ⟨v, hv, hk⟩
    · rintro ⟨v, hv, hk⟩
      exact ⟨v, hold hv, hk⟩
  · intro id v hv
    rcases hnew hv with rfl | hv
    · rw [hchannels]
      exact List.nodup_nil
    · exact h.once id v hv

/-- A nick is claimed, which may be one's own in another case. -/
theorem Linked.setNick (h : Linked st) (id : UserId) {nick : Text} (hnick : nick ≠ ['*']) :
    Linked (st.setNick id nick).2 := by
  rcases hset : st.setNick id nick with ⟨- | -, t⟩
  · rw [State.setNick_false hset]
    exact h
  obtain ⟨u, hu⟩ : ∃ u, st.user id = some u := by
    cases hu : st.user id with
    | some u => exact ⟨u, rfl⟩
    | none =>
      have hu' : st.users.get id = none := hu
      simp [State.setNick, hu'] at hset
  obtain ⟨husers, hnicks, hchannels, hfree⟩ := State.setNick_true hu hset
  have hlists : ∀ j key, Lists t j key ↔ Lists st j key := by
    intro j key
    unfold Lists
    rw [husers]
    split_ifs with hj
    · subst hj
      simp [hu]
    · rfl
  constructor
  · intro key j
    rw [hnicks]
    by_cases hj : j = id
    · -- its own nick: the new one, and no longer the old one
      subst hj
      have hbears : Bears t j key ↔ lower nick = key := by
        unfold Bears
        rw [husers, if_pos rfl]
        simp [hnick]
      rw [hbears]
      constructor
      · intro hkey
        split_ifs at hkey with hnew hold
        · exact hnew.symm
        · obtain ⟨v, hv, -, hkey⟩ := (h.nicks key j).mp hkey
          obtain rfl := Option.some.inj (hv.symm.trans hu)
          exact absurd hkey.symm hold
      · intro hkey
        rw [if_pos hkey.symm]
    · have hbears : Bears t j key ↔ Bears st j key := by
        unfold Bears
        rw [husers, if_neg hj]
      rw [hbears, ← h.nicks]
      split_ifs with hnew hold
      · subst hnew
        exact ⟨fun heq => absurd (Option.some.inj heq).symm hj, fun heq => absurd (hfree j heq) hj⟩
      · -- nobody else had the nick that is given up
        refine ⟨False.elim, fun heq => ?_⟩
        obtain ⟨v, hv, hstar, hkey⟩ := (h.nicks key j).mp heq
        by_cases hplace : u.nick = ['*']
        · rw [hold, hplace] at hkey
          exact absurd (ServerSteps.lower_star hkey) hstar
        · exact absurd (h.bears_unique ⟨v, hv, hstar, hkey⟩ ⟨u, hu, hplace, hold.symm⟩) hj
      · rfl
  · intro j key
    rw [hlists, h.channels]
    unfold Holds
    rw [hchannels]
  · intro j v hv
    rw [husers] at hv
    split_ifs at hv
    · obtain rfl := Option.some.inj hv
      exact h.once id u hu
    · exact h.once j v hv

theorem channels_setNick (st : State) (id : UserId) (nick : Text) :
    (st.setNick id nick).2.channels = st.channels := by
  unfold State.setNick
  split
  · rfl
  · split_ifs <;> rfl

/-! ### Coming into a channel -/

theorem isMember_set (c : Channel) (id : UserId) (flags : MemberFlags) (j : UserId) :
    { c with members := c.members.set id flags }.isMember j = true ↔ j = id ∨ c.isMember j = true := by
  unfold Channel.isMember
  rw [Table.get_set]
  split_ifs with hj
  · simp [hj]
  · simp [hj]

/-- What a user changes by coming in. -/
theorem join_spec {channel : Text} {flags : MemberFlags}
    (h : st.join id channel = some (flags, t)) :
    ∃ u c, st.user id = some u ∧ st.channels.get (lower channel) = some c ∧
      c.isMember id = false ∧ t.nicks = st.nicks ∧
      (∀ j, t.user j = if j = id then
        some { u with channels := u.channels.insert (lower channel) } else st.user j) ∧
      ∀ k, t.channels.get k = if k = lower channel then
        some { c with members := c.members.set id flags } else st.channels.get k := by
  unfold State.join at h
  split at h
  · rename_i u c hu hc
    split_ifs at h with hmember
    obtain ⟨rfl, rfl⟩ := Prod.mk.inj (Option.some.inj h)
    exact ⟨u, c, hu, hc, by simpa using hmember, rfl, fun j => Table.get_set .., fun k => Table.get_set ..⟩
  · cases h

/-- A user who is there, and not in the channel yet, comes in. -/
theorem join_isSome {u : User} {c : Channel} {channel : Text} (hu : st.user id = some u)
    (hc : st.channels.get (lower channel) = some c) (hout : c.isMember id = false) :
    (st.join id channel).isSome = true := by
  have hu' : st.users.get id = some u := hu
  simp [State.join, hu', hc, hout]

theorem join_holds {channel : Text} {flags : MemberFlags}
    (hjoin : st.join id channel = some (flags, t)) (key : Text) (j : UserId) :
    Holds t key j ↔ Holds st key j ∨ j = id ∧ key = lower channel := by
  obtain ⟨u, c, -, hc, -, -, -, hchannels⟩ := join_spec hjoin
  unfold Holds
  rw [hchannels]
  split_ifs with hkey
  · subst hkey
    simp [hc, isMember_set, or_comm]
  · simp [hkey]

theorem Linked.join (h : Linked st) {channel : Text} {flags : MemberFlags}
    (hjoin : st.join id channel = some (flags, t)) : Linked t := by
  obtain ⟨u, c, hu, -, -, hnicks, husers, -⟩ := join_spec hjoin
  constructor
  · intro key j
    have hbears : Bears t j key ↔ Bears st j key := by
      unfold Bears
      rw [husers]
      split_ifs with hj
      · subst hj
        simp [hu]
      · rfl
    rw [hnicks, h.nicks, hbears]
  · intro j key
    have hlists : Lists t j key ↔ Lists st j key ∨ j = id ∧ key = lower channel := by
      unfold Lists
      rw [husers]
      split_ifs with hj
      · subst hj
        simp [hu, List.mem_insert_iff, or_comm]
      · simp [hj]
    rw [hlists, join_holds hjoin, h.channels]
  · intro j v hv
    rw [husers] at hv
    split_ifs at hv with hj
    · obtain rfl := Option.some.inj hv
      exact (h.once id u hu).insert
    · exact h.once j v hv

/-- A channel nobody has is made, and nobody is in it. -/
theorem ensureChannel_get (st : State) (channel : Text) (rf : Bool) (k : Text) :
    (st.ensureChannel channel rf).channels.get k =
      if k = lower channel then some ((st.channels.get k).getD (.new channel rf))
      else st.channels.get k := by
  unfold State.ensureChannel
  split_ifs with hsome hk hk
  · obtain ⟨c, hc⟩ := Option.isSome_iff_exists.mp hsome
    rw [hk, show st.channels.get (lower channel) = some c from hc]
    rfl
  · rfl
  · have hnone : st.channels.get (lower channel) = none := Option.not_isSome_iff_eq_none.mp hsome
    rw [Table.get_set, if_pos hk, hk, hnone]
    rfl
  · rw [Table.get_set, if_neg hk]

theorem ensureChannel_holds (st : State) (channel : Text) (rf : Bool) (key : Text) (id : UserId) :
    Holds (st.ensureChannel channel rf) key id ↔ Holds st key id := by
  unfold Holds
  rw [ensureChannel_get]
  split_ifs with hkey
  · cases st.channels.get key with
    | some c => rfl
    | none => simp [Channel.new, Channel.isMember]
  · rfl

theorem Linked.ensureChannel (h : Linked st) (channel : Text) (rf : Bool) :
    Linked (st.ensureChannel channel rf) := by
  have husers : (st.ensureChannel channel rf).users = st.users := State.users_ensureChannel ..
  have huser : (st.ensureChannel channel rf).user = st.user := by
    funext j
    rw [State.user, husers]
    rfl
  constructor
  · intro key id
    unfold Bears
    rw [State.nicks_ensureChannel, huser]
    exact h.nicks key id
  · intro id key
    unfold Lists
    rw [ensureChannel_holds, huser]
    exact h.channels id key
  · rw [huser]
    exact h.once

/-- A channel that is made when nobody has it, and the user in it. -/
def enter (st : State) (id : UserId) (channel : Text) (rf : Bool) : State :=
  let st := st.ensureChannel channel rf
  match st.join id channel with
  | none => st
  | some (_, st) => st

/-- Whoever comes in is there, so the channel is not left empty. -/
theorem Consistent.enter (h : Consistent st) (hu : (st.user id).isSome = true) (channel : Text)
    (rf : Bool) : Consistent (enter st id channel rf) := by
  have hensured := h.toLinked.ensureChannel channel rf
  have hget := ensureChannel_get st channel rf
  unfold StateConsistency.enter
  dsimp only
  generalize hst : st.ensureChannel channel rf = made at hensured hget
  obtain ⟨u, hu⟩ := Option.isSome_iff_exists.mp hu
  have hu' : made.user id = some u := by
    rw [← hst, State.user, State.users_ensureChannel]
    exact hu
  have hc := (hget (lower channel)).trans (if_pos rfl)
  generalize (st.channels.get (lower channel)).getD (.new channel rf) = c at hc
  have hrest : ∀ key d, made.channels.get key = some d → d.configured = false → key ≠ lower channel →
      ∃ j, d.isMember j = true := by
    intro key d hd hconf hne
    rw [hget, if_neg hne] at hd
    exact h.occupied key d hd hconf
  cases hjoin : made.join id channel with
  | some joined =>
    obtain ⟨flags, t⟩ := joined
    refine ⟨hensured.join hjoin, ?_⟩
    obtain ⟨-, d, -, -, -, -, -, hchannels⟩ := join_spec hjoin
    intro key e he hconf
    rw [hchannels] at he
    split_ifs at he with hkey
    · obtain rfl := Option.some.inj he
      exact ⟨id, (isMember_set d id flags id).mpr (.inl rfl)⟩
    · exact hrest key e he hconf hkey
  | none =>
    refine ⟨hensured, ?_⟩
    intro key e he hconf
    by_cases hkey : key = lower channel
    · obtain rfl : e = c := Option.some.inj (he.symm.trans (hkey ▸ hc))
      refine ⟨id, ?_⟩
      by_contra hout
      have hsome := join_isSome hu' hc (by simpa using hout)
      rw [hjoin] at hsome
      cases hsome
    · exact hrest key e he hconf hkey

/-! ### Leaving -/

/-- A channel without the user, if there is still one. -/
def without (id : UserId) (c : Channel) : Option Channel :=
  let c := { c with members := c.members.erase id }
  if !c.configured && c.members.entries.isEmpty then none else some c

theorem isMember_erase (c : Channel) (id j : UserId) :
    { c with members := c.members.erase id }.isMember j = true ↔ j ≠ id ∧ c.isMember j = true := by
  unfold Channel.isMember
  rw [Table.get_erase]
  split_ifs with hj
  · simp [hj]
  · simp [hj]

theorem isMember_of_entries {c : Channel} (h : c.members.entries.isEmpty = false) :
    ∃ id, c.isMember id = true := by
  obtain ⟨⟨id, flags⟩, l, hl⟩ := List.exists_cons_of_ne_nil (List.isEmpty_eq_false_iff.mp h)
  refine ⟨id, ?_⟩
  rw [Channel.isMember, Table.mem_entries_iff.mp (by rw [hl]; exact List.mem_cons_self)]
  rfl

theorem entries_of_isMember {c : Channel} (h : c.isMember id = true) :
    c.members.entries.isEmpty = false := by
  obtain ⟨flags, hflags⟩ := Option.isSome_iff_exists.mp h
  rw [List.isEmpty_eq_false_iff]
  exact List.ne_nil_of_mem (Table.mem_entries_iff.mpr hflags)

/-- The channel stays while anybody is left in it. -/
theorem without_holds (c : Channel) (id j : UserId) :
    (∃ d, without id c = some d ∧ d.isMember j = true) ↔ j ≠ id ∧ c.isMember j = true := by
  rw [← isMember_erase]
  unfold without
  dsimp only
  constructor
  · rintro ⟨d, hd, hmember⟩
    split_ifs at hd
    obtain rfl := Option.some.inj hd
    exact hmember
  · intro hmember
    rw [entries_of_isMember hmember, Bool.and_false, if_neg Bool.false_ne_true]
    exact ⟨_, rfl, hmember⟩

theorem without_occupied {c d : Channel} (h : without id c = some d) (hconf : d.configured = false) :
    ∃ j, d.isMember j = true := by
  unfold without at h
  dsimp only at h
  split_ifs at h with hgone
  obtain rfl := Option.some.inj h
  rw [hconf, Bool.not_false, Bool.true_and] at hgone
  exact isMember_of_entries (by simpa using hgone)

theorem leave_channels (st : State) (id : UserId) (key k : Text) :
    (st.leave id key).channels.get k =
      if k = key then (st.channels.get key).bind (without id) else st.channels.get k := by
  unfold State.leave State.reapChannel
  cases hc : st.channels.get key with
  | none =>
    simp only [Option.any_none, Bool.false_eq_true, if_false, Option.bind_none]
    split_ifs with hk
    · exact hk ▸ hc
    · rfl
  | some c =>
    simp only [Table.get_set_self, Option.any_some, Option.bind_some, without]
    split_ifs with hgone hk hk
    · rw [Table.get_erase, if_pos hk]
    · rw [Table.get_erase, if_neg hk, Table.get_set, if_neg hk]
    · rw [Table.get_set, if_pos hk]
    · rw [Table.get_set, if_neg hk]

theorem leaveAll_channels (id : UserId) {keys : List Text} (hnodup : keys.Nodup) (st : State)
    (k : Text) : (keys.foldl (fun st key => st.leave id key) st).channels.get k =
      if k ∈ keys then (st.channels.get k).bind (without id) else st.channels.get k := by
  induction keys generalizing st with
  | nil => rfl
  | cons key keys ih =>
    rw [List.foldl_cons, ih (List.nodup_cons.mp hnodup).2, leave_channels]
    by_cases hk : k = key
    · subst hk
      rw [if_neg (List.nodup_cons.mp hnodup).1, if_pos rfl, if_pos List.mem_cons_self]
    · rw [if_neg hk]
      simp only [List.mem_cons, hk, false_or]

/-- The user is taken out of those channels, and out of none else. -/
structure Leaves (id : UserId) (keys : Text → Prop) (st t : State) : Prop where
  left : ∀ k, keys k → t.channels.get k = (st.channels.get k).bind (without id)
  same : ∀ k, ¬ keys k → t.channels.get k = st.channels.get k

theorem Leaves.holds {keys : Text → Prop} (h : Leaves id keys st t) (k : Text) (j : UserId) :
    Holds t k j ↔ Holds st k j ∧ ¬ (j = id ∧ keys k) := by
  unfold Holds
  by_cases hk : keys k
  · rw [h.left k hk]
    cases st.channels.get k with
    | none => simp
    | some c =>
      have := without_holds c id j
      simp only [Option.bind_some, Option.some.injEq, exists_eq_left', this, hk, and_true]
      exact and_comm
  · rw [h.same k hk]
    simp [hk]

theorem Leaves.occupied {keys : Text → Prop} (h : Leaves id keys st t) (ho : Occupied st) :
    Occupied t := by
  intro k c hc hconf
  by_cases hk : keys k
  · rw [h.left k hk] at hc
    obtain ⟨d, -, hd⟩ := Option.bind_eq_some_iff.mp hc
    exact without_occupied hd hconf
  · rw [h.same k hk] at hc
    exact ho k c hc hconf

theorem part_leaves (st : State) (id : UserId) (channel : Text) :
    Leaves id (· = lower channel) st (st.part id channel).2 := by
  unfold State.part
  dsimp only
  cases hc : st.channels.get (lower channel) with
  | none =>
    refine ⟨fun k hk => ?_, fun k _ => rfl⟩
    rw [hk, hc]
    rfl
  | some c =>
    refine ⟨fun k hk => ?_, fun k hk => ?_⟩
    · rw [leave_channels, if_pos hk, State.channels_modifyUser, hk]
    · rw [leave_channels, if_neg hk, State.channels_modifyUser]

theorem part_user (h : Linked st) (id : UserId) (channel : Text) (j : UserId) :
    (st.part id channel).2.user j =
      if j = id then (st.user id).map fun u => { u with channels := u.channels.erase (lower channel) }
      else st.user j := by
  have hsame := (State.part_users st id channel).2
  unfold State.part at hsame ⊢
  dsimp only at hsame ⊢
  cases hc : st.channels.get (lower channel) with
  | some c =>
    rw [State.user, State.users_leave]
    exact State.user_modifyUser ..
  | none =>
    -- nobody lists a channel that is not there
    dsimp only
    split_ifs with hj
    · subst hj
      cases hu : st.user j with
      | none => rfl
      | some u =>
        have hout : lower channel ∉ u.channels := by
          intro hin
          obtain ⟨c, hget, -⟩ := (h.channels j _).mp ⟨u, hu, hin⟩
          rw [hc] at hget
          cases hget
        rw [Option.map_some, List.erase_of_not_mem hout]
    · rfl

theorem Linked.part (h : Linked st) (id : UserId) (channel : Text) :
    Linked (st.part id channel).2 := by
  have hleaves := part_leaves st id channel
  have husers := part_user h id channel
  have hnicks := (State.part_users st id channel).1
  generalize (st.part id channel).2 = t at hleaves husers hnicks
  constructor
  · intro key j
    have hbears : Bears t j key ↔ Bears st j key := by
      unfold Bears
      rw [husers]
      split_ifs with hj
      · subst hj
        simp
      · rfl
    rw [hnicks, h.nicks, hbears]
  · intro j key
    rw [hleaves.holds, ← h.channels]
    unfold Lists
    rw [husers]
    split_ifs with hj
    · subst hj
      cases hu : st.user j with
      | none => simp
      | some u => simp [(h.once j u hu).mem_erase_iff, and_comm]
    · simp [hj]
  · intro j v hv
    rw [husers] at hv
    split_ifs at hv with hj
    · obtain ⟨u, hu, rfl⟩ := Option.map_eq_some_iff.mp hv
      exact (h.once id u hu).erase _
    · exact h.once j v hv

theorem removeUser_leaves (h : Linked st) (id : UserId) :
    Leaves id (Lists st id) st (st.removeUser id) := by
  unfold State.removeUser
  cases hu : st.users.get id with
  | none =>
    refine ⟨?_, fun k _ => rfl⟩
    rintro k ⟨u, hu', -⟩
    exact absurd (hu.symm.trans hu') (by simp)
  | some u =>
    have hlists : ∀ k, Lists st id k ↔ k ∈ u.channels := by
      intro k
      unfold Lists
      rw [show st.user id = some u from hu]
      simp
    refine ⟨fun k hk => ?_, fun k hk => ?_⟩
    · rw [leaveAll_channels id (h.once id u hu), if_pos ((hlists k).mp hk)]
    · rw [leaveAll_channels id (h.once id u hu), if_neg (fun hin => hk ((hlists k).mpr hin))]

theorem Linked.removeUser (h : Linked st) (id : UserId) : Linked (st.removeUser id) := by
  have hleaves := removeUser_leaves h id
  have husers := State.user_removeUser st id
  have hnicks := State.nicks_removeUser st id
  generalize st.removeUser id = t at hleaves husers hnicks
  constructor
  · intro key j
    rw [hnicks]
    have hbears : Bears t j key ↔ j ≠ id ∧ Bears st j key := by
      unfold Bears
      rw [husers]
      split_ifs with hj <;> simp [hj]
    rw [hbears, ← h.nicks]
    cases hu : st.user id with
    | none =>
      simp only [Option.any_none, Bool.false_eq_true, if_false]
      refine ⟨fun hkey => ⟨?_, hkey⟩, And.right⟩
      rintro rfl
      obtain ⟨v, hv, -⟩ := (h.nicks key j).mp hkey
      exact Option.some_ne_none v (hv.symm.trans hu)
    | some u =>
      simp only [Option.any_some, decide_eq_true_eq]
      split_ifs with hold
      · -- the nick that is given up was nobody else's
        refine iff_of_false not_false fun hother => ?_
        obtain ⟨hne, hkey⟩ := hother
        obtain ⟨v, hv, hstar, hbears⟩ := (h.nicks key j).mp hkey
        by_cases hplace : u.nick = ['*']
        · rw [hold, hplace] at hbears
          exact absurd (ServerSteps.lower_star hbears) hstar
        · exact absurd (h.bears_unique ⟨v, hv, hstar, hbears⟩ ⟨u, hu, hplace, hold.symm⟩) hne
      · refine ⟨fun hkey => ⟨?_, hkey⟩, And.right⟩
        rintro rfl
        obtain ⟨v, hv, -, hbears⟩ := (h.nicks key j).mp hkey
        obtain rfl := Option.some.inj (hv.symm.trans hu)
        exact hold hbears.symm
  · intro j key
    rw [hleaves.holds, ← h.channels]
    unfold Lists
    rw [husers]
    split_ifs with hj
    · subst hj
      simp
    · simp [hj]
  · intro j v hv
    rw [husers] at hv
    split_ifs at hv
    exact h.once j v hv

/-! ### Flags, and changes that members do not see -/

/-- The users and nicks are as they were, and so is who is in which channel. -/
structure SameRolls (st t : State) : Prop where
  nicks : t.nicks = st.nicks
  users : ∀ j, (t.user j).map (fun u => (u.nick, u.channels)) =
    (st.user j).map fun u => (u.nick, u.channels)
  holds : ∀ k j, Holds t k j ↔ Holds st k j

theorem SameRolls.linked (h : SameRolls st t) (hs : Linked st) : Linked t := by
  have huser : ∀ j (P : Text × List Text → Prop),
      (∃ u, t.user j = some u ∧ P (u.nick, u.channels)) ↔
        ∃ u, st.user j = some u ∧ P (u.nick, u.channels) := by
    intro j P
    have hj := h.users j
    cases hu : t.user j with
    | none =>
      cases hv : st.user j with
      | none => rfl
      | some v => simp [hu, hv] at hj
    | some u =>
      cases hv : st.user j with
      | none => simp [hu, hv] at hj
      | some v =>
        have hsame : (u.nick, u.channels) = (v.nick, v.channels) := by simpa [hu, hv] using hj
        simp [hsame]
  constructor
  · intro key j
    rw [h.nicks, hs.nicks]
    exact (huser j fun p => p.1 ≠ ['*'] ∧ lower p.1 = key).symm
  · intro j key
    rw [h.holds, ← hs.channels]
    exact huser j fun p => key ∈ p.2
  · intro j u hu
    obtain ⟨v, hv, hsame⟩ := (huser j fun p => p.2 = u.channels).mp ⟨u, hu, rfl⟩
    exact hsame ▸ hs.once j v hv

theorem applyIntendedFlags_channels (st : State) (id : UserId) (channel : Text) :
    (st.applyIntendedFlags id channel).2.channels = st.channels ∨
      ∃ c flags, st.channels.get (lower channel) = some c ∧ c.isMember id = true ∧
        (st.applyIntendedFlags id channel).2.channels =
          st.channels.set (lower channel) { c with members := c.members.set id flags } := by
  unfold State.applyIntendedFlags
  cases hc : st.channels.get (lower channel) with
  | none => exact .inl rfl
  | some c =>
    dsimp only
    cases hold : c.members.get id with
    | none => exact .inl rfl
    | some old =>
      dsimp only
      split_ifs
      · exact .inl rfl
      · refine .inr ⟨c, _, rfl, ?_, rfl⟩
        rw [Channel.isMember, hold]
        rfl

theorem applyIntendedFlags_members (st : State) (id : UserId) (channel k : Text) :
    ((st.applyIntendedFlags id channel).2.channels.get k).map
        (fun c => (c.configured, fun j => c.isMember j)) =
      (st.channels.get k).map fun c => (c.configured, fun j => c.isMember j) := by
  rcases applyIntendedFlags_channels st id channel with hsame | ⟨c, flags, hc, hmember, hset⟩
  · rw [hsame]
  · rw [hset, Table.get_set]
    split_ifs with hk
    · rw [hk, hc]
      simp only [Option.map_some, Option.some.injEq, Prod.mk.injEq, true_and]
      funext j
      by_cases hj : j = id
      · rw [hj, hmember]
        exact (isMember_set c id flags id).mpr (.inl rfl)
      · simp [Channel.isMember, Table.get_set_ne _ hj]
    · rfl

/-- Who is in a channel is what counts of it. -/
theorem holds_congr (h : (t.channels.get k).map (fun c => (c.configured, fun j => c.isMember j)) =
    (st.channels.get k).map fun c => (c.configured, fun j => c.isMember j)) (j : UserId) :
    Holds t k j ↔ Holds st k j := by
  unfold Holds
  cases hc : t.channels.get k with
  | none =>
    cases hd : st.channels.get k with
    | none => rfl
    | some d => simp [hc, hd] at h
  | some c =>
    cases hd : st.channels.get k with
    | none => simp [hc, hd] at h
    | some d =>
      simp only [hc, hd, Option.map_some, Option.some.injEq, Prod.mk.injEq] at h
      simp [congrFun h.2 j]

theorem Occupied.congr (h : ∀ k, (t.channels.get k).map (fun c => (c.configured, fun j => c.isMember j)) =
    (st.channels.get k).map fun c => (c.configured, fun j => c.isMember j)) (ho : Occupied st) :
    Occupied t := by
  intro k c hc hconf
  have hk := h k
  rw [hc] at hk
  obtain ⟨d, hd, heq⟩ := Option.map_eq_some_iff.mp hk.symm
  obtain ⟨hsame, hmembers⟩ := Prod.mk.inj heq
  obtain ⟨j, hj⟩ := ho k d hd (hsame.trans hconf)
  exact ⟨j, (congrFun hmembers j).symm.trans hj⟩

theorem Linked.applyIntendedFlags (h : Linked st) (id : UserId) (channel : Text) :
    Linked (st.applyIntendedFlags id channel).2 := by
  obtain ⟨husers, hnicks⟩ := State.applyIntendedFlags_users st id channel
  have hmembers := applyIntendedFlags_members st id channel
  have hsame : SameRolls st (st.applyIntendedFlags id channel).2 := by
    refine ⟨hnicks, fun j => ?_, fun k j => holds_congr (hmembers k) j⟩
    rw [State.user, husers]
    rfl
  exact hsame.linked h

theorem Consistent.applyIntendedFlags (h : Consistent st) (id : UserId) (channel : Text) :
    Consistent (st.applyIntendedFlags id channel).2 :=
  ⟨h.toLinked.applyIntendedFlags id channel,
    h.occupied.congr (applyIntendedFlags_members st id channel)⟩

/-! ### The operations of the server -/

inductive Operation where
  | insert (u : User)
  | setNick (id : UserId) (nick : Text)
  | enter (id : UserId) (channel : Text) (rf : Bool)
  | part (id : UserId) (channel : Text)
  | remove (id : UserId)
  | applyFlags (id : UserId) (channel : Text)

def next (st : State) : Operation → State
  | .insert u => st.insertUser u
  | .setNick id nick => (st.setNick id nick).2
  | .enter id channel rf => enter st id channel rf
  | .part id channel => (st.part id channel).2
  | .remove id => st.removeUser id
  | .applyFlags id channel => (st.applyIntendedFlags id channel).2

/-- Users come with an id nobody has and under the placeholder; only the placeholder is never
asked for, and channels are made for users who are there. -/
def Enabled (st : State) : Operation → Prop
  | .insert u => st.user u.id = none ∧ u.nick = ['*'] ∧ u.channels = []
  | .setNick _ nick => nick ≠ ['*']
  | .enter id _ _ => (st.user id).isSome = true
  | _ => True

instance (st : State) (op : Operation) : Decidable (Enabled st op) := by
  unfold Enabled
  split <;> infer_instance

/-- The channels of the configuration are there from the start. -/
def Initial (st : State) : Prop := ∃ cfg unix, st = configuredChannels cfg unix

def system : System State Operation := .ofNext Initial Enabled next

/-- The channels of the configuration are marked, and nobody is in them. -/
theorem configuredChannels_empty (cfg : ServerConfig) (unix : ℕ) :
    ∀ key c, (configuredChannels cfg unix).channels.get key = some c →
      c.configured = true ∧ ∀ id, c.isMember id = false := by
  refine configuredChannels_induction (P := fun st => ∀ key c, st.channels.get key = some c →
    c.configured = true ∧ ∀ id, c.isMember id = false) ?_ ?_ cfg unix
  · intro key c hc
    cases hc
  · intro st name rf f hf h key c hc
    rw [State.channel_modifyChannel, State.channel, ensureChannel_get, ensureChannel_get,
      if_pos rfl] at hc
    split_ifs at hc with hkey
    · obtain rfl := Option.some.inj hc
      refine ⟨hf.configured _, fun id => ?_⟩
      rw [Channel.isMember, hf.members]
      cases hd : st.channels.get (lower name) with
      | none => rfl
      | some d => exact (h _ d hd).2 id
    · exact h key c hc

theorem consistent_initial (h : Initial st) : Consistent st := by
  obtain ⟨cfg, unix, rfl⟩ := h
  obtain ⟨husers, hnicks⟩ := ServerInvariants.configuredChannels_vacant cfg unix
  have hnobody : ∀ id, (configuredChannels cfg unix).user id = none := by
    intro id
    rw [State.user, husers]
    rfl
  have hempty := configuredChannels_empty cfg unix
  constructor
  · constructor
    · intro key id
      rw [hnicks]
      constructor
      · intro h
        cases h
      · rintro ⟨u, hu, -⟩
        exact absurd (hu.symm.trans (hnobody id)) (by simp)
    · intro id key
      constructor
      · rintro ⟨u, hu, -⟩
        exact absurd (hu.symm.trans (hnobody id)) (by simp)
      · rintro ⟨c, hc, hmember⟩
        exact absurd (hmember.symm.trans ((hempty key c hc).2 id)) (by simp)
    · intro id u hu
      exact absurd (hu.symm.trans (hnobody id)) (by simp)
  · intro key c hc hconf
    exact absurd (hconf.symm.trans (hempty key c hc).1) (by simp)

theorem consistent_step {op : Operation} (h : Consistent st) (he : Enabled st op) :
    Consistent (next st op) := by
  cases op with
  | insert u => exact ⟨h.toLinked.insertUser he.1 he.2.1 he.2.2, h.occupied⟩
  | setNick id nick =>
    refine ⟨h.toLinked.setNick id he, ?_⟩
    rw [next, Occupied, channels_setNick]
    exact h.occupied
  | enter id channel rf => exact h.enter he channel rf
  | part id channel => exact ⟨h.toLinked.part id channel, (part_leaves st id channel).occupied h.occupied⟩
  | remove id =>
    exact ⟨h.toLinked.removeUser id, (removeUser_leaves h.toLinked id).occupied h.occupied⟩
  | applyFlags id channel => exact h.applyIntendedFlags id channel

/-- Whatever the server did with users and channels. -/
theorem state_consistent (h : Reachable system (fun _ _ => True) st) :
    (∀ key id, st.nicks.get key = some id ↔ Bears st id key) ∧
      (∀ id j key, Bears st id key → Bears st j key → id = j) ∧
      (∀ id key, Lists st id key ↔ Holds st key id) ∧
      (∀ key id, Holds st key id → (st.user id).isSome = true) ∧
      ∀ key c, st.channels.get key = some c → c.configured = false →
        ∃ id, c.isMember id = true := by
  have hall : Inductive system (fun _ _ => True) Consistent :=
    .ofNext (fun _ h => consistent_initial h) fun _ _ h _ he => consistent_step h he
  have hs := hall.reachable h
  exact ⟨hs.nicks, fun _ _ _ => hs.bears_unique, hs.channels, fun _ _ => hs.member_present, hs.occupied⟩

/-! ### Three users and two channels -/

def someone (id : UserId) : User := .new id "host" 0

/-- A nick in another case, a channel that is left empty, and a station that goes. -/
def visits : List Operation :=
  [.insert (someone (.ip 1)), .setNick (.ip 1) "Alice", .setNick (.ip 1) "ALICE",
    .insert (someone (.ip 2)), .setNick (.ip 2) "alice", .enter (.ip 1) "#a" false,
    .enter (.ip 2) "#A" false, .insert (someone (.rf ServerRuns.Small.station)),
    .setNick (.rf ServerRuns.Small.station) "SM0ABC|7",
    .enter (.rf ServerRuns.Small.station) "#rf" true, .part (.ip 1) "#a",
    .applyFlags (.ip 2) "#a", .part (.ip 2) "#a", .enter (.ip 1) "#rf" true,
    .remove (.rf ServerRuns.Small.station)]

def visited : State := visits.foldl next (configuredChannels ServerRuns.Small.config 0)

theorem state_consistent_visited : (∀ key id, visited.nicks.get key = some id ↔ Bears visited id key) ∧
    (∀ id j key, Bears visited id key → Bears visited j key → id = j) ∧
    (∀ id key, Lists visited id key ↔ Holds visited key id) ∧
    (∀ key id, Holds visited key id → (visited.user id).isSome = true) ∧
    ∀ key c, visited.channels.get key = some c → c.configured = false →
      ∃ id, c.isMember id = true := by
  have hstart : Reachable system (fun _ _ => True) (configuredChannels ServerRuns.Small.config 0) :=
    .initial ⟨_, _, rfl⟩
  have hruns : Runs (fun _ _ => True) Enabled next
      (configuredChannels ServerRuns.Small.config 0) visits := by decide +kernel
  exact state_consistent (hstart.run hruns)

end StateConsistency
