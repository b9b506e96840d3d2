import Rfircd.StationRecords

/-! What becomes of a member's flags when its privileges are computed anew.
What was given by hand is kept, and what follows from the account is derived again. That somebody
was the first in a channel is neither. -/
namespace ChannelStatus

open Basics KeyedTable MessageText IrcState ServerOutput ServerCore ServerCore.Server Bridge
open ServerSteps ServerRuns ServerInvariants StateConsistency StationRecords TransitionSystem

variable {verifies : Text → Text → Prop} {reader : BeaconReader}
variable {st : State} {s t : Server} {uid v : UserId} {key channel : Text} {f : MemberFlags}
variable {entitled : Bool}

/-! ### Flags -/

/-- An operator of any local channel that has this list of operators. -/
def Entitled (u : User) (operators : List Text) : Bool :=
  u.oper || (decide (lower u.nick ∈ operators) && u.nickIdentified)

/-- The flags after a recomputation. -/
def settled (entitled : Bool) (f : MemberFlags) : MemberFlags :=
  { f with op := entitled || f.opManual, voice := f.voiceManual }

/-- A member of a local channel, with its flags. -/
def Seated (uid : UserId) (key : Text) (entitled : Bool) (f : MemberFlags) (st : State) : Prop :=
  ∃ u c, st.user uid = some u ∧ st.channels.get key = some c ∧ key ∈ u.channels ∧
    lower c.name = key ∧ c.rf = false ∧ c.members.get uid = some f ∧
    Entitled u c.operators = entitled

theorem settled_settled (entitled : Bool) (f : MemberFlags) :
    settled entitled (settled entitled f) = settled entitled f := rfl

theorem flagsForParts_local {u : User} (hu : st.user uid = some u) (operators : List Text) :
    st.flagsForParts uid false false operators = ⟨Entitled u operators, false, false, false⟩ := by
  have hget : st.users.get uid = some u := hu
  simp [State.flagsForParts, hget, Entitled]

/-- The recomputation of one member's flags in one channel. -/
theorem Seated.apply (h : Seated uid key entitled f st) (v : UserId) (channel : Text) :
    Seated uid key entitled (if v = uid ∧ lower channel = key then settled entitled f else f)
      (st.applyIntendedFlags v channel).2 := by
  obtain ⟨u, c, hu, hc, hlisted, hname, hlocal, hflags, hentitled⟩ := h
  have huser : (st.applyIntendedFlags v channel).2.user uid = some u := by
    rw [State.user, (State.applyIntendedFlags_users st v channel).1]
    exact hu
  have hstay : (st.applyIntendedFlags v channel).2.channels.get key = some c →
      Seated uid key entitled f (st.applyIntendedFlags v channel).2 :=
    fun hget => ⟨u, c, huser, hget, hlisted, hname, hlocal, hflags, hentitled⟩
  by_cases hkey : lower channel = key
  · by_cases hv : v = uid
    · subst hv
      rw [if_pos ⟨rfl, hkey⟩]
      have hnew : (st.flagsForParts v c.rf false c.operators) = ⟨entitled, false, false, false⟩ := by
        rw [hlocal, flagsForParts_local hu, hentitled]
      unfold State.applyIntendedFlags at huser hstay ⊢
      simp only [hkey, hc, hflags, hnew, Bool.false_or] at huser hstay ⊢
      split_ifs at huser hstay ⊢ with hsame
      · have hsettled : settled entitled f = f := hsame.symm
        rw [hsettled]
        exact hstay hc
      · exact ⟨u, _, huser, Table.get_set_self .., hlisted, hname, hlocal, Table.get_set_self ..,
          hentitled⟩
    · rw [if_neg fun h => hv h.1]
      rcases applyIntendedFlags_channels st v channel with hsame | ⟨d, flags, hd, -, hset⟩
      · exact hstay (by rw [hsame, hc])
      · obtain rfl := Option.some.inj ((hkey ▸ hd).symm.trans hc)
        have hget : (st.applyIntendedFlags v channel).2.channels.get key =
            some { d with members := d.members.set v flags } := by
          rw [hset, hkey]
          exact Table.get_set_self ..
        have hothers : (d.members.set v flags).get uid = some f :=
          (Table.get_set_ne _ (fun heq => hv heq.symm) _).trans hflags
        exact ⟨u, _, huser, hget, hlisted, hname, hlocal, hothers, hentitled⟩
  · rw [if_neg fun h => hkey h.2]
    rcases applyIntendedFlags_channels st v channel with hsame | ⟨d, flags, -, -, hset⟩
    · exact hstay (by rw [hsame, hc])
    · exact hstay (by rw [hset, Table.get_set_ne _ (fun heq => hkey heq.symm), hc])

/-- A user changes, and neither who it is nor where it is. -/
theorem Seated.modifyUser (h : Seated uid key entitled f st) (v : UserId) {g : User → User}
    (hg : ∀ u, (g u).channels = u.channels ∧ (g u).nick = u.nick ∧ (g u).oper = u.oper ∧
      (g u).nickIdentified = u.nickIdentified) : Seated uid key entitled f (st.modifyUser v g) := by
  obtain ⟨u, c, hu, hc, hlisted, hname, hlocal, hflags, hentitled⟩ := h
  have hchannels := State.channels_modifyUser st v g
  have huser := State.user_modifyUser st v g uid
  split_ifs at huser with hv
  · subst hv
    rw [hu, Option.map_some] at huser
    obtain ⟨hlist, hnick, hoper, hidentified⟩ := hg u
    refine ⟨g u, c, huser, hchannels ▸ hc, hlist ▸ hlisted, hname, hlocal, hflags, ?_⟩
    rw [Entitled, hnick, hoper, hidentified]
    exact hentitled
  · exact ⟨u, c, huser.trans hu, hchannels ▸ hc, hlisted, hname, hlocal, hflags, hentitled⟩

/-! ### The recomputation -/

/-- The seat, before its flags are settled or after. -/
def Placed (uid : UserId) (key : Text) (entitled : Bool) (f : MemberFlags) (st : State) : Prop :=
  Seated uid key entitled f st ∨ Seated uid key entitled (settled entitled f) st

theorem Placed.apply (h : Placed uid key entitled f st) (v : UserId) (channel : Text) :
    Placed uid key entitled f (st.applyIntendedFlags v channel).2 := by
  rcases h with h | h
  · have happlied := h.apply v channel
    split_ifs at happlied
    · exact .inr happlied
    · exact .inl happlied
  · have happlied := h.apply v channel
    rw [settled_settled, ite_self] at happlied
    exact .inr happlied

theorem Placed.settles (h : Placed uid key entitled f st) (hkey : lower channel = key) :
    Seated uid key entitled (settled entitled f) (st.applyIntendedFlags uid channel).2 := by
  rcases h with h | h
  · have happlied := h.apply uid channel
    rwa [if_pos ⟨rfl, hkey⟩] at happlied
  · have happlied := h.apply uid channel
    rwa [settled_settled, ite_self] at happlied

def applyAll (uid : UserId) (st : State) (channels : List Text) : State :=
  channels.foldl (fun st ch => (st.applyIntendedFlags uid ch).2) st

theorem Placed.applyAll (h : Placed uid key entitled f st) (v : UserId) (channels : List Text) :
    Placed uid key entitled f (applyAll v st channels) := by
  induction channels generalizing st with
  | nil => exact h
  | cons ch channels ih => exact ih (h.apply v ch)

/-- One's own channels are all gone through, and what was settled stays so. -/
theorem Placed.applyOwn (h : Placed uid key entitled f st) {channels : List Text}
    (hmem : ∃ ch ∈ channels, lower ch = key) :
    Seated uid key entitled (settled entitled f) (ChannelStatus.applyAll uid st channels) := by
  induction channels generalizing st with
  | nil =>
    obtain ⟨ch, hch, -⟩ := hmem
    cases hch
  | cons ch channels ih =>
    by_cases hrest : ∃ c ∈ channels, lower c = key
    · exact ih (h.apply uid ch) hrest
    · obtain ⟨c, hc, hkey⟩ := hmem
      rcases List.mem_cons.mp hc with rfl | hc
      · have hsettled : Placed uid key entitled (settled entitled f)
            (st.applyIntendedFlags uid c).2 := .inl (h.settles hkey)
        have hall := hsettled.applyAll uid channels
        rw [Placed, settled_settled, or_self] at hall
        exact hall
      · exact absurd ⟨c, hc, hkey⟩ hrest

theorem applyIntendedFlags_none {c : Text} (h : (st.applyIntendedFlags v c).1 = none) :
    (st.applyIntendedFlags v c).2 = st := by
  unfold State.applyIntendedFlags at h ⊢
  split
  · rfl
  · dsimp only at h ⊢
    split
    · rfl
    · split_ifs
      · rfl
      · rename_i hold hdiffer
        simp [*] at h

theorem reapplyFlags_state (s : Server) (v : UserId) :
    (s.reapplyFlags v).state = applyAll v s.state (Outlet.channelNames s.state v) := by
  unfold Server.reapplyFlags applyAll
  extract_lets nick
  refine (List.foldl_hom Server.state fun s ch => ?_).symm
  have hnothing : (s.state.applyIntendedFlags v ch).1 = none → _ = s.state :=
    applyIntendedFlags_none
  generalize s.state.applyIntendedFlags v ch = applied at hnothing ⊢
  obtain ⟨- | ⟨old, new⟩, st⟩ := applied
  · exact hnothing rfl
  · dsimp only
    split_ifs <;> rfl

/-! The rounds of `refreshPrivileges`. -/

theorem Placed.recompute (h : Placed uid key entitled f s.state) (v : UserId) :
    Placed uid key entitled f (recompute s v).state := by
  rcases recompute_cases s v with ⟨-, hsame⟩ | ⟨u, c, -, hmodified⟩
  · rwa [hsame]
  · rw [hmodified]
    exact h.imp (·.modifyUser v fun _ => ⟨rfl, rfl, rfl, rfl⟩) (·.modifyUser v fun _ => ⟨rfl, rfl, rfl, rfl⟩)

theorem Placed.stripWith {refresh : Server → UserId → Server}
    (hrefresh : ∀ s v, Placed uid key entitled f s.state → Placed uid key entitled f (refresh s v).state)
    (h : Placed uid key entitled f s.state) (m : Moment) (call : Callsign)
    (keep : Option UserId) (notice : Text) :
    Placed uid key entitled f (s.stripWith refresh m call keep notice).state := by
  unfold Server.stripWith
  extract_lets victims
  induction victims generalizing s with
  | nil => exact h
  | cons u victims ih =>
    refine ih (hrefresh _ u.id ?_)
    exact h.imp (·.modifyUser u.id fun _ => ⟨rfl, rfl, rfl, rfl⟩)
      (·.modifyUser u.id fun _ => ⟨rfl, rfl, rfl, rfl⟩)

theorem Placed.refreshRfTx {strip : Server → Callsign → Server}
    (hstrip : ∀ s c, Placed uid key entitled f s.state → Placed uid key entitled f (strip s c).state)
    (h : Placed uid key entitled f s.state) (v : UserId) :
    Placed uid key entitled f (s.refreshRfTx strip v).state := by
  rcases refreshRfTx_cases s strip v with heq | ⟨call, heq⟩
  · rw [heq]
    exact h.recompute v
  · rw [heq]
    exact hstrip _ _ (h.recompute v)

theorem Placed.names (h : Placed uid key entitled f st) :
    ∃ ch ∈ Outlet.channelNames st uid, lower ch = key := by
  obtain ⟨g, u, c, hu, hc, hlisted, hname, -⟩ : ∃ g, Seated uid key entitled g st :=
    h.elim (fun h => ⟨_, h⟩) fun h => ⟨_, h⟩
  refine ⟨c.name, ?_, hname⟩
  rw [Outlet.channelNames, hu]
  exact List.mem_filterMap.mpr ⟨key, hlisted, by rw [hc]; rfl⟩

/-- Whoever's privileges are recomputed: the seat stays, and its own user's flags are settled. -/
theorem Placed.refreshWith (n : ℕ) (m : Moment) :
    ∀ {s : Server}, Placed uid key entitled f s.state → ∀ v,
      Placed uid key entitled f (refreshWith n s m v).state ∧
        (v = uid → Seated uid key entitled (settled entitled f) (refreshWith n s m v).state) := by
  have hreapplied : ∀ {s : Server}, Placed uid key entitled f s.state → ∀ v,
      Placed uid key entitled f (s.reapplyFlags v).state ∧
        (v = uid → Seated uid key entitled (settled entitled f) (s.reapplyFlags v).state) := by
    intro s h v
    rw [reapplyFlags_state]
    refine ⟨h.applyAll v _, ?_⟩
    rintro rfl
    exact h.applyOwn h.names
  induction n with
  | zero => exact fun h v => hreapplied (h.refreshRfTx (fun _ _ h => h) v) v
  | succ n ih =>
    intro s h v
    refine hreapplied (h.refreshRfTx (fun s c h => ?_) v) v
    exact h.stripWith (fun s v h => (ih h v).1) m c (some v) _

/-- The specification of a recomputation, for every channel of the user that is not bridged. -/
theorem refreshPrivileges_settles_seat (h : Seated uid key entitled f s.state) (m : Moment) :
    Seated uid key entitled (settled entitled f) (s.refreshPrivileges m uid).state :=
  (Placed.refreshWith _ m (.inl h) uid).2 rfl

/-! ### Status that an account does not give -/

/-- Something about the user's account changes; its place in the channels does not. -/
structure AccountChange (uid : UserId) (s t : Server) : Prop where
  channels : ∀ key,
    (t.state.channels.get key).map (fun c => (c.name, c.rf, c.operators, c.members.get uid)) =
      (s.state.channels.get key).map fun c => (c.name, c.rf, c.operators, c.members.get uid)
  listed : (t.user uid).map User.channels = (s.user uid).map User.channels

theorem accountChange_modifyUser (s : Server) (uid : UserId) {change : User → User}
    (hchannels : ∀ u, (change u).channels = u.channels) :
    AccountChange uid s (s.modifyUser uid change) := by
  refine ⟨fun key => ?_, ?_⟩
  · rw [modifyUser, State.channels_modifyUser]
  · rw [modifyUser, Server.user, State.user_modifyUser, if_pos rfl, Option.map_map]
    exact congrArg (Option.map · (s.state.user uid)) (funext hchannels)

/-- In a local channel, and its operator. -/
def rules (s : Server) (uid : UserId) (key : Text) : Bool :=
  (s.state.channels.get key).any fun c => !c.rf && (c.members.get uid).any MemberFlags.op

def vacant (s : Server) (key : Text) : Bool :=
  (s.state.channels.get key).all fun c => c.members.entries.isEmpty

/-- The user came into the channel when nobody was there, and has been its operator ever since. -/
def founder (reader : BeaconReader) (uid : UserId) (key : Text) :
    Server → Bool → List (Moment × ServerRuns.Event) → Bool
  | _, held, [] => held
  | s, held, e :: es =>
    let t := s.next reader e
    founder reader uid key t (rules t uid key && (held || vacant s key)) es

/-- What the member had as the creator of the channel or by hand is still held. -/
def Kept (creator : Bool) (old new : MemberFlags) : Prop :=
  (old.op = true → creator = true ∨ old.opManual = true → new.op = true) ∧
    (old.voice = true → old.voiceManual = true → new.voice = true)

/-- The only reason for the operator status is that the member created the channel. -/
def OnlyCreator (creator entitled : Bool) (f : MemberFlags) : Prop :=
  creator = true ∧ f.op = true ∧ f.opManual = false ∧ entitled = false

theorem kept_settled (creator entitled : Bool) (f : MemberFlags) :
    Kept creator f (settled entitled f) ↔ ¬ OnlyCreator creator entitled f := by
  obtain ⟨op, voice, opManual, voiceManual⟩ := f
  unfold Kept OnlyCreator settled
  revert creator entitled op voice opManual voiceManual
  decide

theorem reachable_linked (h : Reachable (ServerRuns.system reader verifies) everyStep s) :
    Grounded s ∧ Linked s.state := by
  have hinductive : Inductive (ServerRuns.system reader verifies) everyStep fun s =>
      Grounded s ∧ Linked s.state := by
    refine .ofNext (fun s h => ⟨initial_grounded h, ?_⟩) ?_
    · obtain ⟨cfg, attached, tnc, accounts, unix, rfl⟩ := h
      exact (consistent_initial ⟨cfg, unix, rfl⟩).toLinked
    · intro s e ⟨hs, hl⟩ _ he
      exact ⟨grounded_next hs he, steps_linked (next_anything hs he) hs.standing hl⟩
  exact hinductive.reachable h

theorem AccountChange.seated {c : Channel} (h : AccountChange uid s t) (hs : Grounded s)
    (hl : Linked s.state) (hc : s.state.channel channel = some c) (hlocal : c.rf = false)
    (hf : c.members.get uid = some f) :
    ∃ u, t.user uid = some u ∧
      Seated uid (lower channel) (Entitled u c.operators) f t.state := by
  have hholds : Holds s.state (lower channel) uid := ⟨c, hc, by rw [Channel.isMember, hf]; rfl⟩
  obtain ⟨u, hu, hlisted⟩ := (hl.channels uid (lower channel)).mpr hholds
  have hsame := h.listed
  have hu' : s.user uid = some u := hu
  rw [hu', Option.map_some] at hsame
  obtain ⟨v, hv, hchannels⟩ := Option.map_eq_some_iff.mp hsame
  have hget := h.channels (lower channel)
  have hc' : s.state.channels.get (lower channel) = some c := hc
  rw [hc', Option.map_some] at hget
  obtain ⟨d, hd, heq⟩ := Option.map_eq_some_iff.mp hget
  simp only [Prod.mk.injEq] at heq
  obtain ⟨hname, hrf, hoperators, hmember⟩ := heq
  refine ⟨v, hv, v, d, hv, hd, hchannels ▸ hlisted, ?_, hrf.trans hlocal, hmember.trans hf, ?_⟩
  · rw [hname]
    exact hs.named _ c hc
  · rw [hoperators]

/-- Every change of an account in every reachable state: the recomputation keeps what was given by
hand, and the status of a channel's creator exactly when there is another reason for it. -/
theorem status_kept_iff {s₀ : Server} {es : List (Moment × ServerRuns.Event)} (hstart : Initial s₀)
    (hrun : Runs everyStep (ServerRuns.Enabled verifies) (Server.next reader) s₀ es)
    (hchange : AccountChange uid (es.foldl (Server.next reader) s₀) t) {c : Channel}
    (hc : (es.foldl (Server.next reader) s₀).state.channel channel = some c) (hlocal : c.rf = false)
    (hf : c.members.get uid = some f) (m : Moment) :
    ∃ u d g, t.user uid = some u ∧ (t.refreshPrivileges m uid).state.channel channel = some d ∧
      d.members.get uid = some g ∧
      (Kept (founder reader uid (lower channel) s₀ false es) f g ↔
        ¬ OnlyCreator (founder reader uid (lower channel) s₀ false es)
          (Entitled u c.operators) f) := by
  obtain ⟨hgrounded, hlinked⟩ := reachable_linked ((Reachable.initial hstart).run hrun)
  obtain ⟨u, hu, hseated⟩ := hchange.seated hgrounded hlinked hc hlocal hf
  obtain ⟨-, d, -, hd, -, -, -, hflags, -⟩ := refreshPrivileges_settles_seat hseated m
  exact ⟨u, d, _, hu, hd, hflags, kept_settled ..⟩

/-! ### A channel and its creator -/

def opened : List ServerRuns.Event :=
  Small.joins 1 "anna" false ++ [.line 1 "JOIN #chat"]

def flagsIn (s : Server) (uid : UserId) (key : Text) : Option MemberFlags :=
  (s.state.channels.get key).bind fun c => c.members.get uid

/-- The creator gives her callsign, and is no operator any more. -/
theorem creator_deposed :
    founder Small.noBeacon (.ip 1) "#chat" Small.start false (Small.seconds opened) = true ∧
    flagsIn (Small.run opened) (.ip 1) "#chat" = some ⟨true, false, false, false⟩ ∧
    flagsIn (Small.run (opened ++ [.line 1 "CALLSIGN SM0AAA"])) (.ip 1) "#chat" =
      some ⟨false, false, false, false⟩ := by
  refine ⟨by decide +kernel, by decide +kernel, by decide +kernel⟩

/-- Had she become a control operator instead, she would have kept it. -/
theorem status_kept_promoted : ∃ d g,
    (((Small.run opened).modifyUser (.ip 1) fun u => { u with oper := true }).refreshPrivileges
      (Small.second 9) (.ip 1)).state.channel "#chat" = some d ∧
    d.members.get (.ip 1) = some g ∧ Kept true ⟨true, false, false, false⟩ g := by
  have hstart : Initial Small.start := ⟨Small.config, true, .default, .empty, 0, rfl⟩
  have hruns : Small.Feasible opened := by decide +kernel
  have hseat : (flagsIn (Small.run opened) (.ip 1) "#chat" = some ⟨true, false, false, false⟩) ∧
      ((Small.run opened).state.channel "#chat").any (fun c => !c.rf) = true := by
    exact ⟨by decide +kernel, by decide +kernel⟩
  obtain ⟨c, hc, hlocal⟩ := (Option.any_eq_true _ _).mp hseat.2
  have hf : c.members.get (.ip 1) = some ⟨true, false, false, false⟩ := by
    have hflags := hseat.1
    have hc' : (Small.run opened).state.channels.get "#chat" = some c := hc
    rwa [flagsIn, hc'] at hflags
  have hchange : AccountChange (.ip 1) (Small.run opened)
      ((Small.run opened).modifyUser (.ip 1) fun u => { u with oper := true }) :=
    accountChange_modifyUser _ _ fun _ => rfl
  obtain ⟨u, d, g, hu, hd, hg, hiff⟩ := status_kept_iff hstart hruns hchange hc
    (by simpa using hlocal) hf (Small.second 9)
  have hfounder : founder Small.noBeacon (.ip 1) (lower "#chat") Small.start false
      (Small.seconds opened) = true := by decide +kernel
  have hoper : u.oper = true := by
    rw [modifyUser, Server.user, State.user_modifyUser, if_pos rfl] at hu
    obtain ⟨_, -, rfl⟩ := Option.map_eq_some_iff.mp hu
    rfl
  rw [hfounder] at hiff
  exact ⟨d, g, hd, hg, hiff.mpr fun h => by simp [OnlyCreator, Entitled, hoper] at h⟩

end ChannelStatus
