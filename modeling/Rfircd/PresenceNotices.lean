import Rfircd.BacklogAdmission
import Rfircd.HandedOver
import Rfircd.StateConsistency

/-! Presence on the air.
When somebody comes into a channel or leaves it, everyone in range may be told, and nothing else that
members do to come and go reaches the transmitter. -/
namespace PresenceNotices

open Basics KeyedTable MessageText IrcMessage IrcState Ax25 RadioGateway AirPolicy AirTrace
open ServerOutput ServerCore ServerCore.Server BacklogAdmission StateConsistency
open HandedOver (enqueueUi_aprsOut)

variable {s t : Server} {o o' : Outlet} {g : Gateway} {m : Moment} {uid : UserId} {id : ℕ}
  {name key : Text}

/-! ### Silence -/

/-- Nothing more waits for the transmitter than before. -/
structure Silent (o o' : Outlet) : Prop where
  queue : o'.gateway.pump.held = o.gateway.pump.held
  aprs : o'.gateway.radio.aprsOut = o.gateway.radio.aprsOut
  peers : o'.sessions.peers = o.sessions.peers
  mailbox : o'.mailbox = o.mailbox

theorem Silent.refl (o : Outlet) : Silent o o := ⟨rfl, rfl, rfl, rfl⟩

theorem Silent.trans {o'' : Outlet} (h : Silent o o') (h' : Silent o' o'') : Silent o o'' :=
  ⟨h'.queue.trans h.queue, h'.aprs.trans h.aprs, h'.peers.trans h.peers, h'.mailbox.trans h.mailbox⟩

/-- Lines to clients and rate limits are not for the transmitter. -/
theorem silent_of_core (h : o'.core = o.core) : Silent o o' := by
  have hair : o'.air = o.air := congrArg Core.air h
  have hmailbox : o'.mailbox = o.mailbox := congrArg Core.mailbox h
  refine ⟨?_, ?_, ?_, hmailbox⟩
  · rw [Outlet.gateway, hair]
    rfl
  · rw [Outlet.gateway, hair]
    rfl
  · rw [Outlet.sessions, Outlet.gateway, hair]
    rfl

/-- The number of frames that wait. -/
def queued (o : Outlet) : ℕ := Multiset.card o.gateway.pump.held

theorem Silent.queued (h : Silent o o') : queued o' = queued o := by
  rw [PresenceNotices.queued, h.queue]
  rfl

/-! ### One message for everyone -/

/-- Without a callsign of its own, or with too long a path, the gateway makes no frame. -/
theorem transmittable_none {dest : Callsign} {info : List UInt8} (h : ¬ Ready g)
    (havailable : g.available = true) (hinterlock : g.interlockDown = false) :
    g.transmittable dest info = none := by
  unfold Gateway.transmittable
  cases hsource : g.radio.source with
  | none => rfl
  | some source =>
    dsimp only
    split_ifs
    · rw [Ax25Frame.ui, if_pos]
      by_contra hpath
      exact h ⟨havailable, hinterlock, by rw [hsource]; rfl, not_lt.mp hpath⟩
    · rfl

theorem transmitAll_none (cls : TxClass) (frames : List (Callsign × Airc.AircFrame))
    (h : ∀ dest info, g.transmittable dest info = none) : g.transmitAll cls frames = g := by
  induction frames with
  | nil => rfl
  | cons e frames ih =>
    have hone : g.transmitDirect e.1 e.2 cls = g := by
      rw [Gateway.transmitDirect, Gateway.enqueueUi, h]
    rw [Gateway.transmitAll, List.foldl_cons, hone]
    exact ih

theorem broadcastChunks_pos (g : Gateway) (payload : List UInt8) :
    0 < (g.broadcastChunks payload).length := by
  rw [FragmentSizes.broadcastChunks_length]
  exact Nat.lt_of_lt_of_le Nat.zero_lt_one (Nat.le_max_right _ 1)

/-- The tests of a broadcast, one after the other. -/
theorem broadcastFlagged_cases (g : Gateway) (kind : Airc.Kind) (payload : List UInt8) (cls : TxClass)
    (flags : UInt8) :
    (¬ Admitted g (.broadcast kind payload cls flags) ∧
      (g.broadcastFlagged kind payload cls flags).pump.held = g.pump.held) ∨
    Admitted g (.broadcast kind payload cls flags) ∧
      Multiset.card (g.broadcastFlagged kind payload cls flags).pump.held =
        Multiset.card g.pump.held + (g.broadcastChunks payload).length := by
  have hparts : (Sending.frames (.broadcast kind payload cls flags) g).length =
      (g.broadcastChunks payload).length := by
    simp [Sending.frames, Gateway.broadcastFrames]
  unfold Gateway.broadcastFlagged
  by_cases hoff : (!g.available || g.interlockDown) = true
  · rw [if_pos hoff]
    refine .inl ⟨fun h => ?_, rfl⟩
    rw [h.available, h.interlock] at hoff
    cases hoff
  · rw [if_neg hoff]
    obtain ⟨havailable, hinterlock⟩ : g.available = true ∧ g.interlockDown = false := by
      simpa using hoff
    dsimp only
    generalize hdrawn : g.withSessions g.radio.sessions.drawSeq.2 = drawn
    have hheld : drawn.pump.held = g.pump.held := by rw [← hdrawn]; rfl
    have hchunks : drawn.broadcastChunks payload = g.broadcastChunks payload := by rw [← hdrawn]; rfl
    have hbacklog : drawn.backlogHasRoom (drawn.wireOctets payload.length) cls =
        g.backlogHasRoom (g.wireOctets payload.length) cls := by rw [← hdrawn]; rfl
    have hroom : drawn.txRoomIn cls = g.txRoomIn cls := by rw [← hdrawn]; rfl
    rw [hchunks, hbacklog, hroom]
    by_cases hfew : 255 < (g.broadcastChunks payload).length
    · rw [if_pos hfew]
      refine .inl ⟨fun h => ?_, hheld⟩
      have hle := h.few
      rw [hparts] at hle
      omega
    by_cases hfits : g.backlogHasRoom (g.wireOctets payload.length) cls = true
    · by_cases hleft : g.txRoomIn cls < (g.broadcastChunks payload).length
      · rw [if_neg hfew, if_neg (by simp [hfits]), if_pos hleft]
        refine .inl ⟨fun h => ?_, hheld⟩
        have hle := h.room
        rw [hparts] at hle
        exact absurd hle (not_le.mpr hleft)
      · rw [if_neg hfew, if_neg (by simp [hfits]), if_neg hleft]
        by_cases hready : Ready g
        · have hsome : (Sending.frames (.broadcast kind payload cls flags) g) ≠ [] :=
            List.ne_nil_of_length_pos (hparts ▸ broadcastChunks_pos g payload)
          have hall : (Sending.frames (.broadcast kind payload cls flags) g).length ≤
              g.txRoomIn cls := hparts ▸ not_lt.mp hleft
          refine .inr ⟨⟨hready, hfits, hsome, hparts ▸ not_lt.mp hfew, hall⟩, ?_⟩
          have hready' : Ready drawn := by
            rw [← hdrawn]
            exact ⟨hready.available, hready.interlock, hready.source, hready.path⟩
          have hgrows := (transmitAll_charged _ hready' (hroom ▸ hall)).2.1
          rw [hheld, hparts] at hgrows
          have hdest : drawn.radio.cfg.destination = g.radio.cfg.destination := by rw [← hdrawn]; rfl
          rw [hdest]
          exact hgrows
        · refine .inl ⟨fun h => hready h.toReady, ?_⟩
          rw [transmitAll_none, hheld]
          intro dest info
          have hnone : g.transmittable dest info = none :=
            transmittable_none hready havailable hinterlock
          rw [← hdrawn]
          exact hnone
    · rw [if_neg hfew, if_pos (by simpa using hfits)]
      exact .inl ⟨fun h => hfits h.backlog, hheld⟩

/-- A broadcast is for no station in particular. -/
theorem broadcastFlagged_keeps (g : Gateway) (kind : Airc.Kind) (payload : List UInt8) (cls : TxClass)
    (flags : UInt8) : (g.broadcastFlagged kind payload cls flags).radio.aprsOut = g.radio.aprsOut ∧
      (g.broadcastFlagged kind payload cls flags).radio.sessions.peers = g.radio.sessions.peers := by
  refine ⟨?_, ?_⟩
  · have hall : ∀ (frames : List (Callsign × Airc.AircFrame)) (g : Gateway),
        (g.transmitAll cls frames).radio.aprsOut = g.radio.aprsOut := by
      intro frames
      induction frames with
      | nil => exact fun _ => rfl
      | cons e frames ih => exact fun g => (ih _).trans (enqueueUi_aprsOut ..)
    unfold Gateway.broadcastFlagged
    dsimp only
    split_ifs
    · rfl
    · rfl
    · rfl
    · rfl
    · exact hall ..
  · obtain ⟨added, hadded⟩ := g.broadcastFlagged_queuing kind payload cls flags
    exact hadded.sessions.peers

/-! ### Presence -/

/-- The frames that tell of somebody who comes in or leaves. -/
def telling (nick channel : Text) (joined : Bool) : Sending :=
  .broadcast .presence (Broadcast.presence channel nick joined).payload .chat 0

/-- The limit on such notices has room, and the frames are admitted. -/
structure Passes (o : Outlet) (m : Moment) (nick channel : Text) (joined : Bool) : Prop where
  limit : (o.policy.presenceRateOk channel m.now).1 = true
  admitted : Admitted o.gateway (telling nick channel joined)

/-- That somebody comes in or leaves is told on the air: presence notices are on, an AIRC station or
the gateway stands for the channel, the limit has room, and the frames are admitted. -/
structure Announced (o : Outlet) (st : State) (m : Moment) (nick channel : Text) (joined : Bool) :
    Prop extends Passes o m nick channel joined where
  notices : o.cfg.presenceNotices = true
  airc : o.airc = true
  station : (∃ call, Holds st (lower channel) (.rf call)) ∨ o.cfg.radio.gateway.isSome = true

theorem perform_presence (o : Outlet) (nick channel : Text) (joined : Bool) :
    (¬ Admitted o.gateway (telling nick channel joined) ∧
      Silent o (o.perform (.broadcast (.presence channel nick joined)))) ∨
    Admitted o.gateway (telling nick channel joined) ∧
      queued o < queued (o.perform (.broadcast (.presence channel nick joined))) := by
  have hgateway : (o.perform (.broadcast (.presence channel nick joined))).gateway =
      o.gateway.broadcastFlagged .presence (Broadcast.presence channel nick joined).payload .chat 0 :=
    rfl
  obtain ⟨haprs, hpeers⟩ := broadcastFlagged_keeps o.gateway .presence
    (Broadcast.presence channel nick joined).payload .chat 0
  rcases broadcastFlagged_cases o.gateway .presence (Broadcast.presence channel nick joined).payload
    .chat 0 with ⟨hno, hheld⟩ | ⟨hyes, hmore⟩
  · refine .inl ⟨hno, ⟨?_, ?_, ?_, rfl⟩⟩
    · rw [hgateway, hheld]
    · rw [hgateway, haprs]
    · rw [Outlet.sessions, hgateway, hpeers]
      rfl
  · refine .inr ⟨hyes, ?_⟩
    rw [queued, queued, hgateway, hmore]
    exact Nat.lt_add_of_pos_right (broadcastChunks_pos ..)

/-- The emission of somebody who comes in or leaves. -/
def Tells (d : Delivery) (nick channel : Text) (joined : Bool) : Prop :=
  ∀ presence, d.rfEmission presence = if presence then some (.presence nick channel joined) else none

theorem emitPresence_cases (o : Outlet) (m : Moment) (nick channel : Text) (joined : Bool)
    (hairc : o.airc = true) :
    (¬ Passes o m nick channel joined ∧ Silent o (o.emitPresence m nick channel joined)) ∨
      Passes o m nick channel joined ∧ queued o < queued (o.emitPresence m nick channel joined) := by
  unfold Outlet.emitPresence
  rw [hairc]
  rcases hrate : o.policy.presenceRateOk channel m.now with ⟨ok, policy⟩
  have hok : (o.policy.presenceRateOk channel m.now).1 = ok := congrArg Prod.fst hrate
  cases ok with
  | false =>
    refine .inl ⟨fun h => ?_, ⟨rfl, rfl, rfl, rfl⟩⟩
    cases hok.symm.trans h.limit
  | true =>
    rcases perform_presence { o with policy := policy } nick channel joined with
      ⟨hno, hsilent⟩ | ⟨hyes, hless⟩
    · exact .inl ⟨fun h => hno h.admitted, ⟨hsilent.queue, hsilent.aprs, hsilent.peers, hsilent.mailbox⟩⟩
    · exact .inr ⟨⟨hok, hyes⟩, hless⟩

/-- A member who is a station, or the gateway, stands for the channel. -/
theorem stands_iff (st : State) (channel : Text) (gateway : Option Callsign) :
    ((((st.members channel).filter fun uid => some uid ≠ none).filterMap UserId.callsign).head? <|>
      gateway).isSome = true ↔
      (∃ call, Holds st (lower channel) (.rf call)) ∨ gateway.isSome = true := by
  have hmem : ∀ call, call ∈ ((st.members channel).filter fun uid => some uid ≠ none).filterMap
      UserId.callsign ↔ Holds st (lower channel) (.rf call) := by
    intro call
    rw [List.mem_filterMap]
    unfold State.members State.channel Holds Channel.isMember
    constructor
    · rintro ⟨uid, huid, hcall⟩
      obtain ⟨huid, -⟩ := List.mem_filter.mp huid
      have hrf : uid = .rf call := by
        cases uid with
        | ip id => cases hcall
        | rf c => rw [show c = call from Option.some.inj hcall]
      rw [hrf] at huid
      cases hchan : st.channels.get (lower channel) with
      | none =>
        rw [hchan] at huid
        cases huid
      | some c =>
        rw [hchan] at huid
        exact ⟨c, rfl, Table.mem_keys_iff.mp huid⟩
    · rintro ⟨c, hchan, hmember⟩
      refine ⟨.rf call, List.mem_filter.mpr ⟨?_, by simp⟩, rfl⟩
      rw [hchan]
      exact Table.mem_keys_iff.mpr hmember
  cases hcalls : ((st.members channel).filter fun uid => some uid ≠ none).filterMap UserId.callsign with
  | nil =>
    rw [hcalls] at hmem
    have hnone : ¬ ∃ call, Holds st (lower channel) (.rf call) := by
      rintro ⟨call, hcall⟩
      cases (hmem call).mpr hcall
    simp [hnone]
  | cons call calls =>
    rw [hcalls] at hmem
    exact iff_of_true rfl (.inl ⟨call, (hmem call).mp List.mem_cons_self⟩)

/-- Lines to members are lines to clients. -/
theorem sendToMembers_clients (o : Outlet) (members : List UserId) (line : Text) :
    ∃ c, o.sendToMembers members line = { o with clients := c } := by
  induction members generalizing o with
  | nil => exact ⟨o.clients, rfl⟩
  | cons uid members ih =>
    cases uid with
    | ip id =>
      obtain ⟨c, hc⟩ := ih (o.sendRaw id line)
      exact ⟨c, hc⟩
    | rf call => exact ih o

/-- Everyone in a channel is told, and the air if it is to be told. -/
theorem broadcastChannel_cases (o : Outlet) (st : State) (m : Moment) {d : Delivery}
    {nick channel : Text} {joined : Bool} (hd : Tells d nick channel joined) :
    (¬ Announced o st m nick channel joined ∧ Silent o (o.broadcastChannel st m channel d none)) ∨
      Announced o st m nick channel joined ∧
        queued o < queued (o.broadcastChannel st m channel d none) := by
  have hquiet : ∀ c, Silent o { o with clients := c } := fun _ => ⟨rfl, rfl, rfl, rfl⟩
  have hstands := stands_iff st channel o.cfg.radio.gateway
  unfold Outlet.broadcastChannel Outlet.broadcastChannelEx
  dsimp only
  obtain ⟨c, hc⟩ := sendToMembers_clients o ((st.members channel).filter fun uid => some uid ≠ none)
    (renderIrc d).toText
  rw [hc, hd]
  generalize hcalls : ((st.members channel).filter fun uid => some uid ≠ none).filterMap
    UserId.callsign = calls at hstands ⊢
  cases hnotices : o.cfg.presenceNotices with
  | false =>
    refine .inl ⟨fun h => ?_, hquiet c⟩
    cases hnotices.symm.trans h.notices
  | true =>
    have hsame : Outlet.airc { o with clients := c } = o.airc := rfl
    rw [hsame]
    cases hairc : o.airc with
    | false =>
      refine .inl ⟨fun h => ?_, hquiet c⟩
      cases hairc.symm.trans h.airc
    | true =>
      simp only [Bool.not_true, Bool.false_eq_true, if_false, if_true]
      cases hhead : calls.head? <|> o.cfg.radio.gateway with
      | none =>
        refine .inl ⟨fun h => ?_, hquiet c⟩
        have hsome := hstands.mpr h.station
        rw [hhead] at hsome
        cases hsome
      | some call =>
        have hstation := hstands.mp (by rw [hhead]; rfl)
        have htells : Outlet.deliverRf { o with clients := c } m call d =
            Outlet.emitPresence { o with clients := c } m nick channel joined := by
          unfold Outlet.deliverRf
          dsimp only
          rw [hd, hnotices]
          rfl
        dsimp only
        rw [htells]
        rcases emitPresence_cases { o with clients := c } m nick channel joined hairc with
          ⟨hno, hsilent⟩ | ⟨hyes, hless⟩
        · refine .inl ⟨fun h => hno ⟨h.limit, h.admitted⟩, (hquiet c).trans hsilent⟩
        · exact .inr ⟨⟨⟨hyes.limit, hyes.admitted⟩, hnotices, hairc, hstation⟩, hless⟩

/-! ### Coming and going -/

/-- Either nothing more waits for the transmitter, or the air is told. -/
def Either (told : Prop) (o o' : Outlet) : Prop :=
  (¬ told ∧ Silent o o') ∨ told ∧ queued o < queued o'

theorem Either.of_core {told : Prop} {o'' : Outlet} (h : Either told o o') (hcore : o''.core = o'.core) :
    Either told o o'' := by
  have hsilent := silent_of_core hcore
  rcases h with ⟨hno, hquiet⟩ | ⟨hyes, hless⟩
  · exact .inl ⟨hno, hquiet.trans hsilent⟩
  · exact .inr ⟨hyes, hsilent.queued ▸ hless⟩

/-- A user leaves a channel, and the air is told. -/
def Leaves (s : Server) (m : Moment) (uid : UserId) (name : Text) : Prop :=
  ∃ chan, s.state.channel name = some chan ∧ chan.isMember uid = true ∧
    Announced s.outlet s.state m (s.signature uid).1 chan.name false

theorem tells_part (nick mask channel reason : Text) :
    Tells (.part nick mask channel reason) nick channel false := by
  intro presence
  cases presence <;> rfl

theorem tells_join (nick mask channel : Text) : Tells (.join nick mask channel) nick channel true := by
  intro presence
  cases presence <;> rfl

theorem doPart_cases (s : Server) (m : Moment) (id : ℕ) (name reason : Text) :
    Either (Leaves s m (.ip id) name) s.outlet (s.doPart m (.ip id) name reason).outlet := by
  unfold doPart
  cases hchan : s.state.channel name with
  | none =>
    refine .inl ⟨?_, silent_of_core (Outlet.numeric_core ..)⟩
    rintro ⟨chan, hchan', -⟩
    cases hchan.symm.trans hchan'
  | some chan =>
    dsimp only
    cases hmember : chan.isMember (.ip id) with
    | false =>
      refine .inl ⟨?_, silent_of_core (Outlet.numeric_core ..)⟩
      rintro ⟨chan', hchan', hmember', -⟩
      obtain rfl := Option.some.inj (hchan.symm.trans hchan')
      cases hmember.symm.trans hmember'
    | true =>
      have hcases := broadcastChannel_cases s.outlet s.state m
        (tells_part (s.signature (.ip id)).1 (s.signature (.ip id)).2 chan.name reason)
      rcases hcases with ⟨hno, hsilent⟩ | ⟨hyes, hless⟩
      · refine .inl ⟨?_, hsilent⟩
        rintro ⟨chan', hchan', -, hannounced⟩
        obtain rfl := Option.some.inj (hchan.symm.trans hchan')
        exact hno hannounced
      · exact .inr ⟨⟨chan, hchan, hmember, hyes⟩, hless⟩

/-- Nothing keeps a user out of a channel. -/
structure Enters (s : Server) (uid : UserId) (name key : Text) : Prop where
  channel : isChannelName name = true
  known : (s.user uid).isSome = true
  stranger : (s.state.channel name).any (fun c => c.isMember uid) = false
  few : ((s.user uid).elim 0 fun u => u.channels.length) < s.cfg.maxChannelsPerUser
  key : (s.state.channel name).any (fun c => c.key.any (· ≠ key)) = false
  limit : (s.state.channel name).any (fun c => c.limit.any (· ≤ c.members.size)) = false

/-- A user enters a channel, and the air is told. -/
def Arrives (s : Server) (m : Moment) (uid : UserId) (name key : Text) : Prop :=
  Enters s uid name key ∧
    Announced s.outlet s.state m (s.signature uid).1 (s.channelDisplayName name) true

/-- Whoever is new to a channel, the stations in it were there before. -/
structure Joined (s : Server) (id : ℕ) (name : Text) (t : Server) : Prop where
  outlet : t.outlet = s.outlet
  known : (s.user (.ip id)).isSome = true
  stations : ∀ key call, Holds t.state key (.rf call) ↔ Holds s.state key (.rf call)
  nick : (t.signature (.ip id)).1 = (s.signature (.ip id)).1
  display : t.channelDisplayName name = s.channelDisplayName name

theorem joined_of_join {given : Option Text} {flags : MemberFlags}
    (h : Server.join { s with state := s.state.ensureChannel name false } (.ip id) name given =
      some (flags, t)) : Joined s id name t := by
  obtain ⟨⟨f, st⟩, hst, heq⟩ := Option.map_eq_some_iff.mp h
  obtain ⟨-, rfl⟩ := Prod.mk.inj heq
  obtain ⟨u, c, hu, hc, -, -, husers, hchannels⟩ := join_spec hst
  have hu' : s.user (.ip id) = some u := by
    have hsame : (s.state.ensureChannel name false).users = s.state.users :=
      State.users_ensureChannel ..
    rw [State.user, hsame] at hu
    exact hu
  refine ⟨rfl, Option.isSome_iff_exists.mpr ⟨u, hu'⟩, fun key call => ?_, ?_, ?_⟩
  · refine (join_holds hst key (.rf call)).trans ?_
    rw [ensureChannel_holds]
    simp
  · have hafter : st.user (.ip id) = some { u with channels := u.channels.insert (lower name) } := by
      rw [husers, if_pos rfl]
    unfold signature Server.user
    dsimp only
    rw [hafter, show s.state.user (.ip id) = some u from hu']
    rfl
  · have hname := ensureChannel_get s.state name false (lower name)
    rw [if_pos rfl, hc] at hname
    unfold channelDisplayName
    dsimp only
    rw [hchannels, if_pos rfl]
    change c.name = _
    rw [Option.some.inj hname]
    cases s.state.channels.get (lower name) <;> rfl

/-- Whom nothing keeps out gets in. -/
theorem join_of_enters (h : Enters s uid name key) (given : Option Text) :
    (Server.join { s with state := s.state.ensureChannel name false } uid name given).isSome = true := by
  obtain ⟨u, hu⟩ := Option.isSome_iff_exists.mp h.known
  have hu' : (s.state.ensureChannel name false).user uid = some u := by
    have hsame : (s.state.ensureChannel name false).users = s.state.users :=
      State.users_ensureChannel ..
    rw [State.user, hsame]
    exact hu
  have hchan := ensureChannel_get s.state name false (lower name)
  rw [if_pos rfl] at hchan
  have hout : ((s.state.channels.get (lower name)).getD (.new name false)).isMember uid = false := by
    have hstranger := h.stranger
    unfold State.channel at hstranger
    cases hget : s.state.channels.get (lower name) with
    | none => rfl
    | some c =>
      rw [hget] at hstranger
      exact hstranger
  have hjoins := join_isSome hu' hchan hout
  rwa [Server.join, Option.isSome_map]

theorem announceMode_core (s : Server) (channel setter changes : Text) (args : List Text) :
    (s.announceMode channel setter changes args).outlet.core = s.outlet.core :=
  Outlet.sendToMembers_core ..

theorem announceJoin_cases (s : Server) (m : Moment) (id : ℕ) (name : Text) (flags : MemberFlags) :
    Either (Announced s.outlet s.state m (s.signature (.ip id)).1 (s.channelDisplayName name) true)
      s.outlet (s.announceJoin m (.ip id) name flags).outlet := by
  rcases hsig : s.signature (.ip id) with ⟨nick, mask⟩
  have hcases := broadcastChannel_cases s.outlet s.state m
    (tells_join nick mask (s.channelDisplayName name))
  refine Either.of_core hcases ?_
  have hmode : ∀ (s : Server) (on : Bool) (channel setter changes : Text) (args : List Text),
      (if on then s.announceMode channel setter changes args else s).outlet.core = s.outlet.core := by
    intro s on channel setter changes args
    cases on with
    | false => rfl
    | true => exact announceMode_core ..
  unfold announceJoin
  rw [hsig]
  dsimp -zeta only
  extract_lets real told opped voiced sent
  have hsent : sent.outlet.core = told.outlet.core := by
    have htopic : sent.outlet.core = voiced.outlet.core :=
      (Outlet.sendNames_core ..).trans (Outlet.sendTopic_core ..)
    exact htopic.trans ((hmode ..).trans (hmode ..))
  split_ifs
  · exact (Outlet.noticeRfJoin_core ..).trans hsent
  · exact hsent

/-- Where a user is turned away, nothing is told. -/
theorem either_refused {o o' : Outlet} {key : Text} (h : ¬ Enters s uid name key)
    (hcore : o'.core = o.core) : Either (Arrives s m uid name key) o o' :=
  .inl ⟨fun harrives => h harrives.1, silent_of_core hcore⟩

theorem doJoin_cases (s : Server) (m : Moment) (id : ℕ) (name key : Text) :
    Either (Arrives s m (.ip id) name key) s.outlet (s.doJoin m (.ip id) name key).outlet := by
  unfold doJoin
  dsimp only
  by_cases hname : isChannelName name = true
  swap
  · rw [if_pos (by simpa using hname)]
    exact either_refused (fun h => hname h.channel) (Outlet.numeric_core ..)
  rw [if_neg (by simpa using hname)]
  by_cases hmember : (s.state.channel name).any (fun c => c.isMember (.ip id)) = true
  · rw [if_pos hmember]
    refine either_refused (fun h => ?_) ((Outlet.sendNames_core ..).trans (Outlet.sendTopic_core ..))
    cases hmember.symm.trans h.stranger
  rw [if_neg hmember]
  by_cases hmany : s.cfg.maxChannelsPerUser ≤ (s.user (.ip id)).elim 0 fun u => u.channels.length
  · rw [if_pos hmany]
    exact either_refused (fun h => absurd h.few (not_lt.mpr hmany)) (Outlet.numeric_core ..)
  rw [if_neg hmany]
  by_cases hkey : (s.state.channel name).any (fun c => c.key.any (· ≠ key)) = true
  · rw [if_pos hkey]
    refine either_refused (fun h => ?_) (Outlet.numeric_core ..)
    cases hkey.symm.trans h.key
  rw [if_neg hkey]
  by_cases hlimit : (s.state.channel name).any (fun c => c.limit.any (· ≤ c.members.size)) = true
  · rw [if_pos hlimit]
    refine either_refused (fun h => ?_) (Outlet.numeric_core ..)
    cases hlimit.symm.trans h.limit
  rw [if_neg hlimit]
  cases hjoin : Server.join { s with state := s.state.ensureChannel name false } (.ip id) name
      (some key) with
  | none =>
    refine either_refused (fun h => ?_) rfl
    have hsome := join_of_enters h (some key)
    rw [hjoin] at hsome
    cases hsome
  | some joined =>
    obtain ⟨flags, t⟩ := joined
    have ht := joined_of_join hjoin
    have henters : Enters s (.ip id) name key :=
      ⟨hname, ht.known, by simpa using hmember, not_le.mp hmany, by simpa using hkey,
        by simpa using hlimit⟩
    have hcases := announceJoin_cases t m id name flags
    rw [ht.outlet, ht.nick, ht.display] at hcases
    have hannounced : Announced s.outlet t.state m (s.signature (.ip id)).1
        (s.channelDisplayName name) true ↔ Announced s.outlet s.state m (s.signature (.ip id)).1
        (s.channelDisplayName name) true := by
      refine ⟨fun h => ⟨h.toPasses, h.notices, h.airc, ?_⟩, fun h => ⟨h.toPasses, h.notices, h.airc, ?_⟩⟩
      · exact h.station.imp_left fun ⟨call, hcall⟩ => ⟨call, (ht.stations _ call).mp hcall⟩
      · exact h.station.imp_left fun ⟨call, hcall⟩ => ⟨call, (ht.stations _ call).mpr hcall⟩
    rcases hcases with ⟨hno, hsilent⟩ | ⟨hyes, hless⟩
    · exact .inl ⟨fun h => hno (hannounced.mpr h.2), hsilent⟩
    · exact .inr ⟨⟨henters, hannounced.mp hyes⟩, hless⟩

end PresenceNotices
