import Rfircd.Assembly
import Rfircd.MessageArrival
import Rfircd.PresenceNotices
import Rfircd.TwoGateways

/-! What a station types is what the clients of the channel read.
The frames of one line arrive in any order, repeatedly and by any path, with whatever else the
server has to do between them. The line is said once, to everybody who is in the channel then. -/
namespace HeardOnIrc

open Airc AircSession AirTrace AirPolicy Assembly Ax25 Ax25Codec Basics FieldLists FragmentBuffers
open CallsignTexts IrcMessage IrcState KeyedTable MessageArrival MessageText RadioGateway
open RadioSessions RoundTrip ServerOutput ServerCore ServerCore.Server Bridge ServerSteps
open ServerInvariants ServerRuns StationChat StationClient StationExpiry StationMemory TextPieces
open TransitionSystem AprsCodec

variable {s t : Server} {src : Callsign} {path : List Callsign} {m : Moment} {f g : AircFrame}
  {cfg : SessionConfig} {seq : UInt16} {payload : List UInt8} {b : Bool} {now start : ℕ}

/-! ### Frames -/

theorem encode_head (f : AircFrame) : ∃ rest, f.encode = 0x41 :: rest := by
  rw [AircFrame.encode]
  exact ⟨_, rfl⟩

/-- A gateway reads the frames that a station broadcasts, whoever else has sent them on. -/
theorem heard_copy {c : ServerConfig} {r : PositionReader} {sent heard : Ax25Frame}
    (hui : Ax25Frame.ui src protocolDest path f.encode = some sent) (hcopy : CopyOf sent heard)
    (hother : c.radio.gateway ≠ some src) (hdecode : AircFrame.decode f.encode = .ok g) :
    Bridge.heard c r.decodeBeacon heard =
      .airc g (decide (c.radio.gateway = some protocolDest)) true := by
  have hsent : sent.source.call = src ∧ sent.destination.call = protocolDest ∧
      sent.control = controlUi ∧ sent.pid = some pidNoL3 ∧ sent.info = f.encode := by
    unfold Ax25Frame.ui at hui
    split_ifs at hui
    obtain rfl := Option.some.inj hui
    exact ⟨rfl, rfl, rfl, rfl, rfl⟩
  obtain ⟨hsource, hdest, hcontrol, hpid, hinfo⟩ := hsent
  have hsource := hcopy.source.trans hsource
  have hdest := hcopy.destination.trans hdest
  have hcontrol := hcopy.control.trans hcontrol
  have hpid := hcopy.pid.trans hpid
  have hinfo := hcopy.info.trans hinfo
  have hui : isUi heard = true := by
    rw [isUi, hcontrol]
    rfl
  have hbroadcast : frameIsProtocolBroadcast heard = true := by
    rw [frameIsProtocolBroadcast, hdest]
    decide +kernel
  have hairc : heardAirc c heard = .airc g (decide (c.radio.gateway = some protocolDest)) true := by
    unfold heardAirc
    dsimp only
    rw [hbroadcast, hinfo, hdecode, frameIsForUs, hdest]
    simp
  obtain ⟨rest, hrest⟩ := encode_head f
  unfold Bridge.heard
  rw [hui, hpid, hsource, if_neg (by simp), if_neg hother]
  split_ifs
  · exact hairc
  · rw [hinfo, hrest, AprsMessage.decode_airc, PositionReader.decodeBeacon_airc]
    exact hairc

/-! ### The line on IRC -/

/-- The lines that were taken for a client. -/
def linesFor (c : Clients) (id : ℕ) : List Text := (c.lines.filter fun l => l.1 = id).map Prod.snd

/-- The client is there, and its writer takes another line. -/
def takes (c : Clients) (id : ℕ) : Bool :=
  (c.links.get id).any fun link => link.alive && decide (link.queued.length < outputQueue)

theorem linesFor_disconnect (c : Clients) (id j : ℕ) :
    linesFor (c.disconnect id) j = linesFor c j := by
  unfold Clients.disconnect
  split_ifs <;> rfl

theorem takes_disconnect {c : Clients} {id j : ℕ} (h : j ≠ id) :
    takes (c.disconnect id) j = takes c j := by
  unfold Clients.disconnect
  split_ifs
  · rw [takes, Table.get_erase, if_neg h, takes]
  · rfl

theorem linesFor_send (c : Clients) (id : ℕ) (line : Text) (j : ℕ) :
    linesFor (c.send id line) j =
      linesFor c j ++ if j = id ∧ takes c id = true then [line] else [] := by
  unfold Clients.send
  cases hlink : c.links.get id with
  | none => simp [takes, hlink]
  | some link =>
    dsimp only
    have htakes : takes c id = (link.alive && decide (link.queued.length < outputQueue)) := by
      rw [takes, hlink]
      rfl
    rw [htakes]
    by_cases hroom : (link.alive && decide (link.queued.length < outputQueue)) = true
    · rw [if_pos hroom]
      by_cases hj : j = id
      · subst hj
        simp [linesFor, hroom]
      · simp [linesFor, hj, Ne.symm hj]
    · rw [if_neg hroom, linesFor_disconnect, if_neg (by simp [hroom])]
      simp

theorem takes_send {c : Clients} {id j : ℕ} (h : j ≠ id) (line : Text) :
    takes (c.send id line) j = takes c j := by
  unfold Clients.send
  split
  · rfl
  · split_ifs
    · rw [takes, Table.get_set_ne _ h, takes]
    · exact takes_disconnect h

/-- Every client of the list has one line more, if it takes one. -/
theorem linesFor_members (o : Outlet) {members : List UserId} (hnodup : members.Nodup) (line : Text)
    (id : ℕ) : linesFor (o.sendToMembers members line).clients id =
      linesFor o.clients id ++
        if UserId.ip id ∈ members ∧ takes o.clients id = true then [line] else [] := by
  induction members generalizing o with
  | nil => simp [Outlet.sendToMembers]
  | cons uid members ih =>
    obtain ⟨hnew, hrest⟩ := List.nodup_cons.mp hnodup
    cases uid with
    | rf call =>
      refine (ih o hrest).trans ?_
      simp
    | ip other =>
      refine (ih (o.sendRaw other line) hrest).trans ?_
      change linesFor (o.clients.send other line) id ++
        (if UserId.ip id ∈ members ∧ takes (o.clients.send other line) id = true then [line]
          else []) = _
      rw [linesFor_send]
      by_cases hid : id = other
      · subst hid
        simp [hnew]
      · rw [takes_send hid]
        simp [hid]

/-- The radio is at work, and nothing else. -/
structure Airs (o o' : Outlet) : Prop where
  clients : o'.clients = o.clients
  sessions : Drew o.sessions o'.sessions

theorem Airs.refl (o : Outlet) : Airs o o := ⟨rfl, _, rfl⟩

theorem Airs.trans {o o' o'' : Outlet} (h : Airs o o') (h' : Airs o' o'') : Airs o o'' :=
  ⟨h'.clients.trans h.clients, h.sessions.trans h'.sessions⟩

theorem emitChannelChatRfTo_airs (o : Outlet) (m : Moment) (channel : Text) (calls : List Callsign)
    (nick text : Text) (truncated : Bool) (origin : Origin) :
    Airs o (o.emitChannelChatRfTo m channel calls nick text truncated origin) := by
  unfold Outlet.emitChannelChatRfTo
  extract_lets recorded said
  have hsaid : Airs o said := by
    simp only [said]
    split_ifs
    · obtain ⟨added, hadded⟩ := o.gateway.broadcastFlagged_queuing
        (Broadcast.chat channel nick text truncated).kind
        (Broadcast.chat channel nick text truncated).payload .chat
        (Broadcast.chat channel nick text truncated).flags
      exact ⟨rfl, hadded.sessions⟩
    · exact ⟨rfl, _, rfl⟩
  refine List.foldlRecOn (motive := Airs o) _ _ hsaid fun told htold call _ => ?_
  obtain ⟨added, hadded⟩ := told.gateway.enqueueAprsChat_queuing call
    (Outlet.aprsBody nick text truncated) (chatClass true) m.now
  exact htold.trans ⟨rfl, hadded.sessions⟩

/-- A line goes to the clients among the members, whether it is radiated or not. -/
theorem broadcastChannelEx_airs (o : Outlet) (st : State) (m : Moment) (channel : Text)
    (nick mask target text : Text) (truncated : Bool) (origin : Origin) (except : Option UserId)
    (allowRf : Bool) :
    Airs (o.sendToMembers ((st.members channel).filter fun uid => some uid ≠ except)
        (renderIrc (.privmsg nick mask target text false truncated origin)).toText)
      (o.broadcastChannelEx st m channel
        (.privmsg nick mask target text false truncated origin) except
        allowRf) := by
  unfold Outlet.broadcastChannelEx
  extract_lets members calls told
  have hchat : ∀ e, (Delivery.privmsg nick mask target text false truncated origin).rfEmission
      told.cfg.presenceNotices = some e → ∃ n c t tr u og, e = .chat n c t tr u og := by
    intro e he
    unfold Delivery.rfEmission at he
    dsimp only at he
    split at he
    · split_ifs at he
      obtain rfl := Option.some.inj he
      exact ⟨_, _, _, _, _, _, rfl⟩
    · obtain rfl := Option.some.inj he
      exact ⟨_, _, _, _, _, _, rfl⟩
  split
  · exact .refl _
  · split
    · exact emitChannelChatRfTo_airs ..
    · exact .refl _
    · exact .refl _
    · rename_i he
      obtain ⟨_, _, _, _, _, _, heq⟩ := hchat _ he
      cases heq
    · rename_i he
      obtain ⟨_, _, _, _, _, _, heq⟩ := hchat _ he
      cases heq

/-- What is said of a text that a station has sent: all of it, or what may be radiated again. -/
def said (s : Server) (text : Text) : AirScreen.Screened :=
  (if s.cfg.repeatRfTraffic then screenStation s.outlet.policy text else none).getD ⟨text, false⟩

/-- The line that the clients get. -/
def spokenLine (s : Server) (user : User) (display text : Text) : Text :=
  ((IrcMessage.Message.new "PRIVMSG" [display, (said s text).text]).withPrefix user.nickMask).toText

/-- Everybody in the channel whose writer takes it has the line, once, and nobody else. -/
structure Told (display line : Text) (s t : Server) : Prop where
  state : t.state = s.state
  lines : ∀ id, linesFor t.outlet.clients id = linesFor s.outlet.clients id ++
    if UserId.ip id ∈ s.state.members display ∧ takes s.outlet.clients id = true then [line] else []

theorem rfSpeak_told (s : Server) (m : Moment) (src : Callsign) (user : User)
    (display text : Text) :
    Told display (spokenLine s user display text) s (s.rfSpeak m src user display text false) ∧
      Drew s.outlet.sessions (s.rfSpeak m src user display text false).outlet.sessions := by
  have hairs := broadcastChannelEx_airs s.outlet s.state m display user.nick user.nickMask display
    (said s text).text (said s text).truncated (.station src text) (some (.rf src))
    (if s.cfg.repeatRfTraffic then screenStation s.outlet.policy text else none).isSome
  have hnodup : (s.state.members display).Nodup := by
    unfold State.members
    cases s.state.channel display with
    | none => exact List.nodup_nil
    | some c => exact c.members.nodup
  have hlines := linesFor_members s.outlet (hnodup.filter fun uid => some uid ≠ some (.rf src))
    (spokenLine s user display text)
  obtain ⟨c, hc⟩ := PresenceNotices.sendToMembers_clients s.outlet
    ((s.state.members display).filter fun uid => some uid ≠ some (.rf src))
    (spokenLine s user display text)
  refine ⟨⟨rfl, fun id => ?_⟩, ?_⟩
  · have htold := hairs.clients
    refine (congrArg (linesFor · id) htold).trans ((hlines id).trans ?_)
    simp
  · obtain ⟨n, hn⟩ := hairs.sessions
    refine ⟨n, hn.trans ?_⟩
    exact congrArg (fun o : Outlet => { o.sessions with nextSeq := n }) hc

/-! ### The gateway -/

/-- The gateway listens to the station, and the station is in the channel. -/
structure MaySpeak (s : Server) (m : Moment) (src : Callsign) (target : Text) : Prop where
  source : Acceptable s src
  free : s.outlet.sessions.isBanned src = false
  rate : (s.rfStationRateOk m src).1 = true
  channel : ∃ c, s.state.channel (s.channelDisplayName target) = some c ∧ c.rf = true ∧
    c.isMember (.rf src) = true

theorem MaySpeak.congr {target : Text} (h : MaySpeak s m src target) (hstate : t.state = s.state)
    (hpolicy : t.outlet.policy = s.outlet.policy)
    (hkicked : t.outlet.sessions.radioKicked = s.outlet.sessions.radioKicked) :
    MaySpeak t m src target := by
  refine ⟨?_, ?_, ?_, ?_⟩
  · rw [Acceptable, hpolicy]
    exact h.source
  · rw [Sessions.isBanned, hkicked]
    exact h.free
  · rw [rfStationRateOk, hpolicy]
    exact h.rate
  · rw [channelDisplayName, hstate]
    exact h.channel

/-- A message for the channel that the station is in is said there. -/
theorem rfMessage_eq {target text : Text} {user : User} (h : MaySpeak s m src target)
    (hname : isChannelName target = true) (htext : sanitize text ≠ [])
    (hu : s.user (.rf src) = some user) :
    s.rfMessage m src target text false =
      (s.rfStationRateOk m src).2.rfSpeak m src user (s.channelDisplayName target) (sanitize text)
        false := by
  obtain ⟨c, hc, hrf, hmember⟩ := h.channel
  have hrate := h.rate
  unfold rfMessage
  rcases hlimited : s.rfStationRateOk m src with ⟨ok, limited⟩
  rw [hlimited] at hrate
  obtain rfl : ok = true := hrate
  obtain rfl : limited = (s.rfStationRateOk m src).2 := congrArg Prod.snd hlimited.symm
  have hfree : (s.rfStationRateOk m src).2.outlet.sessions.isBanned src = false := h.free
  dsimp only
  rw [if_neg htext, if_neg (Bool.eq_false_iff.mp hfree)]
  have hgreet : (s.rfStationRateOk m src).2.greet m src = (s.rfStationRateOk m src).2 := by
    have hthere : ((s.rfStationRateOk m src).2.user (.rf src)).isSome = true :=
      congrArg Option.isSome hu
    unfold greet ensureRfUser
    dsimp only
    rw [if_pos hthere]
  have hu' : (s.rfStationRateOk m src).2.user (.rf src) = some user := hu
  rw [hgreet, hu']
  dsimp only
  rw [if_pos hname]
  have hc' : (s.rfStationRateOk m src).2.state.channel
      ((s.rfStationRateOk m src).2.channelDisplayName target) = some c := hc
  unfold rfChannelMessage
  dsimp only
  rw [hc']
  dsimp only
  rw [if_neg (by simp [hrf]), if_pos hmember]
  rfl

/-- A frame was counted. -/
def counted (s : Server) : Server :=
  { s with outlet := { s.outlet with framesRx := s.outlet.framesRx + 1 } }

theorem handleRfFrame_eq {r : PositionReader} {sent heard : Ax25Frame}
    (hui : Ax25Frame.ui src protocolDest path f.encode = some sent) (hcopy : CopyOf sent heard)
    (hother : s.cfg.radio.gateway ≠ some src) (hdecode : AircFrame.decode f.encode = .ok g)
    (hsource : Acceptable s src) (hpresent : (s.outlet.peer src).isSome = true) :
    s.handleRfFrame r.decodeBeacon m heard =
      takenIn (counted s) m src g (decide (s.cfg.radio.gateway = some protocolDest)) true := by
  have hsrc : heard.source.call = src := hcopy.source.trans (ui_fields hui).1
  have hknown : (counted s).firstContactOk m src = (true, counted s) := if_pos hpresent
  have hacceptable : Acceptable (counted s) src := hsource
  unfold handleRfFrame
  extract_lets outlet taken sender
  have hheard : Bridge.heard taken.cfg r.decodeBeacon heard =
      .airc g (decide (s.cfg.radio.gateway = some protocolDest)) true :=
    heard_copy hui hcopy hother hdecode
  have hfrom : sender = src := hsrc
  rw [hheard, hfrom]
  dsimp only
  change (counted s).handleAircFrame m src g _ true = _
  rw [handleAircFrame_eq, if_neg (acceptable_iff.mp hacceptable), hknown, if_pos rfl]

theorem reap_nobody (m : Moment) (h : s.outlet.sessions.evicted = []) :
    s.reapEvictedPeers m = s.perform .takeEvicted := by
  rw [reapEvictedPeers, h]
  rfl

theorem receive_sessions (s : Server) (src : Callsign) (g : AircFrame) (now : ℕ) (b : Bool) :
    (s.perform (.receive src g now b)).outlet.sessions =
      (s.outlet.sessions.onReceive src g now b).1 := by
  change (AirTrace.perform s.outlet.gateway (.receive src g now b)).radio.sessions = _
  simp only [AirTrace.perform, Gateway.onReceive]
  rw [Gateway.transmitAll_sessions]
  rfl

theorem onReceive_evicted (s : Sessions) (src : Callsign) (g : AircFrame) (now : ℕ) (b : Bool) :
    (s.onReceive src g now b).1.evicted = s.evicted := by
  obtain ⟨-, heq⟩ | ⟨p, -, heq⟩ := s.onReceive_cases src g now b
  · rw [heq]
  · rw [heq]
    rfl

theorem drainAcks_evicted (s : Server) :
    (s.perform .drainAcks).outlet.sessions.evicted = s.outlet.sessions.evicted := by
  change (AirTrace.perform s.outlet.gateway .drainAcks).radio.sessions.evicted = _
  simp only [AirTrace.perform, Gateway.drainAcks]
  rw [Gateway.transmitAll_sessions]
  rfl

/-- The end of an event in which nobody was pushed out. -/
theorem settled {M : List UInt16 × Option Reassembly} (m : Moment)
    (hnobody : s.outlet.sessions.evicted = []) (hkept : Remembers src seq M s.outlet.sessions) :
    ((s.perform .drainAcks).reapEvictedPeers m).state = s.state ∧
      ((s.perform .drainAcks).reapEvictedPeers m).outlet.clients = s.outlet.clients ∧
      Remembers src seq M ((s.perform .drainAcks).reapEvictedPeers m).outlet.sessions := by
  rw [reap_nobody m ((drainAcks_evicted s).trans hnobody)]
  exact ⟨rfl, rfl, Remembers.of_peers (Remembers.drainAcks hkept) rfl⟩

/-- A frame that completes nothing is not noticed on IRC. -/
theorem takenIn_quiet (hnobody : s.outlet.sessions.evicted = [])
    (hpresent : ((s.outlet.sessions.onReceive src g m.now b).1.peer src).isSome = true)
    (hnone : (s.outlet.sessions.onReceive src g m.now b).2.deliver = none) (seq : UInt16) :
    ((takenIn s m src g b true).reapEvictedPeers m).state = s.state ∧
      ((takenIn s m src g b true).reapEvictedPeers m).outlet.clients = s.outlet.clients ∧
      Remembers src seq (memory seq ((s.outlet.sessions.onReceive src g m.now b).1.record src))
        ((takenIn s m src g b true).reapEvictedPeers m).outlet.sessions := by
  have huplink : s.uplink m src g b true = none := by
    rw [uplink, hnone]
    rfl
  have htaken : takenIn s m src g b true =
      (s.perform (.receive src g m.now b)).perform .drainAcks := by
    rw [takenIn, huplink]
  have hsessions := receive_sessions s src g m.now b
  rw [htaken]
  refine settled m ?_ ?_
  · rw [hsessions, onReceive_evicted, hnobody]
  · rw [hsessions]
    exact remembers_self hpresent seq

/-- A frame that completes a line for the channel makes it said there. -/
theorem takenIn_told {target text : Text} {user : User} {d : AircFrame}
    (hnobody : s.outlet.sessions.evicted = [])
    (hpresent : ((s.outlet.sessions.onReceive src g m.now b).1.peer src).isSome = true)
    (hd : (s.outlet.sessions.onReceive src g m.now b).2.deliver = some d) (hkind : d.kind = .msg)
    (hfields : fieldTexts d = [target, text]) (hspeak : MaySpeak s m src target)
    (hname : isChannelName target = true) (htext : sanitize text ≠ [])
    (hu : s.user (.rf src) = some user) (seq : UInt16) :
    Told (s.channelDisplayName target)
        (spokenLine s user (s.channelDisplayName target) (sanitize text)) s
        ((takenIn s m src g b true).reapEvictedPeers m) ∧
      Remembers src seq (memory seq ((s.outlet.sessions.onReceive src g m.now b).1.record src))
        ((takenIn s m src g b true).reapEvictedPeers m).outlet.sessions := by
  have huplink : s.uplink m src g b true = some d := by
    have hlength : d.fields.length = 2 := by
      have := congrArg List.length hfields
      simpa [fieldTexts] using this
    rw [uplink, hd]
    simp [uplinkChatFromBroadcast, hkind, hlength]
  have hsessions := receive_sessions s src g m.now b
  have hkicked : (s.perform (.receive src g m.now b)).outlet.sessions.radioKicked =
      s.outlet.sessions.radioKicked :=
    @perform_radioKicked (.receive src g m.now b) s.outlet.gateway (fun _ h => by cases h)
      (fun _ h => by cases h)
  have hspeak' : MaySpeak (s.perform (.receive src g m.now b)) m src target :=
    hspeak.congr rfl rfl hkicked
  have hmessage : (s.perform (.receive src g m.now b)).handleAircMessage m src d =
      (s.perform (.receive src g m.now b)).rfMessage m src target text false := by
    unfold handleAircMessage
    simp only [hkind, hfields]
    rfl
  obtain ⟨htold, hdrew⟩ := rfSpeak_told
    ((s.perform (.receive src g m.now b)).rfStationRateOk m src).2 m src user
    (s.channelDisplayName target) (sanitize text)
  have htaken : takenIn s m src g b true =
      (((s.perform (.receive src g m.now b)).rfStationRateOk m src).2.rfSpeak m src user
        (s.channelDisplayName target) (sanitize text) false).perform .drainAcks := by
    rw [takenIn, huplink]
    dsimp only
    rw [hmessage, rfMessage_eq hspeak' hname htext hu]
    rfl
  have hdrew : Drew (s.outlet.sessions.onReceive src g m.now b).1 _ := hsessions ▸ hdrew
  obtain ⟨hstate, hclients, hkept⟩ := @settled _ src seq _ m
    (show (((s.perform (.receive src g m.now b)).rfStationRateOk m src).2.rfSpeak m src user
        (s.channelDisplayName target) (sanitize text) false).outlet.sessions.evicted = [] by
      obtain ⟨n, hn⟩ := hdrew
      rw [hn]
      exact (onReceive_evicted ..).trans hnobody)
    ((remembers_self hpresent seq).of_peers hdrew.peers)
  rw [htaken]
  refine ⟨⟨hstate.trans htold.state, fun id => ?_⟩, hkept⟩
  rw [hclients]
  exact htold.lines id

/-! ### Runs -/

/-- The line that is typed. -/
abbrev lineMessage (cfg : SessionConfig) (seq : UInt16) (payload : List UInt8) :
    FragmentBuffers.Message :=
  message cfg .msg seq payload false none

theorem lineMessage_kind : (lineMessage cfg seq payload).kind ≠ .hello := fun h => by cases h

/-- The frames of a line for a channel, as its station sends them. -/
structure Line (cfg : SessionConfig) (src : Callsign) (path : List Callsign) (seq : UInt16)
    (chan text : Text) (frames : List Ax25Frame) : Prop where
  valid : (lineMessage cfg seq (textFields [chan, text])).Valid
  named : isChannelName (carried chan) = true
  worded : sanitize (carried text) ≠ []
  sent : ∀ ax ∈ frames, ∃ f ∈ produced cfg .msg seq (textFields [chan, text]) false none,
    Ax25Frame.ui src protocolDest path f.encode = some ax

/-- The event is a frame of the station. -/
def From (src : Callsign) (e : Moment × ServerRuns.Event) : Prop :=
  ∃ heard, e.2 = .rf heard ∧ heard.source.call = src

/-- What may happen while the frames come in: the station stays. Of its frames only copies of these
are heard, when the station may speak, and no tick comes so late that their parts are dropped. -/
structure Listening (frames : List Ax25Frame) (src : Callsign) (target : Text) (start : ℕ)
    (s : Server)
    (e : Moment × ServerRuns.Event) : Prop where
  stays : (s.user (.rf src)).isSome = true
  ticks : e.2 = .tick → e.1.now < start + s.outlet.sessions.config.reassemblyTimeout
  frames : ∀ heard, e.2 = .rf heard → heard.source.call = src →
    (∃ ax ∈ frames, CopyOf ax heard) ∧ start ≤ e.1.now ∧ MaySpeak s e.1 src target

/-- Nothing of the station is noticed on IRC. -/
def Unnoticed (reader : BeaconReader) (src : Callsign) :
    Server → List (Moment × ServerRuns.Event) → Prop :=
  AtEach (Server.next reader) (From src) fun s t =>
    t.state = s.state ∧ t.outlet.clients = s.outlet.clients

section

variable {r : PositionReader} {verifies : Text → Text → Prop} {frames : List Ax25Frame}
  {chan text : Text} {got : ℕ → Prop} {e : Moment × ServerRuns.Event}
  {es : List (Moment × ServerRuns.Event)}
  (hline : Line cfg src path seq chan text frames)

/-- The gateway is another station, and takes frames as long as these. -/
structure Hears (cfg : SessionConfig) (src : Callsign) (s : Server) : Prop where
  long : cfg.maxPayload ≤ s.outlet.sessions.config.maxPayload
  window : 1 ≤ s.outlet.sessions.config.dedupWindow
  patient : 0 < s.outlet.sessions.config.reassemblyTimeout
  other : s.cfg.radio.gateway ≠ some src

/-- What holds of the gateway between events. -/
structure Sound (s : Server) : Prop where
  grounded : Grounded s
  recorded : Recorded s

theorem Hears.next (h : Hears cfg src s) (hsound : Sound s)
    (he : ServerRuns.Enabled verifies s e) : Hears cfg src (s.next r.decodeBeacon e) := by
  have hsteps : Steps anything s (s.next r.decodeBeacon e) := next_anything hsound.grounded he
  refine ⟨?_, ?_, ?_, ?_⟩
  · rw [steps_sessionConfig hsteps]
    exact h.long
  · rw [steps_sessionConfig hsteps]
    exact h.window
  · rw [steps_sessionConfig hsteps]
    exact h.patient
  · rw [(steps_config hsteps).1]
    exact h.other

theorem Sound.next (h : Sound s) (he : ServerRuns.Enabled verifies s e) :
    Sound (s.next r.decodeBeacon e) :=
  ⟨grounded_next h.grounded he, next_recorded h.grounded he h.recorded⟩

/-- Another event leaves what was received as it is, if the station is still there. -/
theorem remembers_apart (hears : Hears cfg src s) (hsound : Sound s)
    (hpresent : (s.outlet.sessions.peer src).isSome = true)
    (hyoung : ∀ part, (s.outlet.sessions.record src).reasm.get seq = some part →
      start ≤ part.started)
    (he : ServerRuns.Enabled verifies s e)
    (hg : Listening frames src (carried chan) start s e) (hother : ¬ From src e)
    (hthere : ((s.next r.decodeBeacon e).user (.rf src)).isSome = true) :
    Remembers src seq (memory seq (s.outlet.sessions.record src))
      (s.next r.decodeBeacon e).outlet.sessions := by
  have hapart : Apart src (memory seq (s.outlet.sessions.record src)) s e := by
    refine ⟨fun heard hheard hsrc => hother ⟨heard, hheard, hsrc⟩, fun htick part hpart => ?_⟩
    have hstarted := hyoung part hpart
    have hearly := hg.ticks htick
    have hpatient := hears.patient
    rw [expiredReasm, decide_eq_false_iff_not]
    omega
  exact next_remembers hsound.grounded he hapart (remembers_self hpresent seq)
    hsound.recorded.evicted (Option.isSome_iff_ne_none.mp hthere)

include hline in
/-- A copy of a frame, as the gateway reads it. -/
theorem arrival (hears : Hears cfg src s) (hpresent : (s.outlet.sessions.peer src).isSome = true)
    (hg : Listening frames src (carried chan) start s e) (hfrom : From src e) :
    ∃ f ∈ produced cfg .msg seq (textFields [chan, text]) false none, ∃ g,
      Arrives s.outlet.sessions.config (lineMessage cfg seq (textFields [chan, text])) g ∧
      g.fragIndex = f.fragIndex ∧
      start ≤ e.1.now ∧ MaySpeak s e.1 src (carried chan) ∧
      (∃ heard ax, e.2 = .rf heard ∧ CopyOf ax heard ∧
        Ax25Frame.ui src protocolDest path f.encode = some ax) ∧
      s.next r.decodeBeacon e = (takenIn (counted s) e.1 src g
        (decide (s.cfg.radio.gateway = some protocolDest)) true).reapEvictedPeers e.1 := by
  obtain ⟨heard, hheard, hsrc⟩ := hfrom
  obtain ⟨⟨ax, hax, hcopy⟩, hnow, hspeak⟩ := hg.frames heard hheard hsrc
  obtain ⟨f, hf, hui⟩ := hline.sent ax hax
  obtain ⟨g, hdecode, hindex, harrives⟩ := produced_arrives hline.valid hf
  have hlong : g.payload.length ≤ s.outlet.sessions.config.maxPayload :=
    harrives.short.trans hears.long
  refine ⟨f, hf, g, ⟨harrives.fragment, harrives.wantsAck, harrives.first, hlong⟩, hindex, hnow,
    hspeak, ⟨heard, ax, hheard, hcopy, hui⟩, ?_⟩
  obtain ⟨m, e⟩ := e
  obtain rfl : e = .rf heard := hheard
  have hhandled := @handleRfFrame_eq s src path m f g r ax heard hui hcopy hears.other hdecode
    hspeak.source hpresent
  exact congrArg (fun x => Server.reapEvictedPeers x m) hhandled

/-- The line is said on the channel, in the name of the station. -/
def SaidAt (src : Callsign) (chan text : Text) (s t : Server) : Prop :=
  ∃ user, s.user (.rf src) = some user ∧
    Told (s.channelDisplayName (carried chan))
      (spokenLine s user (s.channelDisplayName (carried chan)) (sanitize (carried text))) s t

/-- The event is a copy of that frame. -/
def Brings (src : Callsign) (path : List Callsign) (f : AircFrame)
    (e : Moment × ServerRuns.Event) : Prop :=
  ∃ heard ax, e.2 = .rf heard ∧ CopyOf ax heard ∧
    Ax25Frame.ui src protocolDest path f.encode = some ax

theorem Brings.from {e : Moment × ServerRuns.Event} (h : Brings src path f e) : From src e := by
  obtain ⟨heard, ax, hheard, hcopy, hui⟩ := h
  exact ⟨heard, hheard, hcopy.source.trans (ui_fields hui).1⟩

/-- An event is a copy of one frame of the line only. -/
theorem Brings.unique {f' : AircFrame} (hv : (lineMessage cfg seq payload).Valid)
    (hf : f ∈ produced cfg .msg seq payload false none)
    (hf' : f' ∈ produced cfg .msg seq payload false none) (h : Brings src path f e)
    (h' : Brings src path f' e) : f = f' := by
  obtain ⟨heard, ax, hheard, hcopy, hui⟩ := h
  obtain ⟨heard', ax', hheard', hcopy', hui'⟩ := h'
  obtain rfl : heard = heard' := ServerRuns.Event.rf.inj (hheard.symm.trans hheard')
  refine produced_of_encode hv hf hf' ?_
  rw [← (ui_fields hui).2.2, ← (ui_fields hui').2.2, ← hcopy.info, ← hcopy'.info]

/-- What is there of the line as long as its station is. -/
def Awaits (cfg : SessionConfig) (src : Callsign) (seq : UInt16) (payload : List UInt8) (start : ℕ)
    (got : ℕ → Prop) (s : Server) : Prop :=
  Hears cfg src s ∧ Sound s ∧ ((s.user (.rf src)).isSome = true →
    Collects src (lineMessage cfg seq payload)
      (decide (s.cfg.radio.gateway = some protocolDest)) start got s.outlet.sessions)

/-- The line was said. -/
def Past (cfg : SessionConfig) (src : Callsign) (seq : UInt16) (start : ℕ) (s : Server) : Prop :=
  Hears cfg src s ∧ Sound s ∧ ((s.user (.rf src)).isSome = true →
    Knows src seq start s.outlet.sessions)

include hline in
/-- The last missing frame makes the line said. -/
theorem awaits_part (hg : Listening frames src (carried chan) start s e)
    (he : ServerRuns.Enabled verifies s e) (hfrom : From src e)
    (h : Awaits cfg src seq (textFields [chan, text]) start got s) :
    ∃ i, (∀ j, (∃ f ∈ produced cfg .msg seq (textFields [chan, text]) false none,
        Brings src path f e ∧ j = f.fragIndex.toNat) → j = i) ∧
      (((s.next r.decodeBeacon e).state = s.state ∧
          (s.next r.decodeBeacon e).outlet.clients = s.outlet.clients) ∧
        Awaits cfg src seq (textFields [chan, text]) start (fun j => got j ∨ j = i)
          (s.next r.decodeBeacon e) ∧
        (∃ j < (lineMessage cfg seq (textFields [chan, text])).parts.length,
          ¬ (got j ∨ j = i)) ∨
        SaidAt src chan text s (s.next r.decodeBeacon e) ∧
          Past cfg src seq start (s.next r.decodeBeacon e)) := by
  obtain ⟨hears, hsound, hthere⟩ := h
  have hcollects := hthere hg.stays
  have hcfg : (s.next r.decodeBeacon e).cfg = s.cfg :=
    (steps_config (next_anything hsound.grounded he)).1
  obtain ⟨f, hf, g, harrives, hindex, hnow, hspeak, hbrings, hnext⟩ :=
    arrival (r := r) hline hears hcollects.present hg hfrom
  refine ⟨g.fragIndex.toNat, ?_, ?_⟩
  · rintro j ⟨f', hf', hbrings', rfl⟩
    rw [hindex, Brings.unique hline.valid hf hf' hbrings hbrings']
  have hin := @Collects.receive src (lineMessage cfg seq (textFields [chan, text])) g got
    (decide (s.cfg.radio.gateway = some protocolDest)) e.1.now start
    (counted s).outlet.sessions lineMessage_kind hline.valid harrives hcollects hears.window hnow
  rcases hin with ⟨hnone, hmore, hstill⟩ | ⟨⟨d, hd, hkind, hpayload, -⟩, hknows⟩
  · left
    obtain ⟨hstate, hclients, hkept⟩ := @takenIn_quiet (counted s) src e.1 g _
      hsound.recorded.evicted hmore.present hnone seq
    rw [← hnext] at hstate hclients hkept
    exact ⟨⟨hstate, hclients⟩, ⟨hears.next hsound he, hsound.next he,
      fun _ => hcfg ▸ hmore.remembered hkept⟩, hstill⟩
  · right
    obtain ⟨user, hu⟩ := Option.isSome_iff_exists.mp hg.stays
    have hfields : fieldTexts d = [carried chan, carried text] :=
      fieldTexts_of_payload (by simp) hpayload
    obtain ⟨htold, hkept⟩ := @takenIn_told (counted s) src e.1 g _ (carried chan)
      (carried text) user d hsound.recorded.evicted hknows.present hd hkind hfields
      (hspeak.congr rfl rfl rfl) hline.named hline.worded hu seq
    rw [← hnext] at htold hkept
    exact ⟨⟨user, hu, htold.state, htold.lines⟩, hears.next hsound he, hsound.next he,
      fun _ => hknows.remembered hkept⟩

include hline in
/-- Another copy of a frame of the line is not noticed. -/
theorem past_again (hg : Listening frames src (carried chan) start s e)
    (he : ServerRuns.Enabled verifies s e) (hfrom : From src e) (h : Past cfg src seq start s) :
    ((s.next r.decodeBeacon e).state = s.state ∧
        (s.next r.decodeBeacon e).outlet.clients = s.outlet.clients) ∧
      Past cfg src seq start (s.next r.decodeBeacon e) := by
  obtain ⟨hears, hsound, hthere⟩ := h
  have hknows := hthere hg.stays
  obtain ⟨f, -, g, harrives, -, hnow, -, -, hnext⟩ :=
    arrival (r := r) hline hears hknows.present hg hfrom
  obtain ⟨hnone, hagain⟩ := @Knows.receive src (lineMessage cfg seq (textFields [chan, text]))
    g (decide (s.cfg.radio.gateway = some protocolDest)) e.1.now start _ lineMessage_kind
    hline.valid harrives hknows hnow
  obtain ⟨hstate, hclients, hkept⟩ := @takenIn_quiet (counted s) src e.1 g _
    hsound.recorded.evicted hagain.present hnone seq
  rw [← hnext] at hstate hclients hkept
  exact ⟨⟨hstate, hclients⟩, hears.next hsound he, hsound.next he,
    fun _ => hagain.remembered hkept⟩

include hline in
/-- The gateway puts the line together from its frames. -/
theorem line_assembles : Assembles (Server.next r.decodeBeacon)
    (Listening frames src (carried chan) start) (ServerRuns.Enabled verifies)
    (lineMessage cfg seq (textFields [chan, text])).parts.length (From src)
    (fun e j => ∃ f ∈ produced cfg .msg seq (textFields [chan, text]) false none,
      Brings src path f e ∧ j = f.fragIndex.toNat)
    (Awaits cfg src seq (textFields [chan, text]) start) (Past cfg src seq start)
    (fun s t => t.state = s.state ∧ t.outlet.clients = s.outlet.clients)
    (SaidAt src chan text) where
  part := awaits_part hline
  again := past_again hline
  collects := by
    rintro got s e hg he hother ⟨hears, hsound, hthere⟩
    have hcollects := hthere hg.stays
    have hcfg : (s.next r.decodeBeacon e).cfg = s.cfg :=
      (steps_config (next_anything hsound.grounded he)).1
    exact ⟨hears.next hsound he, hsound.next he, fun hstays => hcfg ▸ hcollects.remembered
      (remembers_apart hears hsound hcollects.present hcollects.young he hg hother hstays)⟩
  knows := by
    rintro s e hg he hother ⟨hears, hsound, hthere⟩
    have hknows := hthere hg.stays
    exact ⟨hears.next hsound he, hsound.next he, fun hstays => hknows.remembered
      (remembers_apart hears hsound hknows.present hknows.young he hg hother hstays)⟩
  arrives := by
    rintro e j ⟨f, -, hbrings, -⟩
    exact hbrings.from

end

/-! ### From one keyboard to the others -/

instance (s : Server) (m : Moment) (src : Callsign) (target : Text) :
    Decidable (MaySpeak s m src target) :=
  decidable_of_iff (Acceptable s src ∧ s.outlet.sessions.isBanned src = false ∧
      (s.rfStationRateOk m src).1 = true ∧
      (s.state.channel (s.channelDisplayName target)).any
        (fun c => c.rf && c.isMember (.rf src)) = true)
    ⟨fun h => ⟨h.1, h.2.1, h.2.2.1, by simpa [Option.any_eq_true] using h.2.2.2⟩,
      fun h => ⟨h.source, h.free, h.rate, by simpa [Option.any_eq_true] using h.channel⟩⟩

/-- Whether the event may happen while the frames come in. -/
def listens (frames : List Ax25Frame) (src : Callsign) (target : Text) (start : ℕ) (s : Server)
    (e : Moment × ServerRuns.Event) : Bool :=
  (s.user (.rf src)).isSome && match e.2 with
    | .tick => decide (e.1.now < start + s.outlet.sessions.config.reassemblyTimeout)
    | .rf heard => decide (heard.source.call = src →
      (∃ ax ∈ frames, CopyOf ax heard) ∧ start ≤ e.1.now ∧ MaySpeak s e.1 src target)
    | _ => true

theorem listens_iff {frames : List Ax25Frame} {target : Text} {e : Moment × ServerRuns.Event} :
    listens frames src target start s e = true ↔ Listening frames src target start s e := by
  obtain ⟨m, e⟩ := e
  rw [listens, Bool.and_eq_true]
  constructor
  · rintro ⟨hstays, h⟩
    refine ⟨hstays, ?_, ?_⟩
    · rintro ⟨⟩
      exact of_decide_eq_true h
    · rintro heard ⟨⟩
      exact of_decide_eq_true h
  · intro h
    refine ⟨h.stays, ?_⟩
    cases e with
    | tick => exact decide_eq_true (h.ticks rfl)
    | rf heard => exact decide_eq_true (h.frames heard rfl)
    | _ => rfl

instance (frames : List Ax25Frame) (src : Callsign) (target : Text) (start : ℕ) (s : Server)
    (e : Moment × ServerRuns.Event) : Decidable (Listening frames src target start s e) :=
  decidable_of_iff (listens frames src target start s e = true) listens_iff

/-- Two clients, one of them in the channel, and a station. -/
def gathering : List ServerRuns.Event :=
  [.connected 1 "10.0.0.1" false, .line 1 "NICK anna", .line 1 "USER u 0 * :u", .line 1 "JOIN #rf",
    .connected 2 "10.0.0.2" false, .line 2 "NICK bo", .line 2 "USER u 0 * :u",
    Small.airc Small.station .hello 101 ["1"], Small.airc Small.station .join 102 ["#rf"]]

def gathered : Server :=
  (Small.seconds gathering).foldl (Server.next TwoGateways.noPositions.decodeBeacon) Small.start

def goodEvening : List Ax25Frame :=
  (typist.handleInput 0 (fun _ => true) " good evening ").1.station.sent

/-- The frames come in from the last to the first, and then once more in their order. -/
def evening : List (Moment × ServerRuns.Event) :=
  [(Small.second 20, .line 2 "PRIVMSG anna :good evening")] ++
    (goodEvening.reverse.map fun ax => (Small.second 20, .rf ax)) ++
    [(Small.second 21, .tick), (Small.second 22, .written 1)] ++
    goodEvening.map fun ax => (Small.second 22, .rf ax)

end HeardOnIrc
