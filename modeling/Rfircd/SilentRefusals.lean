import Rfircd.BacklogAhead
import Rfircd.ScreenedText

/-! Messages that pass the screen and are dropped all the same.
The screen asks for room once, for chat of about that length; each message that goes out then is put
to a test of its own, and nobody is told of the outcome. -/
namespace SilentRefusals

open Basics Ax25 AircSession KeyedTable MessageText IrcMessage IrcState AirTrace AirPolicy RadioGateway
open HostKey AirScreen ServerOutput ServerOutput.Outlet ServerCore ServerCore.Server BacklogAdmission
open BacklogAhead ScreenedText PresenceNotices
open ServerRuns (Small.joins Small.aprs Small.station Small.Feasible Small.run Small.second)

variable {s : Server} {o o' : Outlet} {st : State} {m : Moment} {id : ℕ} {msg : Message}
  {sc : Screened} {air : Text}

/-! ### What is sent for a message -/

inductive Emission where
  | direct (call : Callsign) (nick text : Text) (truncated : Bool)
  | channel (name : Text) (calls : List Callsign) (nick text : Text) (truncated : Bool)

/-- A message to everyone in a channel who speaks AIRC, if it is one broadcast for them. -/
def channelOps (o : Outlet) (calls : List Callsign) (b : Broadcast) : List RadioOp :=
  if o.needsAirc calls then [.broadcast b] else []

/-- Its frames, as far as they are ahead of others. -/
def channelFrames (o : Outlet) (calls : List Callsign) (b : Broadcast) : List (List UInt8) :=
  if o.needsAirc calls then ((toEveryone b).frames o.gateway).map fun e => e.2.encode else []

def Emission.ops (o : Outlet) (m : Moment) : Emission → List RadioOp
  | .direct call nick text truncated =>
    if o.gateway.wantsAprs call then [.aprsChat call (aprsBody nick text truncated) false m.now]
    else [.unicast call (.chat nick text truncated) m.now]
  | .channel name calls nick text truncated =>
    channelOps o calls (.chat name nick text truncated) ++ (o.aprsTargets calls).map fun c =>
      .aprsChat c (aprsBody nick text truncated) true m.now

/-- There is room for all of it, as the queues are before any of it is sent. -/
def Emission.Room (o : Outlet) : Emission → Prop
  | .direct call nick text truncated =>
    if o.gateway.wantsAprs call then
      AprsRoom o.gateway .direct [] (aprsBody nick text truncated) [call]
    else StationRoom o.gateway call (.chat nick text truncated)
  | .channel name calls nick text truncated =>
    (o.needsAirc calls = true → Admitted o.gateway (toEveryone (.chat name nick text truncated))) ∧
      AprsRoom o.gateway .chat (channelFrames o calls (.chat name nick text truncated))
        (aprsBody nick text truncated) (o.aprsTargets calls)

def Emission.Distinct : Emission → Prop
  | .direct .. => True
  | .channel _ calls _ _ _ => calls.Nodup

theorem aprsBody_ne_nil (nick text : Text) (truncated : Bool) : aprsBody nick text truncated ≠ [] := by
  unfold aprsBody
  exact List.append_ne_nil_of_left_ne_nil (List.append_ne_nil_of_left_ne_nil
    (List.append_ne_nil_of_right_ne_nil _ (by decide)) _) _

/-- All of it is accepted exactly if there was room for all of it. -/
theorem ops_accepted_iff (havailable : o.gateway.available = true)
    (hinterlock : o.gateway.interlockDown = false) (m : Moment) (x : Emission) (hx : x.Distinct) :
    (∀ e ∈ Air.befores o.gateway (x.ops o m), Accepted e.1 e.2) ↔ x.Room o := by
  cases x with
  | direct call nick text truncated =>
    rw [Emission.ops, Emission.Room]
    by_cases haprs : o.gateway.wantsAprs call = true
    · rw [if_pos haprs, if_pos haprs]
      have hall := chats_accepted_iff false (aprsBody_ne_nil nick text truncated) m.now
        (List.nodup_singleton call) (Behind.refl .direct o.gateway) havailable hinterlock
      exact hall.trans ⟨fun h => ⟨h.1, h.2⟩, fun h => ⟨h.waiting, h.backlog⟩⟩
    · rw [if_neg haprs, if_neg haprs]
      have hone := unicast_accepted_iff havailable hinterlock call (.chat nick text truncated) m.now
      simpa [Air.befores] using hone
  | channel name calls nick text truncated =>
    rw [Emission.ops, Emission.Room, channelOps, channelFrames]
    have hnodup : (o.aprsTargets calls).Nodup := by
      unfold aprsTargets
      split_ifs
      · exact List.Nodup.filter _ hx
      · exact hx
    generalize Broadcast.chat name nick text truncated = b
    by_cases hairc : o.needsAirc calls = true
    · rw [if_pos hairc, if_pos hairc, List.singleton_append, Air.befores, List.forall_mem_cons,
        broadcast_accepted_iff, forall_prop_of_true hairc]
      refine and_congr_right fun hadmitted => ?_
      have hpump : AirTrace.perform o.gateway (.broadcast b) =
          (o.gateway.withSessions o.gateway.radio.sessions.drawSeq.2).transmitAll .chat
            ((toEveryone b).frames o.gateway) := broadcastFlagged_admitted hadmitted
      have hbehind : Behind .chat (((toEveryone b).frames o.gateway).map fun e => e.2.encode) o.gateway
          (AirTrace.perform o.gateway (.broadcast b)) := by
        have hdrawn : Behind .chat [] o.gateway
            (o.gateway.withSessions o.gateway.radio.sessions.drawSeq.2) :=
          (Behind.refl .chat o.gateway).of_pump ⟨rfl, rfl, rfl, rfl, rfl, rfl⟩ rfl
        have hframes := hdrawn.transmitAll ((toEveryone b).frames o.gateway)
        rw [hpump]
        exact hframes
      have haprs : (AirTrace.perform o.gateway (.broadcast b)).radio.aprsOut =
          o.gateway.radio.aprsOut := (broadcastFlagged_keeps ..).1
      have hall := chats_accepted_iff true (aprsBody_ne_nil nick text truncated) m.now hnodup
        hbehind (hbehind.available.trans havailable) (hbehind.interlockDown.trans hinterlock)
      rw [hall]
      unfold idleStations AprsQueue.inFlight AprsQueue.waiting
      rw [haprs]
      exact ⟨fun h => ⟨h.1, h.2⟩, fun h => ⟨h.waiting, h.backlog⟩⟩
    · rw [if_neg hairc, if_neg hairc, List.nil_append]
      have hall := chats_accepted_iff true (aprsBody_ne_nil nick text truncated) m.now hnodup
        (Behind.refl .chat o.gateway) havailable hinterlock
      rw [hall]
      exact ⟨fun h => ⟨fun hyes => absurd hyes hairc, h.1, h.2⟩,
        fun h => ⟨h.2.waiting, h.2.backlog⟩⟩

/-! ### What an operation leaves behind -/

/-- The radio was asked for this. -/
def Did (ops : List RadioOp) (o o' : Outlet) : Prop := o'.air.performed = o.air.performed ++ ops

/-- New lines for the client are of this kind. -/
def Tells (id : ℕ) (P : Text → Prop) (o o' : Outlet) : Prop :=
  ∃ more, o'.clients.lines = o.clients.lines ++ more ∧ ∀ e ∈ more, e.1 = id → P e.2

variable {P : Text → Prop}

theorem did_air (h : o'.air = o.air) : Did [] o o' := by rw [Did, h, List.append_nil]

theorem did_core (h : o'.core = o.core) : Did [] o o' := did_air (congrArg Core.air h)

theorem Did.trans {o'' : Outlet} {ops : List RadioOp} (h : Did [] o o') (h' : Did ops o' o'') :
    Did ops o o'' := by
  rw [Did, h', h, List.append_nil]

theorem did_foldl (op : Callsign → RadioOp) (calls : List Callsign) (o : Outlet) :
    Did (calls.map op) o (calls.foldl (fun o c => o.perform (op c)) o) := by
  induction calls generalizing o with
  | nil => exact did_core rfl
  | cons c calls ih =>
    rw [List.foldl_cons, Did, ih (o.perform (op c)), List.map_cons, List.append_cons]
    rfl

theorem Tells.refl (id : ℕ) (P : Text → Prop) (o : Outlet) : Tells id P o o :=
  ⟨[], (List.append_nil _).symm, by simp⟩

theorem Tells.trans {o'' : Outlet} (h : Tells id P o o') (h' : Tells id P o' o'') :
    Tells id P o o'' := by
  obtain ⟨more, hmore, hall⟩ := h
  obtain ⟨more', hmore', hall'⟩ := h'
  refine ⟨more ++ more', by rw [hmore', hmore, List.append_assoc], fun e he hid => ?_⟩
  rcases List.mem_append.mp he with he | he
  · exact hall e he hid
  · exact hall' e he hid

theorem tells_sendRaw (o : Outlet) (client : ℕ) (line : Text) (h : client = id → P line) :
    Tells id P o (o.sendRaw client line) := by
  unfold sendRaw Clients.send
  cases o.clients.links.get client with
  | none => exact .refl id P o
  | some link =>
    dsimp only
    split_ifs
    · refine ⟨[(client, line)], rfl, fun e he hid => ?_⟩
      obtain rfl := List.mem_singleton.mp he
      exact h hid
    · unfold Clients.disconnect
      split_ifs <;> exact .refl id P o

/-! ### The gate -/

/-- A notice as the client reads it. -/
def noticeLine (o : Outlet) (st : State) (id : ℕ) (text : Text) : Text :=
  ((Message.new "NOTICE" [(st.user (.ip id)).elim ['*'] User.nick, text]).withPrefix o.cfg.name).toText

/-- What the sender is told of a message that is not refused: that it was shortened, that its
addressee is away, and that it waits for the radio. -/
inductive Reassuring (o : Outlet) (st : State) (m : Moment) (id : ℕ) : Text → Prop
  | shortened : Reassuring o st m id (noticeLine o st id
      ("Your message was shortened to " ++ natText o.policy.config.maxRfTextLen ++
        " characters before transmission. " ++
        "The radio side carries sentences, not paragraphs."))
  | away (target away : Text) : Reassuring o st m id
      ((Message.new "301" [(st.user (.ip id)).elim ['*'] User.nick, target, away]).withPrefix
        o.cfg.name).toText
  | queued (chan : Channel) : Reassuring o st m id (noticeLine o st id (o.relayNotice m chan))

/-- The tests that a text passes on its way to the air, and what is left of it. -/
structure Cleared (o : Outlet) (st : State) (m : Moment) (id : ℕ) (air : Text) (sc : Screened) : Prop
    where
  available : o.gateway.available = true
  privilege : userMayTxRf st (.ip id) = true
  callsign : ((st.user (.ip id)).bind User.callsign).any o.policy.stationAllowed = true
  rate : (o.policy.ipRateOk (rateKey st (.ip id)) m.now).1 = true
  passed : Passed o.policy air sc
  interlock : o.gateway.interlockDown = false
  backlog : o.gateway.backlogHasRoom (o.gateway.wireOctets (octets sc.text + 40)) .chat = true

/-- A text goes out as it was screened, or is refused and nothing is sent for it. -/
inductive Gate (o : Outlet) (st : State) (m : Moment) (id : ℕ) (Clear : Screened → Prop) :
    Option Screened × Outlet → Prop
  | passed {sc : Screened} {o' : Outlet} (hclear : ∀ sc', Clear sc' ↔ sc' = sc)
    (hcore : o'.core = o.core) (htells : Tells id (Reassuring o st m id) o o') : Gate o st m id Clear (some sc, o')
  | refused {o' : Outlet} (hno : ∀ sc, ¬ Clear sc) (hdid : Did [] o o' ∨ Did [.refuse] o o') :
    Gate o st m id Clear (none, o')

theorem passed_unique {p : Policy} {sc' : Screened} (h : Passed p air sc) (h' : Passed p air sc') :
    sc = sc' := by
  rcases sc with ⟨text, truncated⟩
  rcases sc' with ⟨text', truncated'⟩
  rcases h with ⟨h, rfl⟩ | ⟨h, rfl⟩ <;> rcases h' with ⟨h', rfl⟩ | ⟨h', rfl⟩
  · exact congrArg (Screened.mk · false) (Verdict.allow.inj (h.symm.trans h'))
  · cases h.symm.trans h'
  · cases h.symm.trans h'
  · exact congrArg (Screened.mk · true) (Verdict.truncated.inj (h.symm.trans h'))

/-- The last test, for a text that passed the others. -/
theorem screenBacklog_gate {o₁ : Outlet} (hcore : o₁.core = o.core)
    (htells : Tells id (Reassuring o st m id) o o₁)
    (hclear : o.gateway.interlockDown = false →
      o.gateway.backlogHasRoom (o.gateway.wireOctets (octets sc.text + 40)) .chat = true →
      Cleared o st m id air sc) (hpassed : Passed o.policy air sc) :
    Gate o st m id (Cleared o st m id air) (o₁.screenBacklog st m (.ip id) sc) := by
  have hair : o₁.air = o.air := congrArg Core.air hcore
  have hgateway : o₁.gateway = o.gateway := congrArg Air.gateway hair
  have htold : ∀ text, Did [] o (o₁.noticeUser st m (.ip id) text) :=
    fun text => did_core ((noticeUser_core ..).trans hcore)
  unfold screenBacklog
  rw [hgateway]
  by_cases hdown : o.gateway.interlockDown = true
  · rw [if_pos hdown]
    refine .refused (fun sc' h => ?_) (.inl (htold _))
    rw [h.interlock] at hdown
    cases hdown
  · rw [if_neg hdown]
    by_cases hroom : o.gateway.backlogHasRoom (o.gateway.wireOctets (octets sc.text + 40)) .chat = true
    · rw [if_neg (by simpa using hroom)]
      have hthis := hclear (by simpa using hdown) hroom
      exact .passed (fun sc' => ⟨fun h => passed_unique h.passed hpassed, fun h => h ▸ hthis⟩) hcore
        htells
    · rw [if_pos (by simpa using hroom)]
      refine .refused (fun sc' h => ?_) (.inr ((htold _).trans rfl))
      obtain rfl := passed_unique hpassed h.passed
      exact hroom h.backlog

theorem screenContent_gate {o₁ : Outlet} (hcore : o₁.core = o.core)
    (htells : Tells id (Reassuring o st m id) o o₁)
    (hclear : ∀ sc, Passed o.policy air sc → o.gateway.interlockDown = false →
      o.gateway.backlogHasRoom (o.gateway.wireOctets (octets sc.text + 40)) .chat = true →
      Cleared o st m id air sc) :
    Gate o st m id (Cleared o st m id air) (o₁.screenContent st m (.ip id) air .now) := by
  have hconfig : o₁.policy.config = o.policy.config := congrArg Core.policy hcore
  have hverdict : o₁.policy.screenOutbound air = o.policy.screenOutbound air := by
    rw [Policy.screenOutbound, hconfig, Policy.screenOutbound]
  unfold screenContent
  rw [hverdict]
  cases hpassed : o.policy.screenOutbound air with
  | deny reason =>
    refine .refused (fun sc h => ?_) (.inl (did_core ((noticeUser_core ..).trans hcore)))
    rcases h.passed with ⟨hno, -⟩ | ⟨hno, -⟩
    · cases hpassed.symm.trans hno
    · cases hpassed.symm.trans hno
  | allow t =>
    have hsc : Passed o.policy air ⟨t, false⟩ := .inl ⟨hpassed, rfl⟩
    exact screenBacklog_gate hcore htells (hclear _ hsc) hsc
  | truncated t =>
    have hsc : Passed o.policy air ⟨t, true⟩ := .inr ⟨hpassed, rfl⟩
    dsimp only
    rw [if_neg (by decide)]
    refine screenBacklog_gate ((noticeUser_core ..).trans hcore) (htells.trans ?_) (hclear _ hsc) hsc
    refine tells_sendRaw _ _ _ fun _ => ?_
    have hname : o₁.cfg = o.cfg := congrArg Core.cfg hcore
    rw [hconfig, hname]
    exact .shortened

/-- The screen, for a text that is to go out now. -/
theorem screen_gate {o₁ : Outlet} (hcore : o₁.core = o.core)
    (hrate : (o₁.policy.ipRateOk (rateKey st (.ip id)) m.now).1 =
      (o.policy.ipRateOk (rateKey st (.ip id)) m.now).1)
    (htells : Tells id (Reassuring o st m id) o o₁) :
    Gate o st m id (Cleared o st m id air) (o₁.screen st m (.ip id) air .now) := by
  have hair : o₁.air = o.air := congrArg Core.air hcore
  have hgateway : o₁.gateway = o.gateway := congrArg Air.gateway hair
  have hallowed : o₁.policy.stationAllowed = o.policy.stationAllowed := by
    have hconfig : o₁.policy.config = o.policy.config := congrArg Core.policy hcore
    funext call
    simp only [Policy.stationAllowed, hconfig]
  have htold : ∀ (o₂ : Outlet) text, o₂.core = o₁.core → Did [] o (o₂.noticeUser st m (.ip id) text) :=
    fun o₂ text h => did_core ((noticeUser_core ..).trans (h.trans hcore))
  unfold screen
  rw [hgateway, hallowed]
  by_cases hon : o.gateway.available = true
  · rw [if_neg (by simpa using hon)]
    by_cases hmay : userMayTxRf st (.ip id) = true
    · rw [if_neg (by simpa using hmay)]
      cases hcall : (st.user (.ip id)).bind User.callsign with
      | none =>
        refine .refused (fun sc h => ?_) (.inl (htold _ _ rfl))
        have hno := h.callsign
        rw [hcall] at hno
        cases hno
      | some call =>
        dsimp only
        by_cases hpermitted : o.policy.stationAllowed call = true
        · rw [if_neg (by simpa using hpermitted)]
          by_cases hok : (o₁.policy.ipRateOk (rateKey st (.ip id)) m.now).1 = true
          · rw [if_neg (by simpa using hok)]
            refine screenContent_gate hcore htells fun sc hpassed hinterlock hbacklog => ?_
            exact ⟨hon, hmay, by rw [hcall]; exact hpermitted, hrate ▸ hok, hpassed, hinterlock,
              hbacklog⟩
          · rw [if_pos (by simpa using hok)]
            exact .refused (fun sc h => hok (hrate.trans h.rate)) (.inl (htold _ _ rfl))
        · rw [if_pos (by simpa using hpermitted)]
          refine .refused (fun sc h => hpermitted ?_) (.inl (htold _ _ rfl))
          have hyes := h.callsign
          rwa [hcall] at hyes
    · rw [if_pos (by simpa using hmay)]
      exact .refused (fun sc h => hmay h.privilege) (.inl (htold _ _ rfl))
  · rw [if_pos (by simpa using hon)]
    exact .refused (fun sc h => hon h.available) (.inl (htold _ _ rfl))

/-- The tests for a channel come before those of the screen. -/
structure ChannelCleared (o : Outlet) (st : State) (m : Moment) (id : ℕ) (chan : Channel) (text : Text)
    (sc : Screened) : Prop where
  bridged : chan.rf = true
  listened : chan.hasRfMembers = true ∨ o.airc = true
  limit : (o.policy.rfChannelRateOk (rateKey st (.ip id) ++ ':' :: chan.name) m.now).1 = true
  cleared : ∃ air, chatForAir text false = some air ∧ Cleared o st m id air sc

theorem channelForAir_gate (o : Outlet) (st : State) (m : Moment) (id : ℕ) (chan : Channel)
    (text : Text) : Gate o st m id (ChannelCleared o st m id chan text)
      (o.channelForAir st m (.ip id) chan text false) := by
  unfold channelForAir
  dsimp only
  split_ifs with hallowed hlimit hwhy
  · refine .refused (fun sc h => ?_) (.inl (did_core (noticeUser_core ..)))
    rw [h.limit] at hlimit
    cases hlimit
  · obtain ⟨⟨⟨hsome, hrf⟩, hon⟩, hlistened⟩ :
        (((chatForAir text false).isSome = true ∧ chan.rf = true) ∧ o.gateway.available = true) ∧
          (chan.hasRfMembers || (o.airc && userMayTxRf st (.ip id))) = true := by
      simpa only [Bool.and_eq_true] using hallowed
    obtain ⟨air, hair⟩ := Option.isSome_iff_exists.mp hsome
    rw [hair, Option.getD_some]
    have hgate := @screen_gate o st m id air { o with
      policy := (o.policy.rfChannelRateOk (rateKey st (.ip id) ++ ':' :: chan.name) m.now).2 } rfl rfl
      (.refl id _ o)
    have hclear : ∀ sc, ChannelCleared o st m id chan text sc ↔ Cleared o st m id air sc := by
      intro sc
      constructor
      · rintro ⟨-, -, -, air', hair', hcleared⟩
        obtain rfl := Option.some.inj (hair.symm.trans hair')
        exact hcleared
      · intro hcleared
        refine ⟨hrf, ?_, by simpa using hlimit, air, hair, hcleared⟩
        rcases Bool.or_eq_true .. |>.mp hlistened with hmembers | hcq
        · exact .inl hmembers
        · exact .inr (Bool.and_eq_true .. |>.mp hcq).1
    have hsame : ChannelCleared o st m id chan text = Cleared o st m id air :=
      funext fun sc => propext (hclear sc)
    rw [hsame]
    exact hgate
  · refine .refused (fun sc h => hallowed ?_) (.inl (did_core (noticeAirReason_core ..)))
    obtain ⟨air, hair, hcleared⟩ := h.cleared
    simp [hair, h.bridged, hcleared.available, hcleared.privilege, h.listened]
  · refine .refused (fun sc h => hwhy ?_) (.inl (did_core rfl))
    obtain ⟨air, hair, hcleared⟩ := h.cleared
    simp [hair, h.bridged]

/-! ### One message -/

/-- The stations in a channel that hear what a client says there. -/
def hearers (st : State) (channel : Text) (id : ℕ) : List Callsign :=
  ((st.members channel).filter fun uid => some uid ≠ some (.ip id)).filterMap UserId.callsign

/-- What is sent for a PRIVMSG of a client that is not refused. -/
inductive Decided (s : Server) (m : Moment) (id : ℕ) (msg : Message) : Emission → Prop
  | direct {sender : User} {target text air : Text} {call : Callsign} {sc : Screened}
    (hsender : s.user (.ip id) = some sender) (htarget : msg.param 0 = some target)
    (htext : msg.param 1 = some text) (hsome : text ≠ []) (hname : isChannelName target = false)
    (hcall : findTarget s.state target = some (.rf call))
    (hair : chatForAir text false = some air) (hclear : Cleared s.outlet s.state m id air sc) :
    Decided s m id msg (.direct call sender.nick (spoken text sc) sc.truncated)
  | channel {sender : User} {target text : Text} {chan : Channel} {flags : MemberFlags}
    {sc : Screened} (hsender : s.user (.ip id) = some sender) (htarget : msg.param 0 = some target)
    (htext : msg.param 1 = some text) (hsome : text ≠ []) (hname : isChannelName target = true)
    (hchan : s.state.channel target = some chan) (hflags : chan.members.get (.ip id) = some flags)
    (hvoice : (chan.moderated && !(flags.op || flags.voice)) = false)
    (hclear : ChannelCleared s.outlet s.state m id chan text sc)
    (hkept : isChannelName chan.name = true) :
    Decided s m id msg
      (.channel chan.name (hearers s.state chan.name id) sender.nick (spoken text sc) sc.truncated)

theorem hearers_nodup (st : State) (channel : Text) (id : ℕ) : (hearers st channel id).Nodup := by
  have hmembers : (st.members channel).Nodup := by
    unfold State.members
    cases st.channel channel with
    | none => exact List.nodup_nil
    | some c => exact c.members.nodup
  refine (hmembers.filter _).filterMap ?_
  intro uid uid' call huid huid'
  cases uid with
  | ip id => cases huid
  | rf c =>
    cases uid' with
    | ip id => cases huid'
    | rf c' =>
      rw [show c = call from Option.some.inj huid, show c' = call from Option.some.inj huid']

theorem Decided.distinct {x : Emission} (h : Decided s m id msg x) : x.Distinct := by
  cases h with
  | direct => trivial
  | channel => exact hearers_nodup ..

/-- Who speaks APRS is written in the table of stations. -/
theorem aprsTargets_congr (hcfg : o'.cfg = o.cfg) (hpeers : o'.sessions.peers = o.sessions.peers)
    (calls : List Callsign) : o'.aprsTargets calls = o.aprsTargets calls := by
  have hspeaks : o'.speaksAprs = o.speaksAprs := by
    funext c
    rw [speaksAprs, Outlet.peer, Sessions.peer, hpeers]
    rfl
  rw [aprsTargets, aprsTargets, airc, hcfg, hspeaks]
  rfl

theorem needsAirc_congr (hcfg : o'.cfg = o.cfg) (hpeers : o'.sessions.peers = o.sessions.peers)
    (calls : List Callsign) : o'.needsAirc calls = o.needsAirc calls := by
  have hspeaks : o'.speaksAirc = o.speaksAirc := by
    funext c
    rw [speaksAirc, Outlet.peer, Sessions.peer, hpeers]
    rfl
  rw [needsAirc, needsAirc, airc, hcfg, hspeaks]
  rfl

/-- Lines to clients have no part in what is sent. -/
theorem Emission.ops_core (h : o'.core = o.core) (x : Emission) : x.ops o' m = x.ops o m := by
  have hcfg : o'.cfg = o.cfg := congrArg Core.cfg h
  have hgateway : o'.gateway = o.gateway := congrArg Air.gateway (congrArg Core.air h)
  have hpeers : o'.sessions.peers = o.sessions.peers := by
    rw [Outlet.sessions, hgateway]
    rfl
  cases x with
  | direct call nick text truncated => rw [Emission.ops, Emission.ops, hgateway]
  | channel name calls nick text truncated =>
    rw [Emission.ops, Emission.ops, channelOps, channelOps, needsAirc_congr hcfg hpeers,
      aprsTargets_congr hcfg hpeers]

theorem emitDirectChatRf_did (o : Outlet) (m : Moment) (call : Callsign) (nick text : Text)
    (truncated : Bool) (origin : Origin) :
    Did (Emission.ops o m (.direct call nick text truncated)) o
      (o.emitDirectChatRf m call nick text truncated origin) ∧
    (o.emitDirectChatRf m call nick text truncated origin).clients = o.clients := by
  have hrecord : ∀ (o' : Outlet) accepted, (o'.recordIf accepted origin text).air = o'.air ∧
      (o'.recordIf accepted origin text).clients = o'.clients := by
    intro o' accepted
    cases accepted <;> exact ⟨rfl, rfl⟩
  rw [Emission.ops]
  unfold emitDirectChatRf
  split_ifs with haprs
  · dsimp only
    obtain ⟨hair, hclients⟩ := hrecord (o.aprsChat m call (aprsBody nick text truncated)).2
      (o.aprsChat m call (aprsBody nick text truncated)).1
    exact ⟨congrArg Air.performed hair, hclients⟩
  · dsimp only
    obtain ⟨hair, hclients⟩ := hrecord (o.unicast m call (.chat nick text truncated)).2
      (o.unicast m call (.chat nick text truncated)).1
    exact ⟨congrArg Air.performed hair, hclients⟩

theorem emitChannelChatRfTo_did (o : Outlet) (m : Moment) (name : Text) (calls : List Callsign)
    (nick text : Text) (truncated : Bool) (origin : Origin) :
    Did (Emission.ops o m (.channel name calls nick text truncated)) o
      (o.emitChannelChatRfTo m name calls nick text truncated origin) ∧
    (o.emitChannelChatRfTo m name calls nick text truncated origin).clients = o.clients ∧
    (o.emitChannelChatRfTo m name calls nick text truncated origin).cfg = o.cfg := by
  have hkept : ∀ (calls : List Callsign) (o' : Outlet),
      (calls.foldl (fun o call => o.perform (.aprsChat call (aprsBody nick text truncated) true m.now))
        o').clients = o'.clients ∧
      (calls.foldl (fun o call => o.perform (.aprsChat call (aprsBody nick text truncated) true m.now))
        o').cfg = o'.cfg := by
    intro calls
    induction calls with
    | nil => exact fun _ => ⟨rfl, rfl⟩
    | cons c calls ih => exact fun o' => ih _
  have hdid := did_foldl (fun c => .aprsChat c (aprsBody nick text truncated) true m.now)
    (o.aprsTargets calls)
  have htargets : ∀ b : Broadcast, ((o.record origin text).perform (.broadcast b)).aprsTargets calls =
      o.aprsTargets calls := by
    intro b
    have hpeers : ((o.record origin text).perform (.broadcast b)).sessions.peers = o.sessions.peers :=
      (broadcastFlagged_keeps o.gateway b.kind b.payload .chat b.flags).2
    have hcfg : ((o.record origin text).perform (.broadcast b)).cfg = o.cfg := rfl
    exact aprsTargets_congr hcfg hpeers calls
  have hneeds : (o.record origin text).needsAirc calls = o.needsAirc calls :=
    needsAirc_congr rfl rfl calls
  have hrecorded : (o.record origin text).aprsTargets calls = o.aprsTargets calls :=
    aprsTargets_congr rfl rfl calls
  rw [Emission.ops, channelOps]
  unfold emitChannelChatRfTo
  dsimp only
  rw [hneeds]
  split_ifs
  · rw [htargets]
    refine ⟨?_, hkept _ _⟩
    rw [Did, hdid]
    exact List.append_assoc o.air.performed [.broadcast (.chat name nick text truncated)] _
  · rw [hrecorded]
    exact ⟨hdid _, hkept _ _⟩

/-- The message that was decided on is sent, and no other; or nothing is sent. -/
inductive Outcome (o : Outlet) (st : State) (m : Moment) (id : ℕ) (Sends : Emission → Prop) :
    Outlet → Prop
  | sent {x : Emission} {o' : Outlet} (hx : ∀ x', Sends x' ↔ x' = x) (hdid : Did (x.ops o m) o o')
    (htells : Tells id (Reassuring o st m id) o o') : Outcome o st m id Sends o'
  | refused {o' : Outlet} (hno : ∀ x, ¬ Sends x) (hdid : Did [] o o' ∨ Did [.refuse] o o') :
    Outcome o st m id Sends o'

theorem Outcome.congr {Sends Sends' : Emission → Prop} (h : Outcome o st m id Sends o')
    (heq : ∀ x, Sends' x ↔ Sends x) : Outcome o st m id Sends' o' := by
  have hsame : Sends' = Sends := funext fun x => propext (heq x)
  rw [hsame]
  exact h

theorem tells_of_clients (h : o'.clients = o.clients) : Tells id P o o' :=
  ⟨[], by rw [h, List.append_nil], by simp⟩

/-- A message to a station. -/
theorem privateMessage_outcome (o : Outlet) (st : State) (m : Moment) (id : ℕ) (sender : User)
    {target : Text} (text : Text) (call : Callsign) (hname : isChannelName target = false) :
    Outcome o st m id (fun x => ∃ air sc, chatForAir text false = some air ∧
        Cleared o st m id air sc ∧ x = .direct call sender.nick (spoken text sc) sc.truncated)
      (o.privateMessage st m (.ip id) sender target text false (.rf call)) := by
  unfold privateMessage
  extract_lets send
  have hrf : (UserId.rf call).isRf = true := rfl
  rw [if_pos hrf]
  cases hair : chatForAir text false with
  | none =>
    refine .refused ?_ (.inl (did_core (noticeUser_core ..)))
    rintro x ⟨air, sc, hsome, -⟩
    cases hsome
  | some air =>
    dsimp only
    have hgate := @screen_gate o st m id air o rfl rfl (.refl id _ o)
    generalize o.screen st m (.ip id) air .now = gate at hgate
    cases hgate with
    | refused hno hdid =>
      refine .refused ?_ hdid
      rintro x ⟨air', sc, hsome, hclear, -⟩
      obtain rfl := Option.some.inj hsome
      exact hno sc hclear
    | passed hclear hcore htells =>
      rename_i sc o₁
      have honly := hclear sc |>.mpr rfl
      have htold : ∃ o₂, o₂.core = o.core ∧ Tells id (Reassuring o st m id) o o₂ ∧
          send o₁ (deliveryTextAfterScreen text sc).1 (deliveryTextAfterScreen text sc).2 true =
            o₂.deliver m (.rf call) (.privmsg sender.nick sender.nickMask target
              (deliveryTextAfterScreen text sc).1 false (deliveryTextAfterScreen text sc).2
              (.ip (.ip id) (o₂.acceptance st (.ip id) true))) := by
        cases haway : (st.user (.rf call)).bind User.away with
        | none => exact ⟨o₁, hcore, htells, by simp only [send, haway]⟩
        | some away =>
          refine ⟨o₁.numeric st (.ip id) "301" [target, away], (numeric_core ..).trans hcore,
            htells.trans (tells_sendRaw _ _ _ fun _ => ?_), by simp only [send, haway]⟩
          rw [show o₁.cfg = o.cfg from congrArg Core.cfg hcore]
          exact .away target away
      obtain ⟨o₂, hcore₂, htells₂, hsend⟩ := htold
      have hemission := fun origin => @emission_eq text sc sender.nick sender.nickMask target origin
        o₂.cfg.presenceNotices (passed_printable honly.passed)
      have hgoal : send o₁ (deliveryTextAfterScreen text sc).1 (deliveryTextAfterScreen text sc).2
          true = o₂.emitDirectChatRf m call sender.nick (spoken text sc) sc.truncated
            (.ip (.ip id) (o₂.acceptance st (.ip id) true)) := by
        rw [hsend, deliver, deliverRf, hemission, hname]
        rfl
      obtain ⟨hdid, hclients⟩ := emitDirectChatRf_did o₂ m call sender.nick (spoken text sc)
        sc.truncated (.ip (.ip id) (o₂.acceptance st (.ip id) true))
      rw [Emission.ops_core hcore₂] at hdid
      change Outcome o st m id _ (send o₁ (deliveryTextAfterScreen text sc).1
        (deliveryTextAfterScreen text sc).2 true)
      rw [hgoal]
      refine .sent (fun x => ⟨?_, ?_⟩) ((did_core hcore₂).trans hdid)
        (htells₂.trans (tells_of_clients hclients))
      · rintro ⟨air', sc', hsome, hclear', rfl⟩
        obtain rfl := Option.some.inj hsome
        rw [(hclear sc').mp hclear']
      · rintro rfl
        exact ⟨air, sc, rfl, honly, rfl⟩

theorem tells_sendToMembers (o : Outlet) (members : List UserId) (line : Text)
    (h : UserId.ip id ∉ members) : Tells id P o (o.sendToMembers members line) := by
  unfold sendToMembers
  induction members generalizing o with
  | nil => exact .refl id P o
  | cons uid members ih =>
    obtain ⟨hother, hrest⟩ := not_or.mp (mt List.mem_cons.mpr h)
    rw [List.foldl_cons]
    refine Tells.trans ?_ (ih _ hrest)
    cases uid with
    | ip client => exact tells_sendRaw _ _ _ fun heq => absurd (congrArg UserId.ip heq.symm) hother
    | rf call => exact .refl id P o

theorem Did.core {o'' : Outlet} {ops : List RadioOp} (h : Did ops o o') (hcore : o''.core = o'.core) :
    Did ops o o'' := by
  have hair : o''.air = o'.air := congrArg Core.air hcore
  rw [Did, hair, h]

/-- What a client says in a channel is not told to itself. -/
theorem tells_channel (o : Outlet) (st : State) (channel line : Text) :
    Tells id P o (o.sendToMembers ((st.members channel).filter fun uid => some uid ≠ some (.ip id))
      line) := by
  refine tells_sendToMembers _ _ _ fun hmem => ?_
  simpa using (List.mem_filter.mp hmem).2

theorem broadcastChannelEx_did {d : Delivery} {channel nick target text : Text} {truncated : Bool}
    {origin : Origin} (o : Outlet) (st : State) (m : Moment) (id : ℕ)
    (hemission : d.rfEmission o.cfg.presenceNotices =
      some (.chat nick target text truncated false origin)) :
    Did (Emission.ops o m (.channel channel (hearers st channel id) nick text truncated)) o
      (o.broadcastChannelEx st m channel d (some (.ip id)) true) ∧
    Tells id P o (o.broadcastChannelEx st m channel d (some (.ip id)) true) ∧
    (o.broadcastChannelEx st m channel d (some (.ip id)) true).cfg = o.cfg := by
  obtain ⟨told, htold⟩ : ∃ told, told = o.sendToMembers
      ((st.members channel).filter fun uid => some uid ≠ some (.ip id)) (renderIrc d).toText := ⟨_, rfl⟩
  have hcore : told.core = o.core := htold ▸ sendToMembers_core ..
  have hcfg : told.cfg = o.cfg := congrArg Core.cfg hcore
  have hresult : o.broadcastChannelEx st m channel d (some (.ip id)) true =
      told.emitChannelChatRfTo m channel (hearers st channel id) nick text truncated origin := by
    unfold broadcastChannelEx
    dsimp only
    rw [← htold, hcfg, hemission]
    rfl
  obtain ⟨hdid, hclients, hkept⟩ := emitChannelChatRfTo_did told m channel (hearers st channel id) nick
    text truncated origin
  rw [Emission.ops_core hcore] at hdid
  rw [hresult]
  refine ⟨(did_core hcore).trans hdid, ?_, hkept.trans hcfg⟩
  exact (htold ▸ tells_channel o st channel _ : Tells id P o told).trans (tells_of_clients hclients)

/-- Under a name that is no channel's the message stays on IRC. -/
theorem broadcastChannelEx_named {d : Delivery} {channel nick target text : Text} {truncated : Bool}
    {origin : Origin} (o : Outlet) (st : State) (m : Moment) (except : Option UserId)
    (hemission : d.rfEmission o.cfg.presenceNotices =
      some (.chat nick target text truncated true origin)) :
    (o.broadcastChannelEx st m channel d except true).core = o.core := by
  obtain ⟨told, htold⟩ : ∃ told, told = o.sendToMembers
      ((st.members channel).filter fun uid => some uid ≠ except) (renderIrc d).toText := ⟨_, rfl⟩
  have hcore : told.core = o.core := htold ▸ sendToMembers_core ..
  unfold broadcastChannelEx
  dsimp only
  rw [← htold, show told.cfg = o.cfg from congrArg Core.cfg hcore, hemission]
  exact hcore

/-- What the sender of a message that passed is told afterwards. -/
def relayed (o : Outlet) (st : State) (m : Moment) (id : ℕ) (chan : Channel) : Outlet :=
  if o.cfg.noticeAirRelay then o.noticeUser st m (.ip id) (o.relayNotice m chan) else o

theorem channelMessage_passed {sender : User} {chan : Channel} {text : Text} {o₁ : Outlet}
    (h : s.outlet.channelForAir s.state m (.ip id) chan text false = (some sc, o₁)) :
    (s.channelMessage m (.ip id) sender chan text false).outlet =
      relayed (o₁.broadcastChannelEx s.state m chan.name (.privmsg sender.nick sender.nickMask chan.name
        (deliveryTextAfterScreen text sc).1 false (deliveryTextAfterScreen text sc).2
        (.ip (.ip id) (s.outlet.acceptance s.state (.ip id) true))) (some (.ip id)) true)
        s.state m id chan := by
  unfold channelMessage relayed
  rw [h]
  simp only [Option.isSome_some, Bool.true_and, Bool.not_false, Bool.and_true]
  split_ifs with hnotice hnotice' hnotice'
  · rfl
  · exact absurd hnotice hnotice'
  · exact absurd hnotice' hnotice
  · rfl

theorem channelMessage_refused {sender : User} {chan : Channel} {text : Text} {o₁ : Outlet}
    (h : s.outlet.channelForAir s.state m (.ip id) chan text false = (none, o₁)) :
    (s.channelMessage m (.ip id) sender chan text false).outlet.core = o₁.core := by
  unfold channelMessage
  rw [h]
  exact sendToMembers_core ..

theorem relayed_core (o : Outlet) (st : State) (m : Moment) (id : ℕ) (chan : Channel) :
    (relayed o st m id chan).core = o.core := by
  unfold relayed
  split_ifs
  · exact noticeUser_core ..
  · rfl

theorem tells_relayed (h : o'.cfg = o.cfg) (st : State) (m : Moment) (id : ℕ) (chan : Channel) :
    Tells id (Reassuring o st m id) o' (relayed o' st m id chan) := by
  have hnotice : noticeLine o' st id (o'.relayNotice m chan) =
      noticeLine o st id (o.relayNotice m chan) := by
    unfold noticeLine relayNotice
    rw [h]
  have hqueued : Reassuring o st m id (noticeLine o' st id (o'.relayNotice m chan)) :=
    hnotice.symm ▸ .queued chan
  unfold relayed
  split_ifs
  · exact tells_sendRaw _ _ _ fun _ => hqueued
  · exact .refl id _ _

/-- A message to a channel. -/
theorem channelMessage_outcome (s : Server) (m : Moment) (id : ℕ) (sender : User) (chan : Channel)
    (text : Text) :
    Outcome s.outlet s.state m id (fun x => isChannelName chan.name = true ∧
        ∃ sc, ChannelCleared s.outlet s.state m id chan text sc ∧ x = .channel chan.name
          (hearers s.state chan.name id) sender.nick (spoken text sc) sc.truncated)
      (s.channelMessage m (.ip id) sender chan text false).outlet := by
  have hgate := channelForAir_gate s.outlet s.state m id chan text
  obtain ⟨gate, heq⟩ : ∃ gate, s.outlet.channelForAir s.state m (.ip id) chan text false = gate :=
    ⟨_, rfl⟩
  rw [heq] at hgate
  cases hgate with
  | refused hno hdid =>
    rename_i o₁
    have hcore : (s.channelMessage m (.ip id) sender chan text false).outlet.core = o₁.core :=
      channelMessage_refused heq
    refine .refused ?_ (hdid.imp (·.core hcore) (·.core hcore))
    rintro x ⟨-, sc, hclear, -⟩
    exact hno sc hclear
  | passed hclear hcore htells =>
    rename_i sc o₁
    have honly := hclear sc |>.mpr rfl
    obtain ⟨air, hair, hpassed⟩ := honly.cleared
    have hcfg : o₁.cfg = s.outlet.cfg := congrArg Core.cfg hcore
    have hemission := @emission_eq text sc sender.nick sender.nickMask chan.name
      (.ip (.ip id) (s.outlet.acceptance s.state (.ip id) true)) o₁.cfg.presenceNotices
      (passed_printable hpassed.passed)
    rw [channelMessage_passed heq]
    by_cases hname : isChannelName chan.name = true
    · rw [hname] at hemission
      obtain ⟨hdid, htold, hkept⟩ := @broadcastChannelEx_did (Reassuring s.outlet s.state m id) _
        chan.name _ _ _ _ _ o₁ s.state m id hemission
      rw [Emission.ops_core hcore] at hdid
      refine .sent (fun x => ⟨?_, ?_⟩) (((did_core hcore).trans hdid).core (relayed_core ..)) ?_
      · rintro ⟨-, sc', hclear', rfl⟩
        rw [(hclear sc').mp hclear']
      · rintro rfl
        exact ⟨hname, sc, honly, rfl⟩
      · exact (htells.trans htold).trans (tells_relayed (hkept.trans hcfg) ..)
    · rw [Bool.not_eq_true] at hname
      rw [hname] at hemission
      have hsame := @broadcastChannelEx_named _ chan.name _ _ _ _ _ o₁ s.state m (some (.ip id))
        hemission
      refine .refused ?_ (.inl ((did_core hcore).core ((relayed_core ..).trans hsame)))
      rintro x ⟨hyes, -⟩
      cases hname.symm.trans hyes

/-- A message that is to be held puts nothing on the air. -/
theorem screen_held (o : Outlet) (st : State) (m : Moment) (id : ℕ) (air : Text) :
    (o.screen st m (.ip id) air .held).2.core = o.core := by
  have hcontent : ∀ o' : Outlet, o'.core = o.core →
      (o'.screenContent st m (.ip id) air .held).2.core = o.core := by
    intro o' hcore
    unfold screenContent
    cases o'.policy.screenOutbound air with
    | deny reason => exact (noticeUser_core o' st m id _).trans hcore
    | allow t => exact hcore
    | truncated t => exact (noticeUser_core o' st m id _).trans hcore
  unfold screen
  split_ifs
  · exact noticeUser_core _ st m id _
  · exact noticeUser_core _ st m id _
  · cases (st.user (.ip id)).bind User.callsign with
    | none => exact noticeUser_core _ st m id _
    | some call =>
      dsimp only
      split_ifs
      · exact noticeUser_core _ st m id _
      · exact noticeUser_core _ st m id _
      · exact hcontent _ rfl

theorem offerMailbox_did (o : Outlet) (st : State) (m : Moment) (id : ℕ) (sender target text : Text)
    (notice : Bool) : Did [] o (o.offerMailbox st m (.ip id) sender target text notice) := by
  unfold offerMailbox
  extract_lets noSuchNick accepted
  have hnone : Did [] o noSuchNick := did_core (numeric_core ..)
  split
  · rename_i air call _ _
    split_ifs
    · exact hnone
    · have hscreen := screen_held o st m id air
      generalize o.screen st m (.ip id) air .held = gate at hscreen
      rcases gate with ⟨_ | x, o₁⟩
      · exact did_core hscreen
      · have hair : o₁.air = o.air := congrArg Core.air hscreen
        dsimp only
        split
        · exact did_air hair
        · exact did_air hair
  · exact hnone

theorem privateMessage_ip (o : Outlet) (st : State) (m : Moment) (id : ℕ) (sender : User)
    (target text : Text) (notice : Bool) (client : ℕ) :
    (o.privateMessage st m (.ip id) sender target text notice (.ip client)).core = o.core := by
  unfold privateMessage
  extract_lets send
  change (send o text false false).core = o.core
  unfold send
  cases (st.user (.ip client)).bind User.away with
  | none => exact sendRaw_core ..
  | some away => exact (sendRaw_core ..).trans (numeric_core ..)

/-- Every PRIVMSG of a client. -/
theorem cmdPrivmsg_outcome (s : Server) (m : Moment) (id : ℕ) (msg : Message) :
    Outcome s.outlet s.state m id (Decided s m id msg) (s.cmdPrivmsg m (.ip id) msg false).outlet := by
  unfold cmdPrivmsg
  cases htarget : msg.param 0 with
  | none => exact .refused (fun x hx => by cases hx <;> simp_all) (.inl (did_core (numeric_core ..)))
  | some target =>
    cases htext : msg.param 1 with
    | none => exact .refused (fun x hx => by cases hx <;> simp_all) (.inl (did_core (numeric_core ..)))
    | some text =>
      cases text with
      | nil =>
        exact .refused (fun x hx => by cases hx <;> simp_all) (.inl (did_core (numeric_core ..)))
      | cons c rest =>
        cases hsender : s.user (.ip id) with
        | none => exact .refused (fun x hx => by cases hx <;> simp_all) (.inl (did_core rfl))
        | some sender =>
          dsimp only
          cases hname : isChannelName target with
          | true =>
            rw [if_pos rfl]
            cases hchan : s.state.channel target with
            | none =>
              exact .refused (fun x hx => by cases hx <;> simp_all) (.inl (did_core (numeric_core ..)))
            | some chan =>
              dsimp only
              cases hflags : chan.members.get (.ip id) with
              | none =>
                exact .refused (fun x hx => by cases hx <;> simp_all)
                  (.inl (did_core (numeric_core ..)))
              | some flags =>
                dsimp only
                cases hvoice : chan.moderated && !(flags.op || flags.voice) with
                | true =>
                  exact .refused (fun x hx => by cases hx <;> simp_all)
                    (.inl (did_core (numeric_core ..)))
                | false =>
                  refine (channelMessage_outcome s m id sender chan (c :: rest)).congr fun x => ?_
                  constructor
                  · intro hx
                    cases hx with
                    | direct _ htarget' _ _ hname' =>
                      obtain rfl := Option.some.inj (htarget.symm.trans htarget')
                      cases hname.symm.trans hname'
                    | channel hsender' htarget' htext' _ _ hchan' _ _ hclear hkept =>
                      obtain rfl := Option.some.inj (htarget.symm.trans htarget')
                      obtain rfl := Option.some.inj (htext.symm.trans htext')
                      obtain rfl := Option.some.inj (hsender.symm.trans hsender')
                      obtain rfl := Option.some.inj (hchan.symm.trans hchan')
                      exact ⟨hkept, _, hclear, rfl⟩
                  · rintro ⟨hkept, sc, hclear, rfl⟩
                    exact .channel hsender htarget htext (List.cons_ne_nil c rest) hname hchan hflags
                      hvoice hclear hkept
          | false =>
            rw [if_neg Bool.false_ne_true]
            cases htargetId : findTarget s.state target with
            | none =>
              exact .refused (fun x hx => by cases hx <;> simp_all) (.inl (offerMailbox_did ..))
            | some targetId =>
              cases targetId with
              | ip client =>
                exact .refused (fun x hx => by cases hx <;> simp_all)
                  (.inl (did_core (privateMessage_ip _ _ m ..)))
              | rf call =>
                refine (privateMessage_outcome s.outlet s.state m id sender (c :: rest) call
                  hname).congr fun x => ?_
                constructor
                · intro hx
                  cases hx with
                  | direct hsender' htarget' htext' _ _ hcall hair hclear =>
                    obtain rfl := Option.some.inj (htarget.symm.trans htarget')
                    obtain rfl := Option.some.inj (htext.symm.trans htext')
                    obtain rfl := Option.some.inj (hsender.symm.trans hsender')
                    obtain rfl := UserId.rf.inj (Option.some.inj (htargetId.symm.trans hcall))
                    exact ⟨_, _, hair, hclear, rfl⟩
                  | channel _ htarget' _ _ hname' =>
                    obtain rfl := Option.some.inj (htarget.symm.trans htarget')
                    cases hname.symm.trans hname'
                · rintro ⟨air, sc, hair, hclear, rfl⟩
                  exact .direct hsender htarget htext (List.cons_ne_nil c rest) hname htargetId hair
                    hclear

/-! ### The sender and the layers below -/

/-- What the radio was asked for in between. -/
def asked (o o' : Outlet) : List RadioOp := o'.air.performed.drop o.air.performed.length

/-- The lines that a client was given in between. -/
def given (o o' : Outlet) (id : ℕ) : List Text :=
  ((o'.clients.lines.drop o.clients.lines.length).filter fun e => e.1 = id).map Prod.snd

/-- Unless the sender of a message is told of a refusal, all that is sent for it is accepted. -/
def NeverSilent (s : Server) (m : Moment) (id : ℕ) (msg : Message) : Prop :=
  let t := s.cmdPrivmsg m (.ip id) msg false
  (∀ line ∈ given s.outlet t.outlet id, Reassuring s.outlet s.state m id line) →
    ∀ e ∈ Air.befores s.outlet.gateway (asked s.outlet t.outlet), Accepted e.1 e.2

theorem Did.asked {ops : List RadioOp} (h : Did ops o o') : asked o o' = ops := by
  rw [SilentRefusals.asked, h, List.drop_left]

theorem Tells.given (h : Tells id P o o') : ∀ line ∈ given o o' id, P line := by
  obtain ⟨more, hmore, hall⟩ := h
  intro line hline
  rw [SilentRefusals.given, hmore, List.drop_left] at hline
  obtain ⟨e, he, rfl⟩ := List.mem_map.mp hline
  obtain ⟨hmem, hid⟩ := List.mem_filter.mp he
  exact hall e hmem (of_decide_eq_true hid)

theorem Decided.up {x : Emission} (h : Decided s m id msg x) :
    s.outlet.gateway.available = true ∧ s.outlet.gateway.interlockDown = false := by
  cases h with
  | direct _ _ _ _ _ _ _ hclear => exact ⟨hclear.available, hclear.interlock⟩
  | channel _ _ _ _ _ _ _ _ hclear =>
    obtain ⟨air, -, hcleared⟩ := hclear.cleared
    exact ⟨hcleared.available, hcleared.interlock⟩

/-- A message is dropped behind the sender's back exactly if it passes the screen and there is no room
for all that is sent for it. -/
theorem never_silent (s : Server) (m : Moment) (id : ℕ) (msg : Message) :
    NeverSilent s m id msg ↔ ∀ x, Decided s m id msg x → x.Room s.outlet := by
  have houtcome := cmdPrivmsg_outcome s m id msg
  unfold NeverSilent
  dsimp only
  cases houtcome with
  | sent hx hdid htells =>
    rename_i x
    have hdecided := hx x |>.mpr rfl
    have hiff := ops_accepted_iff hdecided.up.1 hdecided.up.2 m x hdecided.distinct
    rw [hdid.asked, forall_prop_of_true htells.given, hiff]
    exact ⟨fun h x' hx' => (hx x').mp hx' ▸ h, fun h => h x hdecided⟩
  | refused hno hdid =>
    refine iff_of_true (fun _ e he => ?_) fun x hx => absurd hx (hno x)
    rcases hdid with hdid | hdid
    · rw [hdid.asked] at he
      exact absurd he List.not_mem_nil
    · rw [hdid.asked] at he
      obtain rfl := List.mem_singleton.mp he
      trivial

/-- Anna, an operator with a callsign, writes to an APRS radio that acknowledges nothing. -/
def unanswered : List ServerRuns.Event :=
  Small.joins 1 "anna" false ++
    [.line 1 "OPER root secret", .line 1 "CALLSIGN SM0AAA", Small.aprs Small.station "hi"] ++
    List.replicate 9 (.line 1 "PRIVMSG SM0ABC|7 :hi")

/-- One message is in flight and eight wait. The next passes the screen and is dropped; Anna is told
nothing. -/
theorem dropped_behind_her_back : Small.Feasible unanswered ∧
    Message.parse "PRIVMSG SM0ABC|7 :hi" = some ⟨none, "PRIVMSG", ["SM0ABC|7", "hi"]⟩ ∧
    given (Small.run unanswered).outlet ((Small.run unanswered).cmdPrivmsg (Small.second 16) (.ip 1)
      ⟨none, "PRIVMSG", ["SM0ABC|7", "hi"]⟩ false).outlet 1 = [] ∧
    ¬ NeverSilent (Small.run unanswered) (Small.second 16) 1
      ⟨none, "PRIVMSG", ["SM0ABC|7", "hi"]⟩ := by
  have htold : given (Small.run unanswered).outlet ((Small.run unanswered).cmdPrivmsg (Small.second 16)
      (.ip 1) ⟨none, "PRIVMSG", ["SM0ABC|7", "hi"]⟩ false).outlet 1 = [] := by decide +kernel
  refine ⟨by decide +kernel, by decide +kernel, htold, fun h => ?_⟩
  have haccepted := h fun line hline => by
    rw [htold] at hline
    exact absurd hline List.not_mem_nil
  revert haccepted
  decide +kernel

end SilentRefusals
