import Rfircd.CommandSteps
import Rfircd.KickMarks

/-! What frames from the air do, as steps of the server.
What a station may say and join is for the licence; here is where each is asked for. -/
namespace ServerSteps

open Basics Ax25 Airc AircSession KeyedTable MessageText HostKey IrcMessage IrcState AprsCodec
open AirTrace AirPolicy AirScreen RadioGateway Accounts ServerOutput ServerCore Bridge
open ServerOutput.Outlet ServerCore.Server

variable {L : Licence} {s t : Server}

/-! ### Texts of stations -/

theorem sanitizeFrom_printable (n : ℕ) (out t : Text) (h : ∀ c ∈ out, isControl c = false) :
    ∀ c ∈ sanitizeFrom n out t, isControl c = false := by
  induction n generalizing out t with
  | zero =>
    intro c hc
    exact h c (List.mem_reverse.mp hc)
  | succ n ih =>
    cases t with
    | nil =>
      intro c hc
      exact h c (List.mem_reverse.mp hc)
    | cons c rest =>
      have hspace : ∀ d ∈ ' ' :: out, isControl d = false := by
        intro d hd
        rcases List.mem_cons.mp hd with rfl | hd
        · decide
        · exact h d hd
      unfold sanitizeFrom
      split_ifs with hcolour hformat hblank hrepeat hcontrol
      · exact ih _ _ h
      · exact ih _ _ h
      · exact ih _ _ h
      · exact ih _ _ hspace
      · exact ih _ _ h
      · refine ih _ _ fun d hd => ?_
        rcases List.mem_cons.mp hd with rfl | hd
        · simpa using hcontrol
        · exact h d hd

theorem mem_trim {c : Char} {t : Text} (h : c ∈ trim t) : c ∈ t := by
  have h' := List.mem_reverse.mp h
  have h'' := List.mem_reverse.mp ((List.dropWhile_sublist _).mem h')
  exact (List.dropWhile_sublist _).mem h''

theorem sanitize_printable (t : Text) : ∀ c ∈ sanitize t, isControl c = false := by
  intro c hc
  exact sanitizeFrom_printable _ _ _ (by simp) c (mem_trim hc)

theorem parseCtcp_printable {t : Text} (h : ∀ c ∈ t, isControl c = false) : parseCtcp t = none := by
  cases t with
  | nil => rfl
  | cons c rest =>
    have hc := h c List.mem_cons_self
    have hmark : c ≠ '\x01' := by
      rintro rfl
      revert hc
      decide
    unfold parseCtcp
    split
    · rename_i heq
      exact absurd (List.cons.inj heq).1 hmark
    · rfl

theorem screenStation_printable {p : Policy} {text : Text} {x : Screened}
    (h : screenStation p text = some x) : ∀ c ∈ x.text, isControl c = false := by
  have hclean := sanitize_printable text
  unfold screenStation Policy.screenOutbound at h
  dsimp only at h
  split_ifs at h
  · obtain rfl := Option.some.inj h
    intro c hc
    rcases List.mem_append.mp hc with hc | hc
    · exact hclean c (List.mem_of_mem_take hc)
    · obtain rfl := List.mem_singleton.mp hc
      decide
  · obtain rfl := Option.some.inj h
    exact hclean

/-- A station's line goes out as it is. -/
theorem station_licensed {A : Aired → Prop} {origin : Origin} {text : Text}
    (hctcp : parseCtcp text = none) (h : A ⟨origin, text⟩) (nick mask target : Text)
    (notice truncated : Bool) :
    (Delivery.privmsg nick mask target text notice truncated origin).Licensed A := by
  intro presence e he r hr
  cases notice with
  | true => cases he
  | false =>
    simp only [Delivery.rfEmission, hctcp] at he
    obtain rfl := Option.some.inj he
    obtain rfl := Option.some.inj hr
    exact h

/-! ### Stations as users -/

/-- The station is kept out of channels that it was kicked from. -/
theorem wasKickedFrom_iff {src : Callsign} {display : Text} : s.wasKickedFrom src display = true ↔
    KickMarks.Marked s.outlet.sessions src (String.ofList display) := by
  rw [wasKickedFrom, Option.any_eq_true]
  exact exists_congr fun p => and_congr Iff.rfl (decide_eq_true_iff)

/-- What a frame does before its message is looked at changes no channel, no user but the station,
and no mark of a kick. -/
structure Near (src : Callsign) (s t : Server) : Prop where
  channels : t.state.channels = s.state.channels
  config : t.cfg = s.cfg ∧ t.outlet.policy.config = s.outlet.policy.config
  users : ∀ j, j ≠ .rf src → t.user j = s.user j
  station : t.user (.rf src) = s.user (.rf src) ∨
    s.user (.rf src) = none ∧ ∃ u, t.user (.rf src) = some u ∧ u.callsign = some src
  marks : ∀ channel, KickMarks.Marked s.outlet.sessions src channel →
    KickMarks.Marked t.outlet.sessions src channel

theorem Near.of_outlet {src : Callsign} {o : Outlet} (hcfg : o.cfg = s.outlet.cfg)
    (hpolicy : o.policy.config = s.outlet.policy.config)
    (hmarks : ∀ channel, KickMarks.Marked s.outlet.sessions src channel →
      KickMarks.Marked o.sessions src channel) : Near src s { s with outlet := o } :=
  ⟨rfl, ⟨hcfg, hpolicy⟩, fun _ _ => rfl, .inl rfl, hmarks⟩

theorem Near.wasKickedFrom {src : Callsign} (h : Near src s t) {display : Text}
    (hkicked : s.wasKickedFrom src display = true) : t.wasKickedFrom src display = true :=
  wasKickedFrom_iff.mpr (h.marks _ (wasKickedFrom_iff.mp hkicked))

theorem Near.trans {src : Callsign} {s t r : Server} (h : Near src s t) (h' : Near src t r) :
    Near src s r where
  channels := h'.channels.trans h.channels
  config := ⟨h'.config.1.trans h.config.1, h'.config.2.trans h.config.2⟩
  users j hj := (h'.users j hj).trans (h.users j hj)
  station := by
    rcases h.station with hsame | ⟨hnone, u, hu, hcall⟩
    · rcases h'.station with hsame' | ⟨hnone', hnew⟩
      · exact .inl (hsame'.trans hsame)
      · exact .inr ⟨hsame.symm.trans hnone', hnew⟩
    · rcases h'.station with hsame' | ⟨hnone', -⟩
      · exact .inr ⟨hnone, u, hsame'.trans hu, hcall⟩
      · exact absurd (hu.symm.trans hnone') (by simp)
  marks channel hmark := h'.marks channel (h.marks channel hmark)

/-- A step that only the records of the radio and its limits see. -/
structure Aside (src : Callsign) (L : Licence) (s t : Server) : Prop where
  steps : Steps L s t
  near : Near src s t
  state : t.state = s.state
  banned : t.outlet.sessions.radioKicked = s.outlet.sessions.radioKicked
  there : (s.outlet.peer src).isSome = true → (t.outlet.peer src).isSome = true

theorem Aside.refl {src : Callsign} (s : Server) : Aside src L s s :=
  ⟨.refl, Near.of_outlet rfl rfl fun _ h => h, rfl, rfl, id⟩

theorem Aside.trans {src : Callsign} {s t r : Server} (h : Aside src L s t) (h' : Aside src L t r) :
    Aside src L s r :=
  ⟨h.steps.trans h'.steps, h.near.trans h'.near, h'.state.trans h.state, h'.banned.trans h.banned,
    h'.there ∘ h.there⟩

theorem Aside.isBanned {src : Callsign} (h : Aside src L s t) (call : Callsign) :
    t.outlet.sessions.isBanned call = s.outlet.sessions.isBanned call := by
  simp only [Sessions.isBanned, h.banned]

/-- An operation that lifts no ban and sets none. -/
theorem perform_aside (src : Callsign) (s : Server) {op : RadioOp} (h : L.MayPerform op)
    (hop : RadioSessions.Attends op) : Aside src L s (s.perform op) := by
  have hkicked := RadioSessions.perform_radioKicked s.outlet.gateway
    (show ∀ call, op ≠ .ban call by rintro _ rfl; exact hop)
    (show ∀ call, op ≠ .liftBan call by rintro _ rfl; exact hop)
  have hmarks := fun channel => KickMarks.attends_marked src channel hop
    (g := s.outlet.gateway)
  exact ⟨perform_steps s op h, Near.of_outlet rfl rfl hmarks, rfl, hkicked,
    RadioSessions.perform_present hop⟩

theorem withPolicy_steps (s : Server) {p : Policy} (h : p.config = s.outlet.policy.config)
    (hration : p.firstContact = s.outlet.policy.firstContact ∨
      L.rations s.outlet.policy.firstContact p.firstContact) : Steps L s (s.withPolicy p) := by
  rcases hration with hsame | hration
  · exact outlet_steps (core_steps (by simp [core, h, hsame]))
  · let limited : Server :=
      s.withPolicy { p with firstContact := s.outlet.policy.firstContact }
    have hlimited : Steps L s limited := outlet_steps (core_steps (by simp [core, h]))
    exact hlimited.tail (.outlet (.ration hration))

/-- A rate limit counts. -/
theorem withPolicy_aside (src : Callsign) (s : Server) {p : Policy}
    (h : p.config = s.outlet.policy.config)
    (hration : p.firstContact = s.outlet.policy.firstContact ∨
      L.rations s.outlet.policy.firstContact p.firstContact) : Aside src L s (s.withPolicy p) :=
  ⟨withPolicy_steps s h hration, Near.of_outlet rfl h fun _ h => h, rfl, rfl, id⟩

theorem rfStationRateOk_aside {m : Moment} {src : Callsign} {ok : Bool}
    (h : s.rfStationRateOk m src = (ok, t)) : Aside src L s t := by
  obtain rfl := congrArg Prod.snd h
  exact withPolicy_aside src s rfl (.inl rfl)

/-- The licence to count a first contact. -/
def MayRation (L : Licence) (s : Server) (m : Moment) : Prop :=
  L.rations s.outlet.policy.firstContact (s.outlet.policy.firstContactOk m.now).2.firstContact

theorem firstContactOk_aside {m : Moment} {src : Callsign} {ok : Bool} (hration : MayRation L s m)
    (h : s.firstContactOk m src = (ok, t)) : Aside src L s t := by
  obtain rfl := congrArg Prod.snd h
  unfold firstContactOk
  split_ifs
  · exact .refl s
  · exact withPolicy_aside src s rfl (.inr hration)

/-- The callsign has a digit, so no nick of the station is the placeholder. -/
theorem stationNicks_ne_star {call : Callsign} (h : Callsign.looksLikeAmateurCall call = true) :
    ∀ nick ∈ stationNicks call, nick ≠ ['*'] := by
  have hdigit : ∃ c ∈ call.base.toList, isAsciiDigit c = true := by
    unfold Callsign.looksLikeAmateurCall at h
    simp only [Bool.and_eq_true] at h
    exact List.any_eq_true.mp h.1.2
  obtain ⟨c, hc, hd⟩ := hdigit
  have hnick : c ∈ Callsign.toNick call := by
    unfold Callsign.toNick
    split_ifs
    · exact hc
    · exact List.mem_append_left _ hc
  have hstar : c ≠ '*' := by
    rintro rfl
    revert hd
    decide
  intro nick hmem heq
  have hin : c ∈ nick := by
    rcases List.mem_cons.mp hmem with rfl | hmem
    · exact hnick
    · obtain ⟨i, -, rfl⟩ := List.mem_map.mp hmem
      exact List.mem_append_left _ hnick
  rw [heq] at hin
  exact hstar (List.mem_singleton.mp hin)

/-- A new user claims one of the nicks, or none is free. -/
theorem claimStationNick_steps {uid : UserId} {u : User} {nicks : List Text}
    (hnicks : ∀ nick ∈ nicks, nick ≠ ['*']) (hu : s.user uid = some u)
    (hi : u.nickIdentified = false) {st : State}
    (h : claimStationNick s.state uid nicks = some st) :
    Steps L s { s with state := st } ∧ st.channels = s.state.channels ∧
      (∀ j, j ≠ uid → st.user j = s.state.user j) ∧ ∃ nick, st.user uid = some { u with nick := nick } := by
  induction nicks with
  | nil => cases h
  | cons nick nicks ih =>
    unfold claimStationNick at h
    split at h
    · rename_i st' hset
      obtain rfl := Option.some.inj h
      obtain ⟨husers, -, hchannels, -⟩ := State.setNick_true hu hset
      have hstep : Step L s { s with state := st' } :=
        .rename hu hi (hnicks nick List.mem_cons_self) hset
      exact ⟨.single hstep, hchannels, fun j hj => (husers j).trans (if_neg hj),
        nick, (husers uid).trans (if_pos rfl)⟩
    · exact ih (fun n hn => hnicks n (List.mem_cons_of_mem _ hn)) h

/-- Whoever is in no channel leaves none. -/
theorem channels_removeUser {st : State} {uid : UserId} {u : User} (hu : st.user uid = some u)
    (hnone : u.channels = []) : (st.removeUser uid).channels = st.channels := by
  have hu' : st.users.get uid = some u := hu
  simp only [State.removeUser, hu', hnone]
  rfl

/-- The station's record as a user, if it is to have one. -/
theorem ensureRfUser_steps (s : Server) (m : Moment) {call : Callsign}
    (hcall : Callsign.looksLikeAmateurCall call = true) (hstation : L.station call)
    (hthere : (s.outlet.peer call).isSome = true) :
    Steps L s (s.ensureRfUser m call).2 ∧ Near call s (s.ensureRfUser m call).2 := by
  unfold ensureRfUser
  extract_lets uid st
  split_ifs with hknown
  · exact ⟨.refl, Near.of_outlet rfl rfl fun _ h => h⟩
  · have hnone : s.user uid = none := Option.not_isSome_iff_eq_none.mp hknown
    have hinsert : Steps L s { s with state := st } :=
      .single (.station (u := s.stationUser m call) hnone rfl ⟨rfl, rfl, rfl, rfl, rfl, rfl⟩
        hstation hthere)
    have huser : Server.user { s with state := st } uid = some (s.stationUser m call) :=
      (State.user_insertUser ..).trans (if_pos rfl)
    have hothers : ∀ j, j ≠ uid → st.user j = s.state.user j := fun j hj =>
      (State.user_insertUser ..).trans (if_neg hj)
    split
    · have hgone : (st.removeUser uid).user uid = none :=
        (State.user_removeUser ..).trans (if_pos rfl)
      refine ⟨hinsert.tail .remove, ?_, ⟨rfl, rfl⟩, fun j hj => ?_, .inl ?_, fun _ h => h⟩
      · exact channels_removeUser (u := s.stationUser m call) ((State.user_insertUser ..).trans (if_pos rfl)) rfl
      · exact ((State.user_removeUser ..).trans (if_neg hj)).trans (hothers j hj)
      · exact hgone.trans hnone.symm
    · rename_i st' hclaim
      obtain ⟨hsteps, hchannels, husers, nick, hnew⟩ := claimStationNick_steps (L := L)
        (s := { s with state := st }) (stationNicks_ne_star hcall) huser rfl hclaim
      refine ⟨((hinsert.trans hsteps).trans (perform_steps _ _ (by trivial))).trans (perform_steps _ _ (by trivial)),
        hchannels, ⟨rfl, rfl⟩, fun j hj => (husers j hj).trans (hothers j hj), .inr ⟨hnone, ?_⟩,
        fun channel hmark => ?_⟩
      · exact ⟨_, hnew, rfl⟩
      · exact KickMarks.note_marked (fun _ => by simp) (KickMarks.touch_marked m.now hmark)

theorem flushOne_marked {o : Outlet} (m : Moment) {call : Callsign} (mail : HeldMail.StoredMessage)
    {channel : String} (h : KickMarks.Marked o.sessions call channel) :
    KickMarks.Marked (o.flushOne m call mail).2.sessions call channel := by
  have haprs : KickMarks.Marked (o.aprsChat m call (mailBody mail)).2.sessions call channel := by
    obtain ⟨added, hqueued⟩ := o.gateway.enqueueAprsChat_queuing call (mailBody mail)
      (chatClass false) m.now
    exact KickMarks.drew_marked h hqueued.sessions
  have hsent : ∀ a, KickMarks.Marked (o.unicast m call a).2.sessions call channel :=
    fun a => KickMarks.unicast_marked a m.now h
  simp only [flushOne]
  split_ifs
  · exact h
  · exact haprs
  · exact haprs
  · exact h
  · exact h
  · exact hsent _
  · exact hsent _

theorem flushMailbox_marked {o : Outlet} (m : Moment) {call : Callsign} {channel : String}
    (h : KickMarks.Marked o.sessions call channel) :
    KickMarks.Marked (o.flushMailbox m call).sessions call channel := by
  have hbatch : ∀ (n : ℕ) (o : Outlet), KickMarks.Marked o.sessions call channel →
      KickMarks.Marked (o.flushBatch m call n).sessions call channel := by
    intro n
    induction n with
    | zero => exact fun o h => h
    | succ n ih =>
      intro o h
      unfold flushBatch
      split
      · exact h
      · rename_i mail _
        have hone := flushOne_marked m mail h
        split <;> rename_i heq <;> rw [heq] at hone
        · exact ih _ hone
        · exact hone
  unfold flushMailbox
  split_ifs
  · exact h
  · exact h
  · exact hbatch _ o h

/-- A station that becomes a user is greeted with its mail. -/
theorem greet_steps (s : Server) (m : Moment) {call : Callsign}
    (hcall : Callsign.looksLikeAmateurCall call = true) (hstation : L.station call)
    (hthere : (s.outlet.peer call).isSome = true) :
    Steps L s (s.greet m call) ∧ Near call s (s.greet m call) := by
  have huser := ensureRfUser_steps (L := L) s m hcall hstation hthere
  unfold greet
  rcases hnew : s.ensureRfUser m call with ⟨fresh, t⟩
  rw [hnew] at huser
  cases fresh with
  | true =>
    have hmail : OutletSteps L.toOutletLicence t.outlet (t.outlet.flushMailbox m call) :=
      flushMailbox_steps t.outlet m hstation
    obtain ⟨hcfg, hpolicy⟩ := Outlet.steps_config hmail
    exact ⟨huser.1.trans (outlet_steps hmail), huser.2.trans (Near.of_outlet hcfg hpolicy fun _ h => flushMailbox_marked m h)⟩
  | false => exact huser

/-! ### Channels -/

/-- The licence for a station to become a member, and for the reply that tells it the topic. -/
structure MayJoin (L : Licence) (s : Server) (call : Callsign) (display : Text) (reply : Bool) :
    Prop where
  enters : L.enters call display
  joined : ∀ chan, s.state.channel display = some chan → chan.rf = true →
    chan.isMember (.rf call) = false → L.joined (joinedRecord s (.rf call) display none)
  topic : reply = true → ∀ chan, s.state.channel display = some chan → chan.rf = true →
    chan.isMember (.rf call) = false → chan.topic.isSome = true →
    L.aired ⟨chan.topicOrigin, (chan.topic.getD []).take 64⟩

theorem unicast_steps {o : Outlet} {m : Moment} {call : Callsign} {a : Addressed} {accepted : Bool}
    {o' : Outlet} (h : o.unicast m call a = (accepted, o')) : OutletSteps L.toOutletLicence o o' := by
  obtain rfl := congrArg Prod.snd h
  exact Outlet.perform_steps o _ (by trivial)

theorem joinReply_steps (s : Server) (m : Moment) (call : Callsign) (display : Text)
    (h : ∀ chan, s.state.channel display = some chan → chan.topic.isSome = true →
      L.aired ⟨chan.topicOrigin, (chan.topic.getD []).take 64⟩) :
    Steps L s (s.joinReply m call display) := by
  unfold joinReply
  split
  · exact .refl
  · rename_i chan hchan
    extract_lets topic
    refine send_steps ?_
    rcases hsent : s.outlet.unicast m call (.joined display (natText chan.members.size ++ " here")
      topic) with ⟨accepted, o⟩
    refine (unicast_steps hsent).trans (recordIf_steps o fun hacc => ?_)
    exact h chan hchan (Bool.and_eq_true .. |>.mp hacc).2

theorem rfError_steps (s : Server) (m : Moment) (call : Callsign) (code text : Text) :
    Steps L s (s.rfError m call code text) :=
  perform_steps _ _ (by trivial)

theorem joinReply_state (s : Server) (m : Moment) (call : Callsign) (display : Text) :
    (s.joinReply m call display).state = s.state := by
  unfold joinReply
  split <;> rfl

theorem announceStation_state (s : Server) (m : Moment) (call : Callsign) (display : Text)
    (flags : MemberFlags) (reply : Bool) :
    (s.announceStation m call display flags reply).state = s.state := by
  unfold announceStation
  dsimp only
  split_ifs <;> first | rfl | exact joinReply_state ..

theorem announceStation_steps (s : Server) (m : Moment) (call : Callsign) (display : Text)
    (flags : MemberFlags) {reply : Bool} (henters : L.enters call display)
    (h : reply = true → ∀ chan, s.state.channel display = some chan → chan.topic.isSome = true →
      L.aired ⟨chan.topicOrigin, (chan.topic.getD []).take 64⟩) :
    Steps L s (s.announceStation m call display flags reply) := by
  unfold announceStation
  extract_lets uid noted
  rcases noted.signature uid with ⟨nick, mask⟩
  dsimp -zeta only
  extract_lets told voiced heard
  have hnoted : Steps L s noted := perform_steps s _ henters
  have htold : Steps L noted told :=
    send_steps (broadcastChannelEx_steps _ _ _ _ _ fun h => absurd h (by simp))
  have hvoiced : Steps L told voiced := by
    simp only [voiced]
    split_ifs
    · exact announceMode_steps ..
    · exact .refl
  have hheard : Steps L voiced heard ∧ heard.state = s.state := by
    have hstate : voiced.state = s.state := by
      simp only [voiced]
      split_ifs <;> rfl
    simp only [heard]
    split_ifs
    · exact ⟨send_core_steps (noticeRfAudience_core ..), hstate⟩
    · exact ⟨.refl, hstate⟩
  have hall := ((hnoted.trans htold).trans hvoiced).trans hheard.1
  split_ifs with hreply
  · refine hall.trans (joinReply_steps _ m call display ?_)
    rw [hheard.2]
    exact h hreply
  · exact hall

/-- Only a user who is there, and no member yet, becomes a member. -/
theorem join_new {uid : UserId} {channel : Text} {given : Option Text} {flags : MemberFlags}
    (hjoin : s.join uid channel given = some (flags, t)) {chan : Channel}
    (hchan : s.state.channel channel = some chan) : chan.isMember uid = false := by
  obtain ⟨⟨f, st⟩, hst, -⟩ := Option.map_eq_some_iff.mp hjoin
  have hchan' : s.state.channels.get (lower channel) = some chan := hchan
  unfold State.join at hst
  rw [hchan'] at hst
  split at hst
  · rename_i u c _ hc
    obtain rfl := Option.some.inj hc
    split_ifs at hst with hmember
    simpa using hmember
  · cases hst

theorem join_absent {uid : UserId} (h : s.user uid = none) (channel : Text) (given : Option Text) :
    s.join uid channel given = none := by
  have h' : s.state.users.get uid = none := h
  simp [Server.join, State.join, h']

/-- Where a station that asks for a channel ends up. -/
theorem rfJoin_steps (m : Moment) {call : Callsign} {channel : Text} {reply : Bool}
    (h : MayJoin L s call (s.channelDisplayName channel) reply) :
    Steps L s (s.rfJoin m call channel reply) := by
  unfold rfJoin
  extract_lets display
  split_ifs
  · exact rfError_steps ..
  · split
    · exact rfError_steps ..
    · rename_i chan hchan
      split_ifs with hrf
      · exact rfError_steps ..
      · split
        · exact .refl
        · rename_i flags joined hjoin
          have hrf : chan.rf = true := by simpa using hrf
          have hnew : chan.isMember (.rf call) = false := join_new hjoin hchan
          have hjoined : Steps L s joined := .single (.join hjoin (h.joined chan hchan hrf hnew))
          refine hjoined.trans (announceStation_steps joined m call display flags h.enters ?_)
          intro hreply c hc htopic
          obtain ⟨⟨f, st⟩, hst, heq⟩ := Option.map_eq_some_iff.mp hjoin
          obtain ⟨-, rfl⟩ := Prod.mk.inj heq
          obtain ⟨d, hd, heq⟩ := join_get hst hc
          obtain rfl : d = chan := Option.some.inj (hd.symm.trans hchan)
          have hsame : c.topic = d.topic ∧ c.topicOrigin = d.topicOrigin := by
            rw [heq]
            exact ⟨rfl, rfl⟩
          rw [hsame.1, hsame.2]
          exact h.topic hreply d hd hrf hnew (hsame.1 ▸ htopic)

/-- Nobody comes by joining. -/
theorem rfJoin_present (m : Moment) {call : Callsign} (channel : Text) (reply : Bool) :
    ((s.rfJoin m call channel reply).user (.rf call)).isSome = (s.user (.rf call)).isSome := by
  unfold rfJoin
  extract_lets display
  split_ifs
  · rfl
  · split
    · rfl
    · split_ifs
      · rfl
      · split
        · rfl
        · rename_i flags joined hjoin
          have hthere : (s.user (.rf call)).isSome = true := by
            by_contra hnone
            rw [join_absent (by simpa using hnone)] at hjoin
            cases hjoin
          rw [Server.user, announceStation_state, hthere]
          obtain ⟨⟨f, st⟩, hst, heq⟩ := Option.map_eq_some_iff.mp hjoin
          obtain ⟨-, rfl⟩ := Prod.mk.inj heq
          unfold State.join at hst
          split at hst
          · split_ifs at hst
            obtain ⟨-, rfl⟩ := Prod.mk.inj (Option.some.inj hst)
            simp [State.user]
          · cases hst

theorem rfPart_steps (s : Server) (m : Moment) (uid : UserId) (channel reason : Text) :
    Steps L s (s.rfPart m uid channel reason) := by
  unfold rfPart
  split
  · split
    · exact .refl
    · extract_lets d told parted
      have htold : Steps L s told :=
        send_steps (broadcastChannelEx_steps _ _ _ _ _ fun h => absurd h (by simp))
      have hparted : Steps L s parted := htold.tail .part
      split_ifs
      · exact hparted
      · exact hparted.trans (send_core_steps (noticeRfAudience_core ..))
  · exact .refl

/-! ### Messages from AIRC stations -/

/-- The record that a message to a channel leaves. -/
def spoken (s : Server) (uid : UserId) (channel : Text) : Relayed :=
  ⟨uid, channel, (s.state.channel channel).any Channel.moderated,
    ((s.state.channel channel).bind fun c => c.members.get uid).getD .default⟩

/-- What the licence lets a station say again, screened. -/
def Repeats (L : Licence) (s : Server) : Prop :=
  ∀ src text x, screenStation s.outlet.policy text = some x →
    L.aired ⟨.station src text, x.text⟩

theorem screenStation_config {p q : Policy} (h : p.config = q.config) (text : Text) :
    screenStation p text = screenStation q text := by
  simp only [screenStation, Policy.screenOutbound, h]

theorem Repeats.near {src : Callsign} (h : Repeats L s) (hnear : Near src s t) : Repeats L t := by
  intro call text x hx
  rw [screenStation_config hnear.config.2] at hx
  exact h call text x hx

theorem said_licensed {p : Policy} {src : Callsign} {text : Text}
    (h : ∀ x, screenStation p text = some x → L.aired ⟨.station src text, x.text⟩)
    (hscreen : (screenStation p text).isSome = true) (nick mask target : Text) (notice : Bool) :
    (Delivery.privmsg nick mask target ((screenStation p text).getD ⟨text, false⟩).text notice
      ((screenStation p text).getD ⟨text, false⟩).truncated (.station src text)).Licensed
      L.aired := by
  obtain ⟨x, hx⟩ := Option.isSome_iff_exists.mp hscreen
  rw [hx]
  exact station_licensed (parseCtcp_printable (screenStation_printable hx)) (h x hx) _ _ _ _ _

theorem rfSpeak_steps (m : Moment) {src : Callsign} (user : User) {display : Text} (text : Text)
    (notice : Bool) (hrepeat : Repeats L s) (hspoken : L.relayed (spoken s (.rf src) display)) :
    Steps L s (s.rfSpeak m src user display text notice) := by
  unfold rfSpeak
  extract_lets screened said
  refine relay_steps (fun hrf => ?_) hspoken
  simp only [said, screened] at hrf ⊢
  split_ifs at hrf ⊢
  · exact said_licensed (hrepeat src text) hrf _ _ _ _
  · cases hrf

/-- The licence for a line of a station to a channel: a member speaks, and a guest comes in. -/
structure MayChat (L : Licence) (s : Server) (src : Callsign) (display : Text) (reply : Bool) : Prop where
  member : ∀ chan, s.state.channel display = some chan → chan.rf = true →
    chan.isMember (.rf src) = true → L.relayed (spoken s (.rf src) display)
  guest : ∀ chan, s.state.channel display = some chan → chan.rf = true →
    chan.isMember (.rf src) = false → s.wasKickedFrom src display = false →
    MayJoin L s src (s.channelDisplayName display) reply ∧
      ((s.user (.rf src)).isSome = true →
        ∀ m, L.relayed (spoken (s.rfJoin m src display reply) (.rf src) display))

theorem rfJoin_config (s : Server) (m : Moment) (src : Callsign) (channel : Text) (reply : Bool) :
    (s.rfJoin m src channel reply).cfg = s.cfg ∧
      (s.rfJoin m src channel reply).outlet.policy.config = s.outlet.policy.config := by
  let everything : Licence :=
    ⟨.free, fun _ => True, fun _ => True, fun _ _ => True, fun _ => True, fun _ => True⟩
  have hsteps : Steps everything s (s.rfJoin m src channel reply) :=
    rfJoin_steps m ⟨trivial, fun _ _ _ _ => trivial, fun _ _ _ _ _ _ => trivial⟩
  exact steps_config hsteps

theorem rfChannelMessage_steps (m : Moment) {src : Callsign} (user : User) {target : Text}
    (text : Text) (notice : Bool) (hrepeat : Repeats L s)
    (huser : (s.user (.rf src)).isSome = true)
    (hchat : MayChat L s src (s.channelDisplayName target) true) :
    Steps L s (s.rfChannelMessage m src user target text notice) := by
  unfold rfChannelMessage
  extract_lets display
  split
  · exact rfError_steps ..
  · rename_i chan hchan
    split_ifs with hrf hmember
    · exact rfError_steps ..
    · have hrf : chan.rf = true := by simpa using hrf
      exact rfSpeak_steps m user text notice hrepeat (hchat.member chan hchan hrf hmember)
    · exact rfError_steps ..
    · rename_i hkicked
      obtain ⟨hjoin, hspoken⟩ := hchat.guest chan hchan (by simpa using hrf) (by simpa using hmember)
        (by simpa using hkicked)
      refine (rfJoin_steps m hjoin).trans (rfSpeak_steps m user text notice ?_ (hspoken huser m))
      intro call line x hx
      rw [screenStation_config (rfJoin_config ..).2] at hx
      exact hrepeat call line x hx

theorem rfPrivateMessage_steps (s : Server) (m : Moment) (src : Callsign) (user : User)
    (target text : Text) (notice : Bool) (hrepeat : Repeats L s) :
    Steps L s (s.rfPrivateMessage m src user target text notice) := by
  unfold rfPrivateMessage
  split
  · exact rfError_steps ..
  · rename_i targetId _
    extract_lets screened said
    split_ifs with hdenied
    · exact .refl
    · refine send_steps (deliver_steps _ _ _ fun hrf => said_licensed (hrepeat src text) ?_ _ _ _ _)
      simpa [screened, hrf, Option.isSome_iff_ne_none] using hdenied

/-- The licence for what a message of an AIRC station asks for. -/
structure AircLicence (L : Licence) (s : Server) (src : Callsign) (msg : AircFrame) : Prop where
  repeats : Repeats L s
  enter : msg.kind = .hello ∨ msg.kind = .join → L.station src
  speak : msg.kind = .msg ∨ msg.kind = .notice → s.outlet.sessions.isBanned src = false →
    L.station src
  join : msg.kind = .join → ∀ channel, (fieldTexts msg).head? = some channel →
    ∀ t, Near src s t → MayJoin L t src (t.channelDisplayName channel) true
  chat : msg.kind = .msg ∨ msg.kind = .notice → ∀ target text, fieldTexts msg = [target, text] →
    isChannelName target = true →
    ∀ t, Near src s t → MayChat L t src (t.channelDisplayName target) true

theorem rfMessage_steps (s : Server) (m : Moment) {src : Callsign} {target : Text} (text : Text)
    (notice : Bool) (hcall : Callsign.looksLikeAmateurCall src = true)
    (hthere : (s.outlet.peer src).isSome = true) (hrepeat : Repeats L s)
    (hstation : s.outlet.sessions.isBanned src = false → L.station src)
    (hchat : isChannelName target = true →
      ∀ t, Near src s t → MayChat L t src (t.channelDisplayName target) true) :
    Steps L s (s.rfMessage m src target text notice) := by
  unfold rfMessage
  rcases hrate : s.rfStationRateOk m src with ⟨ok, t⟩
  have haside : Aside src L s t := rfStationRateOk_aside hrate
  cases ok with
  | false => exact haside.steps.trans (perform_steps _ _ (by trivial))
  | true =>
    dsimp only
    split
    · exact haside.steps
    · split
      · exact haside.steps.trans (rfError_steps ..)
      · rename_i hbanned
        have hstation := hstation (by rwa [← haside.isBanned, ← Bool.not_eq_true])
        obtain ⟨hgreet, hnear⟩ := greet_steps t m hcall hstation (haside.there hthere)
        have hall := haside.steps.trans hgreet
        have hnear := haside.near.trans hnear
        split
        · exact hall
        · rename_i huser
          split
          · rename_i hname
            exact hall.trans (rfChannelMessage_steps m _ _ notice (hrepeat.near hnear)
              (by rw [huser]; rfl) (hchat hname _ hnear))
          · exact hall.trans (rfPrivateMessage_steps _ m src _ _ _ notice (hrepeat.near hnear))

theorem rfHello_steps (s : Server) (m : Moment) {src : Callsign}
    (hcall : Callsign.looksLikeAmateurCall src = true) (hstation : L.station src)
    (hthere : (s.outlet.peer src).isSome = true) :
    Steps L s (s.rfHello m src) := by
  unfold rfHello
  extract_lets created motd
  have hcreated : Steps L s created :=
    (perform_steps s (.liftBan src) hstation).trans
      (ensureRfUser_steps (s.perform (.liftBan src)) m hcall hstation hthere).1
  exact (hcreated.trans (perform_steps _ _ (by trivial))).trans (send_steps (flushMailbox_steps _ m hstation))

theorem rfPartFrame_steps (s : Server) (m : Moment) (src : Callsign) (channel reason : Text) :
    Steps L s (s.rfPartFrame m src channel reason) :=
  (rfPart_steps ..).trans (perform_steps _ _ (by trivial))

theorem rfQuit_steps (s : Server) (m : Moment) (src : Callsign) (reason : Option Text) :
    Steps L s (s.rfQuit m src reason) :=
  quitUser_steps ..

theorem rfControl_steps (s : Server) (m : Moment) (src : Callsign) {f : Server → Server}
    (hf : ∀ t, Aside src L s t → Steps L t (f t)) : Steps L s (s.rfControl m src f) := by
  unfold rfControl
  rcases hrate : s.rfStationRateOk m src with ⟨ok, t⟩
  have haside : Aside src L s t := rfStationRateOk_aside hrate
  cases ok with
  | false => exact haside.steps
  | true => exact haside.steps.trans (hf t haside)

theorem handleAircMessage_steps (s : Server) (m : Moment) {src : Callsign} {msg : AircFrame}
    (hcall : Callsign.looksLikeAmateurCall src = true)
    (hthere : (s.outlet.peer src).isSome = true) (h : AircLicence L s src msg) :
    Steps L s (s.handleAircMessage m src msg) := by
  unfold handleAircMessage
  dsimp only
  split
  · rename_i hkind
    exact rfControl_steps s m src fun t ht =>
      rfHello_steps t m hcall (h.enter (.inl hkind)) (ht.there hthere)
  · rename_i hkind
    refine rfControl_steps s m src fun t ht => ?_
    have hstation := h.enter (.inr hkind)
    have hlifted : Steps L t (t.perform (.liftBan src)) := perform_steps t _ hstation
    split
    · exact hlifted
    · rename_i channel hchannel
      obtain ⟨hgreet, hnear⟩ :=
        greet_steps (t.perform (.liftBan src)) m hcall hstation (ht.there hthere)
      have hlift : Near src t (t.perform (.liftBan src)) := Near.of_outlet rfl rfl fun _ h => h
      have hnear := (ht.near.trans hlift).trans hnear
      exact (hlifted.trans hgreet).trans (rfJoin_steps m (h.join hkind channel hchannel _ hnear))
  · refine rfControl_steps s m src fun t _ => ?_
    split
    · exact .refl
    · exact rfPartFrame_steps ..
  · exact rfControl_steps s m src fun t _ => rfQuit_steps ..
  · rename_i hkind
    split
    · rename_i target text hfields
      exact rfMessage_steps s m text _ hcall hthere h.repeats (h.speak (.inl hkind))
        (h.chat (.inl hkind) target text hfields)
    · exact .refl
  · rename_i hkind
    split
    · rename_i target text hfields
      exact rfMessage_steps s m text _ hcall hthere h.repeats (h.speak (.inr hkind))
        (h.chat (.inr hkind) target text hfields)
    · exact .refl
  · refine rfControl_steps s m src fun t _ => ?_
    split
    · exact .refl
    · split
      · exact .refl
      · exact perform_steps _ _ (by trivial)
  · refine rfControl_steps s m src fun t _ => ?_
    split
    · exact .refl
    · exact perform_steps _ _ (by trivial)
  all_goals exact .refl

/-- The source of a frame is somebody to listen to. -/
def Acceptable (s : Server) (src : Callsign) : Prop :=
  Callsign.looksLikeAmateurCall src = true ∧ s.outlet.policy.stationAllowed src = true

instance (s : Server) (src : Callsign) : Decidable (Acceptable s src) :=
  inferInstanceAs (Decidable (_ ∧ _))

theorem acceptable_iff {src : Callsign} : Acceptable s src ↔
    ¬ (!Callsign.looksLikeAmateurCall src || !s.outlet.policy.stationAllowed src) = true := by
  simp [Acceptable]

/-- The licence for an AIRC frame, and for what it completes. -/
structure FrameLicence (L : Licence) (s : Server) (m : Moment) (src : Callsign) (f : AircFrame)
    (forUs broadcast : Bool) : Prop where
  received : L.received src f
  completes : ∀ msg, s.uplink m src f forUs broadcast = some msg → ∀ t, Near src s t →
    t.outlet.sessions.radioKicked = s.outlet.sessions.radioKicked → AircLicence L t src msg

/-- A station whose message is taken in has a record. -/
theorem uplink_present {m : Moment} {src : Callsign} {f : AircFrame} {forUs broadcast : Bool}
    {msg : AircFrame} (h : s.uplink m src f forUs broadcast = some msg) :
    ((s.perform (.receive src f m.now forUs)).outlet.peer src).isSome = true := by
  obtain ⟨hmsg, -⟩ := Option.filter_eq_some_iff.mp h
  change ((AirTrace.perform s.outlet.gateway (.receive src f m.now forUs)).radio.sessions.peer
    src).isSome = true
  simp only [AirTrace.perform, Gateway.onReceive]
  rw [Gateway.transmitAll_sessions]
  obtain ⟨-, heq⟩ | ⟨p, -, heq⟩ := Sessions.onReceive_cases s.outlet.sessions src f m.now forUs
  · rw [heq] at hmsg
    cases hmsg
  · have heq : (s.outlet.gateway.radio.sessions.onReceive src f m.now forUs) = _ := heq
    rw [heq]
    exact congrArg Option.isSome ((Sessions.peer_store ..).trans (if_pos rfl))

/-- The frame is taken in, and so is the message that it completes. -/
def takenIn (s : Server) (m : Moment) (src : Callsign) (f : AircFrame) (forUs broadcast : Bool) :
    Server :=
  (match s.uplink m src f forUs broadcast with
    | none => s.perform (.receive src f m.now forUs)
    | some msg =>
      (s.perform (.receive src f m.now forUs)).handleAircMessage m src msg).perform .drainAcks

theorem handleAircFrame_eq (s : Server) (m : Moment) (src : Callsign) (f : AircFrame)
    (forUs broadcast : Bool) : s.handleAircFrame m src f forUs broadcast =
      if !Callsign.looksLikeAmateurCall src || !s.outlet.policy.stationAllowed src then s
      else if (s.firstContactOk m src).1 then
        takenIn (s.firstContactOk m src).2 m src f forUs broadcast
      else (s.firstContactOk m src).2 := by
  unfold handleAircFrame
  congr 1
  rcases s.firstContactOk m src with ⟨ok, t⟩
  cases ok with
  | false => rfl
  | true =>
    dsimp only
    rw [if_pos rfl]
    unfold takenIn
    cases t.uplink m src f forUs broadcast <;> rfl

theorem takenIn_steps (m : Moment) {src : Callsign} {f : AircFrame} {forUs broadcast : Bool}
    (hcall : Callsign.looksLikeAmateurCall src = true)
    (h : FrameLicence L s m src f forUs broadcast) :
    Steps L s (takenIn s m src f forUs broadcast) := by
  have hreceived : Aside src L s (s.perform (.receive src f m.now forUs)) :=
    perform_aside _ _ h.received (by trivial)
  unfold takenIn
  split
  · exact hreceived.steps.trans (perform_steps _ _ (by trivial))
  · rename_i msg hmsg
    have hhandled := handleAircMessage_steps _ m hcall (uplink_present hmsg)
      (h.completes msg hmsg _ hreceived.near hreceived.banned)
    exact (hreceived.steps.trans hhandled).trans (perform_steps _ _ (by trivial))

theorem handleAircFrame_steps (s : Server) (m : Moment) {src : Callsign} {f : AircFrame}
    {forUs broadcast : Bool} (hration : MayRation L s m)
    (h : Acceptable s src → FrameLicence L s m src f forUs broadcast) :
    Steps L s (s.handleAircFrame m src f forUs broadcast) := by
  have hcounted : Aside src L s (s.firstContactOk m src).2 := firstContactOk_aside hration rfl
  rw [handleAircFrame_eq]
  split_ifs with hsource hcontact
  · exact .refl
  · have h := h (acceptable_iff.mpr hsource)
    have huplink : (s.firstContactOk m src).2.uplink m src f forUs broadcast =
        s.uplink m src f forUs broadcast := by
      unfold firstContactOk
      split_ifs <;> rfl
    refine hcounted.steps.trans (takenIn_steps m (acceptable_iff.mpr hsource).1
      ⟨h.received, fun msg hmsg t ht hbanned => ?_⟩)
    exact h.completes msg (huplink ▸ hmsg) t (hcounted.near.trans ht)
      (hbanned.trans hcounted.banned)
  · exact hcounted.steps

end ServerSteps
