import Rfircd.BridgeSteps
import Rfircd.TimedMemory

/-! What messages of APRS radios do, as steps of the server.
A message that passes the tests ends with one answer, whatever branch it takes. -/
namespace ServerSteps

open Basics Ax25 Airc AircSession KeyedTable MessageText HostKey IrcMessage IrcState AprsCodec
open AirTrace AirPolicy AirScreen RadioGateway Accounts ServerOutput ServerCore Bridge
open ServerOutput.Outlet ServerCore.Server

variable {L : Licence} {s t r : Server} {m : Moment} {src : Callsign} {msg : AprsMessage}

/-! ### The tests -/

/-- The message is from somebody to listen to, is no answer to one of ours, and the rates allow it. -/
def Passes (s : Server) (m : Moment) (src : Callsign) (msg : AprsMessage) : Prop :=
  let rated := s.outlet.policy.rfStationRateOk (callText src) m.now
  Acceptable s src ∧ msg.isAckOrRej = false ∧ rated.1 = true ∧
    ((s.outlet.peer src).isSome = true ∨ (rated.2.firstContactOk m.now).1 = true)

instance (s : Server) (m : Moment) (src : Callsign) (msg : AprsMessage) :
    Decidable (Passes s m src msg) :=
  inferInstanceAs (Decidable (_ ∧ _ ∧ _ ∧ (_ ∨ _)))

/-- The rates have counted the message. -/
def rationed (s : Server) (m : Moment) (src : Callsign) : Server :=
  ((s.rfStationRateOk m src).2.firstContactOk m src).2

/-- The station was heard, and speaks APRS. -/
def noted (s : Server) (m : Moment) (src : Callsign) : Server :=
  ((rationed s m src).perform (.touch src m.now)).perform (.note src .aprs)

/-- What is done for a message that is not let in. -/
def Slight : RadioOp → Prop
  | .note _ .dropped | .aprsAnswered .. => True
  | _ => False

/-- Rate limits have counted, and a first contact at most once. -/
def Counts (s : Server) (m : Moment) (p : Policy) : Prop :=
  p.config = s.outlet.policy.config ∧ (p.firstContact = s.outlet.policy.firstContact ∨
    p.firstContact = (s.outlet.policy.firstContactOk m.now).2.firstContact)

theorem Counts.aside {p : Policy} (h : Counts s m p) (hration : MayRation L s m) (src : Callsign) :
    Aside src L s (s.withPolicy p) := by
  refine withPolicy_aside src s h.1 (h.2.imp_right fun hcounted => ?_)
  rw [hcounted]
  exact hration

/-- A rate limit counts, and a record may be kept. -/
def Glances (s : Server) (m : Moment) (t : Server) : Prop :=
  ∃ p ops, t = List.foldl Server.perform (s.withPolicy p) ops ∧ Counts s m p ∧ ∀ op ∈ ops, Slight op

theorem rationed_eq (s : Server) (m : Moment) (src : Callsign) :
    ∃ p, rationed s m src = s.withPolicy p ∧ Counts s m p := by
  unfold rationed firstContactOk
  split_ifs
  · exact ⟨_, rfl, rfl, .inl rfl⟩
  · exact ⟨_, rfl, rfl, .inr rfl⟩

theorem firstContactOk_iff : (s.firstContactOk m src).1 = true ↔
    (s.outlet.peer src).isSome = true ∨ (s.outlet.policy.firstContactOk m.now).1 = true := by
  unfold firstContactOk
  split_ifs with hknown <;> simp [hknown]

theorem handleAprsMessage_cases (s : Server) (m : Moment) (src : Callsign) (msg : AprsMessage) :
    ¬ Passes s m src msg ∧ Glances s m (s.handleAprsMessage m src msg) ∨
      Passes s m src msg ∧ s.handleAprsMessage m src msg =
        if (s.outlet.sessions.touched src m.now).isNone then (rationed s m src).aprsAck src msg
        else (noted s m src).aprsFresh m src msg := by
  obtain ⟨p, hp, hcounts⟩ := rationed_eq s m src
  have hsame : Counts s m s.outlet.policy := ⟨rfl, .inl rfl⟩
  unfold handleAprsMessage
  split
  · rename_i hsource
    exact .inl ⟨fun h => acceptable_iff.mp h.1 hsource, s.outlet.policy, [], rfl, hsame, by simp⟩
  · rename_i hsource
    split
    · rename_i hack
      refine .inl ⟨fun h => Bool.false_ne_true (h.2.1.symm.trans hack), ?_⟩
      split
      · exact ⟨s.outlet.policy, [], rfl, hsame, by simp⟩
      · rename_i id _
        exact ⟨s.outlet.policy, [.aprsAnswered src id m.now], rfl, hsame, by simp [Slight]⟩
    · rename_i hack
      rcases hrate : s.rfStationRateOk m src with ⟨ok, t⟩
      have ht : t = (s.rfStationRateOk m src).2 := by rw [hrate]
      cases ok with
      | false =>
        have hfailed : (s.rfStationRateOk m src).1 = false := by rw [hrate]
        refine .inl ⟨fun h => Bool.false_ne_true (hfailed.symm.trans h.2.2.1), ?_⟩
        exact ⟨(s.outlet.policy.rfStationRateOk (callText src) m.now).2, [.note src .dropped],
          by rw [ht]; rfl, ⟨rfl, .inl rfl⟩, by simp [Slight]⟩
      | true =>
        dsimp only
        rcases hcontact : t.firstContactOk m src with ⟨ok, r⟩
        have hr : r = rationed s m src := by rw [rationed, ← ht, hcontact]
        cases ok with
        | false =>
          refine .inl ⟨fun h => ?_, p, [], hr.trans hp, hcounts, by simp⟩
          have hpassed : (t.firstContactOk m src).1 = true := by
            rw [ht]
            exact firstContactOk_iff.mpr h.2.2.2
          rw [hcontact] at hpassed
          cases hpassed
        | true =>
          have hsource' : Acceptable s src := acceptable_iff.mpr hsource
          have hpassed : (t.firstContactOk m src).1 = true := by rw [hcontact]
          have hmet := firstContactOk_iff.mp hpassed
          rw [ht] at hmet
          refine .inr ⟨⟨hsource', by simpa using hack, congrArg Prod.fst hrate, hmet⟩, ?_⟩
          have hsessions : r.outlet.sessions = s.outlet.sessions := by
            rw [hr, hp]
            rfl
          dsimp only
          rw [hsessions, hr]
          rfl

/-! ### Messages from APRS stations -/

/-- The licence to answer a message that asks for it. -/
def MayAnswer (L : Licence) (src : Callsign) (msg : AprsMessage) : Prop :=
  ∀ id, msg.msgid = some id → L.answers src id

/-- What ends a message: an answer, and perhaps a word about what was wrong. -/
inductive Ends (L : Licence) (src : Callsign) (msg : AprsMessage) (s : Server) : Server → Prop where
  | ack {u : Server} : Steps L s u → Ends L src msg s (u.aprsAck src msg)
  | refuse {u : Server} {reply : Text} : Steps L s u → Ends L src msg s (u.aprsRefuse src msg reply)
  | reject {u : Server} : Steps L s u → Ends L src msg s (u.aprsRejOrAck src msg)

theorem Ends.after (h : Steps L s t) (hend : Ends L src msg t r) : Ends L src msg s r := by
  cases hend with
  | ack hsteps => exact .ack (h.trans hsteps)
  | refuse hsteps => exact .refuse (h.trans hsteps)
  | reject hsteps => exact .reject (h.trans hsteps)

theorem aprsAck_steps (s : Server) (h : MayAnswer L src msg) : Steps L s (s.aprsAck src msg) := by
  unfold aprsAck
  split
  · exact .refl
  · rename_i id hid
    exact perform_steps s _ (h id hid)

theorem Ends.steps (hend : Ends L src msg s t) (h : MayAnswer L src msg) : Steps L s t := by
  cases hend with
  | ack hsteps => exact hsteps.trans (aprsAck_steps _ h)
  | refuse hsteps => exact (hsteps.trans (aprsAck_steps _ h)).trans (perform_steps _ _ (by trivial))
  | reject hsteps =>
    refine hsteps.trans ?_
    unfold aprsRejOrAck
    split
    · exact .refl
    · rename_i id hid
      exact perform_steps _ _ (h id hid)

theorem aprsPrivate_ends (s : Server) (m : Moment) {target : User} {body : Text}
    (hcall : Callsign.looksLikeAmateurCall src = true) (hstation : L.station src)
    (hthere : (s.outlet.peer src).isSome = true) (hbody : ∀ c ∈ body, isControl c = false)
    (haired : body ≠ [] → target.id.isRf = true → L.aired ⟨.station src body, body⟩) :
    Ends L src msg s (s.aprsPrivate m src msg target body) := by
  unfold aprsPrivate
  split
  · exact .refuse .refl
  · rename_i hempty
    extract_lets greeted
    have hgreeted : Steps L s greeted := (greet_steps s m hcall hstation hthere).1
    split
    · exact .ack hgreeted
    · refine .ack (hgreeted.trans (send_steps (deliver_steps _ _ _ fun hrf => ?_)))
      exact station_licensed (parseCtcp_printable hbody) (haired hempty hrf) _ _ _ _ _

theorem aprsSpeak_ends (m : Moment) (user : User) {display body : Text} (hrepeat : Repeats L s)
    (hspoken : L.relayed (spoken s (.rf src) display)) :
    Ends L src msg s (s.aprsSpeak m src msg user display body) := by
  unfold aprsSpeak
  extract_lets screened said relayed translated
  have hrelayed : Steps L s relayed := relay_steps (fun h => absurd h (by simp)) hspoken
  have htranslated : Steps L relayed translated := by
    simp only [translated]
    split_ifs with hscreened
    · refine send_steps (Relation.ReflTransGen.tail (.single (.record ?_)) (.radio trivial))
      simp only [said, screened] at hscreened ⊢
      split_ifs at hscreened ⊢
      · cases hscreened
      · obtain ⟨x, hx⟩ := Option.isSome_iff_exists.mp hscreened
        rw [hx]
        exact hrepeat src body x hx
    · exact .refl
  exact .ack (hrelayed.trans htranslated)

/-- The licence for what a message of an APRS station asks for. -/
structure AprsLicence (L : Licence) (s : Server) (src : Callsign) (msg : AprsMessage) : Prop where
  repeats : Repeats L s
  station : s.outlet.sessions.isBanned src = false → L.station src
  tell : ∀ target body, s.aprsTarget (sanitize msg.text) = some (target, body) → body ≠ [] →
    target.id.isRf = true → L.aired ⟨.station src body, body⟩
  chat : s.aprsTarget (sanitize msg.text) = none → ∀ channel body,
    splitChannelLine (sanitize msg.text) s.cfg.aprsChannel = some (channel, body) →
    ∀ t, Near src s t → MayChat L t src (t.channelDisplayName channel) false

theorem AprsLicence.near (h : AprsLicence L s src msg) (hnear : Near src s t)
    (hstate : t.state = s.state)
    (hbanned : t.outlet.sessions.radioKicked = s.outlet.sessions.radioKicked) :
    AprsLicence L t src msg where
  repeats := h.repeats.near hnear
  station hfree := h.station (by rwa [Sessions.isBanned, hbanned] at hfree)
  tell := by
    simp only [aprsTarget, hstate]
    exact h.tell
  chat := by
    simp only [aprsTarget, hstate, hnear.config.1]
    exact fun htarget channel body hline r hr => h.chat htarget channel body hline r (hnear.trans hr)

theorem aprsChannelLine_ends (s : Server) (m : Moment) {channel body : Text}
    (hcall : Callsign.looksLikeAmateurCall src = true) (hstation : L.station src)
    (hthere : (s.outlet.peer src).isSome = true) (hrepeat : Repeats L s)
    (hchat : ∀ t, Near src s t → MayChat L t src (t.channelDisplayName channel) false) :
    Ends L src msg s (s.aprsChannelLine m src msg channel body) := by
  unfold aprsChannelLine
  dsimp only
  split
  · exact .refuse .refl
  · rename_i chan hchan
    split
    · exact .refuse .refl
    · rename_i hrf
      obtain ⟨hgreet, hnear⟩ := greet_steps s m hcall hstation hthere
      have hdisplay : (s.greet m src).channelDisplayName channel = s.channelDisplayName channel := by
        simp only [channelDisplayName, hnear.channels]
      have hmay := hchat _ hnear
      rw [hdisplay] at hmay
      have hchan' : (s.greet m src).state.channel (s.channelDisplayName channel) = some chan := by
        rw [State.channel, hnear.channels]
        exact hchan
      split
      · exact .refuse hgreet
      · rename_i hkicked
        split_ifs with hmember
        · have hrelay := hmay.member chan hchan' (by simpa using hrf) hmember
          split
          · exact .ack hgreet
          · exact .after hgreet (aprsSpeak_ends m _ (hrepeat.near hnear) hrelay)
        · obtain ⟨hjoin, hspoken⟩ := hmay.guest chan hchan' (by simpa using hrf) (by simpa using hmember)
            (by simpa [hmember] using hkicked)
          have hjoined := hgreet.trans (rfJoin_steps m hjoin)
          have hrepeat' : Repeats L ((s.greet m src).rfJoin m src (s.channelDisplayName channel) false) := by
            intro call line x hx
            rw [screenStation_config (rfJoin_config ..).2] at hx
            exact hrepeat.near hnear call line x hx
          split
          · exact .ack hjoined
          · rename_i huser
            have hthere : ((s.greet m src).user (.rf src)).isSome = true := by
              rw [← rfJoin_present m (s.channelDisplayName channel) false, huser]
              rfl
            exact .after hjoined (aprsSpeak_ends m _ hrepeat' (hspoken hthere m))

theorem aprsTarget_printable {text : Text} {target : User} {body : Text}
    (h : s.aprsTarget text = some (target, body)) : ∀ c ∈ body, isControl c = false := by
  obtain ⟨⟨first, rest⟩, -, h⟩ := Option.bind_eq_some_iff.mp h
  dsimp only at h
  split_ifs at h
  obtain ⟨u, -, hu⟩ := Option.map_eq_some_iff.mp h
  obtain ⟨-, rfl⟩ := Prod.mk.inj hu
  exact sanitize_printable _

theorem aprsText_ends (s : Server) (m : Moment) (hcall : Callsign.looksLikeAmateurCall src = true)
    (hstation : L.station src) (hthere : (s.outlet.peer src).isSome = true)
    (h : AprsLicence L s src msg) : Ends L src msg s (s.aprsText m src msg (sanitize msg.text)) := by
  unfold aprsText
  split
  · exact .refuse .refl
  · split
    · rename_i target body htarget
      exact aprsPrivate_ends s m hcall hstation hthere (aprsTarget_printable htarget)
        (h.tell target body htarget)
    · rename_i htarget
      split
      · exact .refuse .refl
      · rename_i channel body hline
        exact aprsChannelLine_ends s m hcall hstation hthere h.repeats
          (h.chat htarget channel body hline)

/-- The licence to remember a message that is taken in for the first time. -/
def MayRemember (L : Licence) (s : Server) (m : Moment) (src : Callsign) (msg : AprsMessage) : Prop :=
  ∀ id, msg.msgid = some id → s.outlet.sessions.isBanned src = false →
    aprsMsgidSeen s.outlet src id m.now = false →
    L.remembers s.outlet.aprsMsgid (rememberAprsMsgid s.outlet src id m.now).aprsMsgid

theorem rememberAprsMsgid_steps (s : Server) (src : Callsign) (id : Text) (now : ℕ)
    (h : L.remembers s.outlet.aprsMsgid (rememberAprsMsgid s.outlet src id now).aprsMsgid) :
    Steps L s { s with outlet := rememberAprsMsgid s.outlet src id now } := by
  have hbeacons : Steps L s { s with outlet := { s.outlet with
      aprsBeacon := (rememberAprsMsgid s.outlet src id now).aprsBeacon } } :=
    outlet_steps (core_steps rfl)
  exact hbeacons.tail (.outlet (.remember h))

theorem aprsFresh_ends (s : Server) (m : Moment) (hcall : Callsign.looksLikeAmateurCall src = true)
    (hthere : (s.outlet.peer src).isSome = true) (h : AprsLicence L s src msg)
    (hnew : MayRemember L s m src msg) : Ends L src msg s (s.aprsFresh m src msg) := by
  unfold aprsFresh
  split
  · exact .reject .refl
  · rename_i hbanned
    have hfree : s.outlet.sessions.isBanned src = false := by rwa [← Bool.not_eq_true]
    split
    · exact aprsText_ends s m hcall (h.station hfree) hthere h
    · rename_i id hid
      split
      · exact .ack .refl
      · rename_i hseen
        have hremember := rememberAprsMsgid_steps s src id m.now
          (hnew id hid hfree (by rwa [← Bool.not_eq_true]))
        refine .after hremember (aprsText_ends _ m hcall (h.station hfree) hthere ?_)
        exact h.near (Near.of_outlet rfl rfl fun _ h => h) rfl rfl

/-- A station that there is room for has a record when it was heard. -/
theorem touch_present {now : ℕ} (h : ¬ (s.outlet.sessions.touched src now).isNone = true) :
    ((s.perform (.touch src now)).outlet.peer src).isSome = true := by
  obtain ⟨p, hp⟩ := Option.ne_none_iff_exists'.mp (by simpa using h)
  have hp : s.outlet.gateway.radio.sessions.touched src now = some p := hp
  change ((AirTrace.perform s.outlet.gateway (.touch src now)).radio.sessions.peer src).isSome = true
  simp only [AirTrace.perform, hp]
  exact congrArg Option.isSome ((Sessions.peer_store ..).trans (if_pos rfl))

theorem rationed_aside (hration : MayRation L s m) (src : Callsign) :
    Aside src L s (rationed s m src) := by
  obtain ⟨p, hp, hcounts⟩ := rationed_eq s m src
  rw [hp]
  exact hcounts.aside hration src

theorem noted_aside (hration : MayRation L s m) (src : Callsign) :
    Aside src L s (noted s m src) := by
  let heard := (rationed s m src).perform (.touch src m.now)
  have hheard : Aside src L (rationed s m src) heard := perform_aside _ _ trivial (by trivial)
  have hnoted : Aside src L heard (heard.perform (.note src .aprs)) := perform_aside _ _ trivial (by trivial)
  exact ((rationed_aside hration src).trans hheard).trans hnoted

theorem noted_present (h : ¬ (s.outlet.sessions.touched src m.now).isNone = true) :
    ((noted s m src).outlet.peer src).isSome = true := by
  have hheard : ¬ ((rationed s m src).outlet.sessions.touched src m.now).isNone = true := by
    obtain ⟨p, hp, -⟩ := rationed_eq s m src
    rw [hp]
    exact h
  exact RadioSessions.perform_present (show RadioSessions.Attends (.note src .aprs) from trivial)
    (touch_present hheard)

theorem noted_memory (s : Server) (m : Moment) (src : Callsign) :
    (noted s m src).outlet.aprsMsgid = s.outlet.aprsMsgid := by
  obtain ⟨p, hp, -⟩ := rationed_eq s m src
  rw [noted, hp]
  rfl

/-- The number under which a message is remembered: it was not seen before, and is taken in. -/
def newId (s : Server) (m : Moment) (src : Callsign) (msg : AprsMessage) : Option Text :=
  if Passes s m src msg ∧ (s.outlet.sessions.touched src m.now).isSome = true ∧
      s.outlet.sessions.isBanned src = false then
    msg.msgid.filter fun id => !aprsMsgidSeen s.outlet src id m.now
  else none

theorem handleAprsMessage_ends (hpasses : Passes s m src msg) (hration : MayRation L s m)
    (h : AprsLicence L s src msg)
    (hnew : ∀ id ∈ newId s m src msg,
      L.remembers s.outlet.aprsMsgid (rememberAprsMsgid s.outlet src id m.now).aprsMsgid) :
    Ends L src msg s (s.handleAprsMessage m src msg) := by
  obtain ⟨hnot, -⟩ | ⟨-, heq⟩ := handleAprsMessage_cases s m src msg
  · exact absurd hpasses hnot
  · have hcounted : Aside src L s (rationed s m src) := rationed_aside hration src
    have hnoted : Aside src L s (noted s m src) := noted_aside hration src
    rw [heq]
    split_ifs with hroom
    · exact .ack hcounted.steps
    · refine .after hnoted.steps (aprsFresh_ends _ m hpasses.1.1 (noted_present hroom)
        (h.near hnoted.near hnoted.state hnoted.banned) fun id hid hfree hseen => ?_)
      rw [hnoted.isBanned] at hfree
      rw [aprsMsgidSeen, noted_memory] at hseen
      rw [rememberAprsMsgid, expireAprsMsgids, noted_memory]
      refine hnew id ?_
      rw [newId, if_pos ⟨hpasses, by simpa [Option.isSome_iff_ne_none] using hroom, hfree⟩, hid]
      exact Option.mem_filter_iff.mpr ⟨rfl, by rw [aprsMsgidSeen, hseen]; rfl⟩

theorem handleAprsMessage_steps (s : Server) (m : Moment) {src : Callsign} {msg : AprsMessage}
    (hration : MayRation L s m) (hanswer : Acceptable s src → MayAnswer L src msg) (h : Acceptable s src → AprsLicence L s src msg)
    (hnew : ∀ id ∈ newId s m src msg,
      L.remembers s.outlet.aprsMsgid (rememberAprsMsgid s.outlet src id m.now).aprsMsgid) :
    Steps L s (s.handleAprsMessage m src msg) := by
  obtain ⟨-, p, ops, heq, hcounts, hslight⟩ | ⟨hpasses, -⟩ := handleAprsMessage_cases s m src msg
  · have hlimited : Steps L s (s.withPolicy p) := (hcounts.aside hration src).steps
    rw [heq]
    generalize s.withPolicy p = t at hlimited
    clear heq
    induction ops generalizing t with
    | nil => exact hlimited
    | cons op ops ih =>
      have hop := hslight op List.mem_cons_self
      refine ih (fun op hop => hslight op (List.mem_cons_of_mem _ hop)) _
        (hlimited.trans (perform_steps t op ?_))
      cases op with
      | note call n => cases n <;> trivial
      | aprsAnswered _ _ _ => trivial
      | _ => exact hop.elim
  · exact (handleAprsMessage_ends hpasses hration (h hpasses.1) hnew).steps (hanswer hpasses.1)

theorem handleAprsBeacon_steps (s : Server) (m : Moment) (src : Callsign) (summary : Text) :
    Steps L s (s.handleAprsBeacon m src summary) := by
  unfold handleAprsBeacon
  split
  · exact .refl
  · split
    · exact .refl
    · rename_i channel _
      extract_lets display
      split_ifs
      · have hshown : (s.showBeacon m src summary display).outlet.core = s.outlet.core :=
          sendToMembers_core ..
        exact outlet_steps (core_steps hshown)
      · exact .refl

/-! ### Frames -/

/-- The licence for what a frame asks for. -/
def RfLicence (L : Licence) (s : Server) (reader : BeaconReader) (m : Moment) (f : Ax25Frame) :
    Prop :=
  match heard s.cfg reader f with
  | .aprs msg =>
    MayRation L s m ∧
    (Acceptable s f.source.call →
      MayAnswer L f.source.call msg ∧ AprsLicence L s f.source.call msg) ∧
    ∀ id ∈ newId s m f.source.call msg,
      L.remembers s.outlet.aprsMsgid (rememberAprsMsgid s.outlet f.source.call id m.now).aprsMsgid
  | .airc frame forUs broadcast =>
    MayRation L s m ∧
    (Acceptable s f.source.call → FrameLicence L s m f.source.call frame forUs broadcast)
  | .nothing | .beacon _ => True

theorem handleRfFrame_steps (reader : BeaconReader) (m : Moment) {f : Ax25Frame}
    (h : RfLicence L s reader m f) : Steps L s (s.handleRfFrame reader m f) := by
  have hcounted : Aside f.source.call L s
      { s with outlet := { s.outlet with framesRx := s.outlet.framesRx + 1 } } :=
    ⟨outlet_steps (core_steps rfl), Near.of_outlet rfl rfl fun _ h => h, rfl, rfl, id⟩
  have hheard : heard (Server.cfg { s with outlet := { s.outlet with
      framesRx := s.outlet.framesRx + 1 } }) reader f = heard s.cfg reader f := rfl
  unfold handleRfFrame
  dsimp only
  rw [hheard]
  unfold RfLicence at h
  split <;> rename_i heq <;> rw [heq] at h
  · exact hcounted.steps
  · refine hcounted.steps.trans (handleAprsMessage_steps _ m h.1 (fun hsource => (h.2.1 hsource).1)
      (fun hsource => ?_) h.2.2)
    exact (h.2.1 hsource).2.near hcounted.near hcounted.state hcounted.banned
  · exact hcounted.steps.trans (handleAprsBeacon_steps ..)
  · refine hcounted.steps.trans (handleAircFrame_steps _ m h.1 fun hsource => ?_)
    refine ⟨(h.2 hsource).received, fun msg hmsg t ht hbanned => ?_⟩
    exact (h.2 hsource).completes msg hmsg t (hcounted.near.trans ht) (hbanned.trans hcounted.banned)

end ServerSteps
