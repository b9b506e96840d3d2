import Rfircd.ServerInvariants

/-! What a frame of a station asks of a channel.
A `JOIN`, a chat line of an AIRC station and a channel line of an APRS radio all make the station a
member that is none yet. -/
namespace StationRequests

open Basics Ax25 Airc AircSession KeyedTable MessageText IrcState AprsCodec AirPolicy ServerOutput
open ServerCore ServerCore.Server Bridge ServerRuns ServerSteps ServerInvariants

variable {L : Licence} {s t : Server} {verifies : Text → Text → Prop} {reader : BeaconReader}

/-- A channel, whether something is to be said there, and whether the station understands the
gateway's reply. -/
structure ChannelRequest where
  channel : Text
  speaks : Bool
  reply : Bool

/-- The frame, from somebody to listen to, asks this of a channel. -/
inductive Asks (reader : BeaconReader) (s : Server) (m : Moment) (f : Ax25Frame) :
    ChannelRequest → Prop where
  | join {frame forUs broadcast msg channel} :
      heard s.cfg reader f = .airc frame forUs broadcast → Acceptable s f.source.call →
      s.uplink m f.source.call frame forUs broadcast = some msg → msg.kind = .join →
      (fieldTexts msg).head? = some channel → Asks reader s m f ⟨channel, false, true⟩
  | chat {frame forUs broadcast msg target text} :
      heard s.cfg reader f = .airc frame forUs broadcast → Acceptable s f.source.call →
      s.uplink m f.source.call frame forUs broadcast = some msg →
      msg.kind = .msg ∨ msg.kind = .notice → fieldTexts msg = [target, text] →
      isChannelName target = true → Asks reader s m f ⟨target, true, true⟩
  | aprs {msg channel body} :
      heard s.cfg reader f = .aprs msg → Acceptable s f.source.call →
      s.aprsTarget (sanitize msg.text) = none →
      splitChannelLine (sanitize msg.text) s.cfg.aprsChannel = some (channel, body) →
      Asks reader s m f ⟨channel, true, false⟩

/-- The text that an APRS radio sends to another station. -/
def Tells (reader : BeaconReader) (s : Server) (f : Ax25Frame) (body : Text) : Prop :=
  ∃ msg target, heard s.cfg reader f = .aprs msg ∧ Acceptable s f.source.call ∧
    s.aprsTarget (sanitize msg.text) = some (target, body) ∧ body ≠ [] ∧ target.id.isRf = true

/-! ### Names of channels -/

def namesChannels (c : Char) : Bool := c ≠ ' ' && c ≠ ',' && !isControl c

/-- A folded character is as long as before, and as good for a name. -/
theorem lower_char (c : Char) : octets (lower [c]) = octets [c] ∧
    (lower [c]).all namesChannels = namesChannels c ∧
    ((lower [c]).head? = some '#' ↔ c = '#') ∧ ((lower [c]).head? = some '&' ↔ c = '&') := by
  have hascii : ∀ n < 128, octets (lower [Char.ofNat n]) = octets [Char.ofNat n] ∧
      (lower [Char.ofNat n]).all namesChannels = namesChannels (Char.ofNat n) ∧
      ((lower [Char.ofNat n]).head? = some '#' ↔ Char.ofNat n = '#') ∧
      ((lower [Char.ofNat n]).head? = some '&' ↔ Char.ofNat n = '&') := by decide
  by_cases h : c.toNat < 128
  · have hc := hascii c.toNat h
    rwa [Char.ofNat_toNat] at hc
  · rw [lower_kept (not_lt.mp h)]
    simp

theorem octets_lower (t : Text) : octets (lower t) = octets t := by
  induction t with
  | nil => rfl
  | cons c t ih =>
    have hcons : ∀ a b : Text, octets (a ++ b) = octets a + octets b := fun a b => by
      simp [octets, utf8]
    rw [lower_cons, hcons, (lower_char c).1, ih, ← hcons]
    rfl

theorem all_lower (t : Text) : (lower t).all namesChannels = t.all namesChannels := by
  induction t with
  | nil => rfl
  | cons c t ih => rw [lower_cons, List.all_append, (lower_char c).2.1, ih, List.all_cons]

theorem head_lower (t : Text) : ((lower t).head? = some '#' ↔ t.head? = some '#') ∧
    ((lower t).head? = some '&' ↔ t.head? = some '&') := by
  cases t with
  | nil => exact ⟨Iff.rfl, Iff.rfl⟩
  | cons c t =>
    have hhead : (lower (c :: t)).head? = (lower [c]).head? := rfl
    rw [hhead, (lower_char c).2.2.1, (lower_char c).2.2.2]
    simp

/-- A name is good for a channel in any case. -/
theorem isChannelName_lower {a b : Text} (h : lower a = lower b) : isChannelName a = isChannelName b := by
  have hfold : ∀ t : Text, isChannelName (lower t) = isChannelName t := by
    intro t
    have hall : (lower t).all (fun c => c ≠ ' ' && c ≠ ',' && !isControl c) =
        t.all (fun c => c ≠ ' ' && c ≠ ',' && !isControl c) := all_lower t
    simp only [isChannelName, octets_lower, hall, head_lower]
  rw [← hfold a, ← hfold b, h]

/-- A channel is found under the name that it is shown with. -/
theorem channel_display (h : Named s) (name : Text) :
    s.state.channel (s.channelDisplayName name) = s.state.channel name := by
  unfold channelDisplayName
  cases hc : s.state.channels.get (lower name) with
  | none => rfl
  | some c =>
    have hkey := h _ c hc
    simp only [Option.elim_some, State.channel, hkey, hc]

theorem display_name (h : Named s) {name : Text} (hname : isChannelName name = true) :
    isChannelName (s.channelDisplayName name) = true := by
  unfold channelDisplayName
  cases hc : s.state.channels.get (lower name) with
  | none => exact hname
  | some c => exact (isChannelName_lower (h _ c hc)).trans hname

theorem display_display (h : Named s) (name : Text) :
    s.channelDisplayName (s.channelDisplayName name) = s.channelDisplayName name := by
  have hsame := channel_display h name
  unfold channelDisplayName State.channel at *
  rw [hsame]
  cases s.state.channels.get (lower name) <;> rfl

theorem channel_near {src : Callsign} (h : Near src s t) (name : Text) :
    t.state.channel name = s.state.channel name := by
  rw [State.channel, h.channels]
  rfl

theorem named_near {src : Callsign} (hs : Named s) (h : Near src s t) : Named t := by
  intro k c hc
  rw [h.channels] at hc
  exact hs k c hc

/-! ### A station comes in -/

theorem join_present {uid : UserId} {u : User} {name : Text} {chan : Channel} (given : Option Text)
    (hu : s.user uid = some u) (hchan : s.state.channel name = some chan)
    (hnew : chan.isMember uid = false) :
    let flags := s.state.flagsForParts uid chan.rf chan.members.entries.isEmpty chan.operators
    ∃ t, s.join uid name given = some (flags, t) ∧
      t.state.channel name = some { chan with members := chan.members.set uid flags } := by
  have hu' : s.state.users.get uid = some u := hu
  have hchan' : s.state.channels.get (lower name) = some chan := hchan
  simp only [Server.join, State.join, hu', hchan', hnew, Bool.false_eq_true, if_false,
    Option.map_some]
  exact ⟨_, rfl, Table.get_set_self ..⟩

/-- With which flags a station speaks in a channel that it has just come into. -/
theorem rfJoin_spoken (hn : Named s) {call : Callsign} {name : Text} {chan : Channel} {u : User}
    (hname : isChannelName name = true) (hchan : s.state.channel name = some chan)
    (hrf : chan.rf = true) (hnew : chan.isMember (.rf call) = false)
    (hu : s.user (.rf call) = some u) (m : Moment) (reply : Bool) :
    spoken (s.rfJoin m call (s.channelDisplayName name) reply) (.rf call) (s.channelDisplayName name) =
      ⟨.rf call, s.channelDisplayName name, chan.moderated,
        s.state.flagsForParts (.rf call) chan.rf chan.members.entries.isEmpty chan.operators⟩ := by
  have hchan' : s.state.channel (s.channelDisplayName name) = some chan :=
    (channel_display hn name).trans hchan
  obtain ⟨t, hjoin, hafter⟩ := join_present none hu hchan' hnew
  have hjoined : (s.rfJoin m call (s.channelDisplayName name) reply).state = t.state := by
    unfold rfJoin
    rw [if_neg (by simp [display_name hn hname])]
    dsimp only
    rw [display_display hn, hchan']
    dsimp only
    rw [if_neg (by simp [hrf]), hjoin]
    exact announceStation_state ..
  simp only [spoken, hjoined, hafter, Option.any_some, Option.bind_some, Table.get_set_self,
    Option.getD_some]

/-- A chat line needs the licence to come in, and to speak as a member or right after. -/
theorem mayChat_of (hn : Named s) {src : Callsign} {name : Text} {reply : Bool}
    (hname : isChannelName name = true)
    (hjoin : s.wasKickedFrom src (s.channelDisplayName name) = false →
      MayJoin L s src (s.channelDisplayName name) reply)
    (hmember : ∀ chan flags, s.state.channel name = some chan → chan.rf = true →
      chan.members.get (.rf src) = some flags →
        L.relayed ⟨.rf src, s.channelDisplayName name, chan.moderated, flags⟩)
    (hguest : ∀ chan u, s.state.channel name = some chan → chan.rf = true →
      chan.members.get (.rf src) = none → s.wasKickedFrom src (s.channelDisplayName name) = false →
      s.user (.rf src) = some u →
        L.relayed ⟨.rf src, s.channelDisplayName name, chan.moderated,
          s.state.flagsForParts (.rf src) chan.rf chan.members.entries.isEmpty chan.operators⟩) :
    MayChat L s src (s.channelDisplayName name) reply where
  member := by
    intro chan hchan hrf hin
    obtain ⟨flags, hflags⟩ := Option.isSome_iff_exists.mp hin
    have hlicence := hmember chan flags ((channel_display hn name).symm.trans hchan) hrf hflags
    simpa only [spoken, hchan, Option.any_some, Option.bind_some, hflags, Option.getD_some] using hlicence
  guest := by
    intro chan hchan hrf hout hkicked
    refine ⟨(display_display hn name).symm ▸ hjoin hkicked, fun hthere m => ?_⟩
    obtain ⟨u, hu⟩ := Option.isSome_iff_exists.mp hthere
    have hchan := (channel_display hn name).symm.trans hchan
    rw [rfJoin_spoken hn hname hchan hrf hout hu]
    exact hguest chan u hchan hrf (by simpa [Channel.isMember] using hout) hkicked hu

/-! ### Licences for frames -/

theorem splitChannelLine_name {text channel other body : Text}
    (h : splitChannelLine text other = some (channel, body)) : isChannelName channel = true := by
  unfold splitChannelLine at h
  extract_lets line otherwise at h
  have hother : ∀ p, otherwise = some p → isChannelName p.1 = true := by
    intro p hp
    simp only [otherwise] at hp
    split_ifs at hp with hname
    obtain rfl := Option.some.inj hp
    exact hname
  split at h
  · cases h
  · split at h
    · rename_i first rest _
      split at h
      · rename_i hname
        split_ifs at h
        obtain ⟨rfl, -⟩ := Prod.mk.inj (Option.some.inj h)
        exact hname
      · exact hother _ h
    · split at h
      · cases h
      · exact hother _ h

theorem asks_name {m : Moment} {f : Ax25Frame} {q : ChannelRequest} (h : Asks reader s m f q)
    (hspeaks : q.speaks = true) : isChannelName q.channel = true := by
  cases h with
  | join _ _ _ _ _ => cases hspeaks
  | chat _ _ _ _ _ hname => exact hname
  | aprs _ _ _ hline => exact splitChannelLine_name hline

/-- What the licence has to allow of a frame. -/
structure FrameTerms (L : Licence) (reader : BeaconReader) (s : Server) (m : Moment)
    (f : Ax25Frame) : Prop where
  repeats : Repeats L s
  tells : ∀ body, Tells reader s f body → L.aired ⟨.station f.source.call body, body⟩
  joins : ∀ q, Asks reader s m f q → q.speaks = false → ∀ t, Near f.source.call s t →
    MayJoin L t f.source.call (t.channelDisplayName q.channel) q.reply
  chats : ∀ q, Asks reader s m f q → q.speaks = true → ∀ t, Near f.source.call s t →
    MayChat L t f.source.call (t.channelDisplayName q.channel) q.reply

theorem frameTerms_licensed {m : Moment} {f : Ax25Frame} (hw : Welcoming L)
    (h : FrameTerms L reader s m f) (hrecalls : Recalls L reader s (m, .rf f)) :
    RfLicence L s reader m f := by
  unfold RfLicence
  split <;> rename_i heq
  · refine ⟨hrecalls.rations f rfl, fun hsource => ⟨fun _ _ => hw.answers _ _, ?_⟩,
      hrecalls.learns f _ rfl heq⟩
    refine ⟨h.repeats, fun _ => hw.station _, fun target body htarget hbody hrf =>
      h.tells body ⟨_, target, heq, hsource, htarget, hbody, hrf⟩, ?_⟩
    intro htarget channel body hline t ht
    exact h.chats ⟨channel, true, false⟩ (.aprs heq hsource htarget hline) rfl t ht
  · refine ⟨hrecalls.rations f rfl, fun hsource => ?_⟩
    refine ⟨hw.received _ _, fun msg hmsg t ht _ => ?_⟩
    refine ⟨h.repeats.near ht, fun _ => hw.station _, fun _ _ => hw.station _, ?_, ?_⟩
    · intro hkind channel hchannel r hr
      exact h.joins ⟨channel, false, true⟩ (.join heq hsource hmsg hkind hchannel) rfl r (ht.trans hr)
    · intro hkind target text hfields hname r hr
      exact h.chats ⟨target, true, true⟩ (.chat heq hsource hmsg hkind hfields hname) rfl r (ht.trans hr)
  · trivial
  · trivial

/-- Frames are what a licence for content has to be asked about. -/
theorem content_licensed {e : Moment × ServerRuns.Event} (hfair : Fair L) (hw : Welcoming L)
    (howner : ∀ uid nick, L.owner uid nick) (hdrop : ∀ nick, L.drop nick)
    (hchanges : ∀ c, L.changes c) (hs : Standing s) (he : ServerRuns.Enabled verifies s e)
    (hframe : ∀ f, e.2 = .rf f → FrameTerms L reader s e.1 f)
    (hrecalls : Recalls L reader s e := by exact recalls_all (fun _ _ => trivial) fun _ _ => trivial) :
    EventLicence L reader s e := by
  obtain ⟨m, e⟩ := e
  cases e with
  | line id line => exact fun _ _ => ⟨hfair, hdrop, fun c _ => hchanges c⟩
  | authFinished job result =>
    intro v hv
    exact ⟨(hs.jobs job he.1).2, fun _ _ _ _ => howner _ _, fun _ _ _ _ => hdrop _,
      fun _ => hchanges _⟩
  | rf frame => exact frameTerms_licensed hw (hframe frame rfl) hrecalls
  | tick => exact ⟨hw.expires m.now, hrecalls.ages rfl, hrecalls.lapses rfl⟩
  | _ => trivial

/-! ### Runs that ask for little -/

def isFrame (_ : Server) (e : Moment × ServerRuns.Event) : Bool :=
  match e.2 with
  | .rf _ => true
  | _ => false

/-- The event is a message of an APRS radio. -/
def isAprs (s : Server) (e : Moment × ServerRuns.Event) : Bool :=
  match e.2 with
  | .rf f => match heard s.cfg Small.noBeacon f with
    | .aprs _ => true
    | _ => false
  | _ => false

/-- What holds of every event of a kind holds along a run of them. -/
theorem reachable_without (kind : Server → Moment × ServerRuns.Event → Bool)
    {guard : Server → Moment × ServerRuns.Event → Prop}
    (hguard : ∀ s e, kind s e = false → guard s e) {es : List ServerRuns.Event}
    (h : TransitionSystem.Runs (fun s e => kind s e = false) (ServerRuns.Enabled Eq)
      (Server.next Small.noBeacon) Small.start (Small.seconds es)) :
    TransitionSystem.Reachable (system Small.noBeacon Eq) guard (Small.run es) := by
  have hstart : Initial Small.start := ⟨Small.config, true, .default, .empty, 0, rfl⟩
  exact ((TransitionSystem.Reachable.initial hstart).run h).mono hguard

end StationRequests
