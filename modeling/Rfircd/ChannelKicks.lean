import Rfircd.StationRequests
import Rfircd.StationExpiry

/-! A station that was kicked from a channel.
The kick leaves a mark in the station's record, and the station stays out as long as its lines to the
channel find the mark. -/
namespace ChannelKicks

open Basics Ax25 Airc AircSession KeyedTable MessageText IrcMessage IrcState AprsCodec AirTrace
open AirPolicy AirScreen HostKey RadioGateway RadioGateway.Gateway ServerOutput ServerCore ServerCore.Server Bridge
open ServerSteps ServerInvariants ServerRuns StateConsistency StationRecords StationRequests
open TransitionSystem KickMarks

variable {s t r : Server} {call : Callsign} {key : Text} {verifies : Text → Text → Prop}
  {reader : BeaconReader}

/-! ### What the station sends -/

/-- The message that an AIRC frame completes for the server. -/
def completed (reader : BeaconReader) (s : Server) (m : Moment) (f : Ax25Frame) : Option AircFrame :=
  match heard s.cfg reader f with
  | .airc frame forUs broadcast => s.uplink m f.source.call frame forUs broadcast
  | _ => none

/-- The channel of the `JOIN` that the frame completes. -/
def joinOf (reader : BeaconReader) (s : Server) (m : Moment) (f : Ax25Frame) : Option Text :=
  (completed reader s m f).bind fun msg =>
    if msg.kind = .join then (fieldTexts msg).head? else none

/-- The channel that a chat line of either kind of radio goes to. -/
def lineTo (reader : BeaconReader) (s : Server) (m : Moment) (f : Ax25Frame) : Option Text :=
  match heard s.cfg reader f with
  | .aprs msg =>
    if (s.aprsTarget (sanitize msg.text)).isSome then none
    else (splitChannelLine (sanitize msg.text) s.cfg.aprsChannel).map Prod.fst
  | _ => (completed reader s m f).bind fun msg =>
    if msg.kind = .msg ∨ msg.kind = .notice then
      match fieldTexts msg with
      | [target, _] => some target
      | _ => none
    else none

theorem asks_join {m : Moment} {f : Ax25Frame} {q : ChannelRequest} (h : Asks reader s m f q)
    (hq : q.speaks = false) : joinOf reader s m f = some q.channel := by
  cases h with
  | join hheard _ hmsg hkind hchannel =>
    simp only [joinOf, completed, hheard, hmsg, Option.bind_some, if_pos hkind, hchannel]
  | chat _ _ _ _ _ _ => cases hq
  | aprs _ _ _ _ => cases hq

theorem asks_line {m : Moment} {f : Ax25Frame} {q : ChannelRequest} (h : Asks reader s m f q)
    (hq : q.speaks = true) : lineTo reader s m f = some q.channel := by
  cases h with
  | join _ _ _ _ _ => cases hq
  | chat hheard _ hmsg hkind hfields _ =>
    simp only [lineTo, completed, hheard, hmsg, Option.bind_some, if_pos hkind, hfields]
  | aprs hheard _ htarget hline =>
    simp only [lineTo, hheard, htarget, hline, Option.isSome_none, Bool.false_eq_true, if_false,
      Option.map_some]

/-- Nothing that the station sends is a `JOIN` for the channel. -/
def NoJoin (reader : BeaconReader) (call : Callsign) (key : Text) (s : Server)
    (e : Moment × ServerRuns.Event) : Prop :=
  ∀ f, e.2 = .rf f → f.source.call = call → ∀ channel ∈ joinOf reader s e.1 f, lower channel ≠ key

/-- A line of the station to the channel finds the mark of the kick, under the name that the channel
has. -/
def FindsMark (reader : BeaconReader) (call : Callsign) (key : Text) (s : Server)
    (e : Moment × ServerRuns.Event) : Prop :=
  ∀ f, e.2 = .rf f → f.source.call = call → ∀ channel ∈ lineTo reader s e.1 f,
    lower channel = key → s.wasKickedFrom call (s.channelDisplayName channel) = true

/-! ### While it is out -/

theorem lower_display (h : Named s) (name : Text) : lower (s.channelDisplayName name) = lower name := by
  unfold channelDisplayName
  cases hc : s.state.channels.get (lower name) with
  | none => rfl
  | some c => exact h _ c hc

/-- A licence under which the station does not come into the channel, and is not heard there. -/
def barred (call : Callsign) (key : Text) : Licence :=
  ⟨.free, fun r => r.user = .rf call → lower r.channel ≠ key,
    fun r => r.sender = .rf call → lower r.channel ≠ key, fun _ _ => True, fun _ => True,
    fun _ => True⟩

theorem barred_fair : Fair (barred call key) where
  cleared := fun _ _ _ _ => trivial
  admissible := by
    intro r hip _ huser
    rw [huser] at hip
    cases hip
  entitled := by
    intro r hip _ hsender
    rw [hsender] at hip
    cases hip

/-- The station is no member. -/
structure Out (call : Callsign) (key : Text) (s : Server) : Prop where
  grounded : Grounded s
  linked : Linked s.state
  out : ¬ Holds s.state key (.rf call)

theorem out_frameTerms {m : Moment} {f : Ax25Frame} (h : Out call key s)
    (hjoin : NoJoin reader call key s (m, .rf f)) (hline : FindsMark reader call key s (m, .rf f)) :
    FrameTerms (barred call key) reader s m f where
  repeats := fun _ _ _ _ => trivial
  tells := fun _ _ => trivial
  joins := by
    intro q hq hspeaks t ht
    refine ⟨trivial, fun _ _ _ _ huser => ?_, fun _ _ _ _ _ _ => trivial⟩
    change lower (t.channelDisplayName q.channel) ≠ key
    rw [lower_display (named_near h.grounded.named ht)]
    exact hjoin f rfl (UserId.rf.inj huser) q.channel (asks_join hq hspeaks)
  chats := by
    intro q hq hspeaks t ht
    have hnamed := named_near h.grounded.named ht
    -- a guest whose line finds no mark is not the station, or goes elsewhere
    have hguest : t.wasKickedFrom f.source.call (t.channelDisplayName q.channel) = false →
        UserId.rf f.source.call = .rf call → lower (t.channelDisplayName q.channel) ≠ key := by
      intro hkicked huser hkey
      have hsrc := UserId.rf.inj huser
      rw [lower_display hnamed] at hkey
      have hmark := hline f rfl hsrc q.channel (asks_line hq hspeaks) hkey
      have hdisplay : t.channelDisplayName q.channel = s.channelDisplayName q.channel := by
        simp only [channelDisplayName, ht.channels]
      rw [hdisplay, ht.wasKickedFrom (hsrc ▸ hmark)] at hkicked
      cases hkicked
    refine mayChat_of hnamed (asks_name hq hspeaks) (fun hkicked => ?_) ?_ ?_
    · exact ⟨trivial, fun _ _ _ _ huser => hguest hkicked huser, fun _ _ _ _ _ _ => trivial⟩
    · intro chan flags hchan _ hflags huser
      change lower (t.channelDisplayName q.channel) ≠ key
      rw [lower_display hnamed]
      rintro rfl
      rw [channel_near ht] at hchan
      have hsrc : UserId.rf f.source.call = .rf call := huser
      refine h.out ⟨chan, hchan, ?_⟩
      rw [← hsrc, Channel.isMember, hflags]
      rfl
    · intro chan u _ _ _ hkicked _ huser
      exact hguest hkicked huser

theorem out_licensed {e : Moment × ServerRuns.Event} (h : Out call key s)
    (hjoin : NoJoin reader call key s e) (hline : FindsMark reader call key s e)
    (he : ServerRuns.Enabled verifies s e) : EventLicence (barred call key) reader s e := by
  refine content_licensed barred_fair ⟨fun _ _ => trivial, fun _ _ => trivial,
      fun _ _ => trivial, fun _ => trivial, fun _ => trivial⟩
    (fun _ _ => trivial) (fun _ => trivial) (fun _ => trivial) h.grounded.standing he ?_
  obtain ⟨m, e⟩ := e
  rintro f ⟨rfl⟩
  exact out_frameTerms h hjoin hline

/-- Nothing of the station is relayed to the channel. -/
def Unheard (call : Callsign) (key : Text) (s t : Server) : Prop :=
  ∃ new, t.relayed = s.relayed ++ new ∧ ∀ r ∈ new, r.sender = .rf call → lower r.channel ≠ key

theorem next_out {e : Moment × ServerRuns.Event} (h : Out call key s)
    (hjoin : NoJoin reader call key s e) (hline : FindsMark reader call key s e)
    (he : ServerRuns.Enabled verifies s e) :
    Out call key (s.next reader e) ∧ Unheard call key s (s.next reader e) := by
  have hsteps := next_steps h.grounded.standing h.grounded.named he trivial
    (out_licensed h hjoin hline he)
  have hstanding := h.grounded.standing
  refine ⟨⟨steps_grounded hsteps h.grounded, ?_, ?_⟩, steps_relayed hsteps⟩
  · exact steps_linked hsteps hstanding h.linked
  · exact steps_member hsteps hstanding h.linked (fun r hr huser => hr huser) h.out

/-! ### The kick -/

/-- The line is a channel operator's `KICK` of the station, which is a member. -/
structure Kicks (s : Server) (m : Moment) (id : ℕ) (msg : Message) (chan : Channel)
    (call : Callsign) : Prop where
  command : msg.command = "KICK"
  channel : (msg.param 0).bind s.state.channel = some chan
  target : (msg.param 1).bind (findTarget s.state) = some (.rf call)
  member : chan.isMember (.rf call) = true
  chanop : s.isChanop (.ip id) chan = true
  speaker : (s.user (.ip id)).any (fun u => u.registered && !u.listenOnly) = true
  rate : (s.outlet.policy.ipCmdRateOk (natText id) m.now).1 = true

/-- A flood limit counts, the members are told and the station is taken out of the channel; then its
record is marked, and the station is told. -/
theorem kick_next (reader : BeaconReader) {m : Moment} {id : ℕ} {line : Text} {msg : Message} {chan : Channel}
    (hparse : Message.parse line = some msg) (h : Kicks s m id msg chan call) :
    ∃ r, Steps anything s r ∧ r.state.channels = s.state.channels ∧
      r.outlet.sessions = s.outlet.sessions ∧
      s.next reader (m, .line id line) =
        ((Server.perform { r with state := (r.state.part (.rf call) chan.name).2 }
          (.note call (.kicked chan.name))).rfError m call "442" "kicked from channel").reapEvictedPeers
            m := by
  obtain ⟨u, hu, hboth⟩ := Option.any_eq_true .. |>.mp h.speaker
  obtain ⟨hreg, hspeaks⟩ := Bool.and_eq_true .. |>.mp hboth
  obtain ⟨name, hname, hchan⟩ := Option.bind_eq_some_iff.mp h.channel
  obtain ⟨who, hwho, htarget⟩ := Option.bind_eq_some_iff.mp h.target
  let limited := admitted s m id
  have hcmd : String.ofList msg.command = "KICK" := by
    rw [h.command]
    rfl
  have hchannels : limited.state.channels = s.state.channels := State.channels_modifyUser ..
  let told := limited.send fun o st => o.sendToMembers (st.members chan.name)
    ((Message.new "KICK" [chan.name, who, (msg.param 2).getD "Kicked"]).withPrefix
      ((limited.user (.ip id)).elim [] User.nickMask)).toText
  have htold : told.outlet.core = limited.outlet.core := Outlet.sendToMembers_core ..
  refine ⟨told, (admitted_steps s m id).trans (send_core_steps htold), hchannels,
    congrArg (fun c : Core => c.air.gateway.radio.sessions) htold, ?_⟩
  have hline : s.handleLine m id line = limited.command m id msg "KICK" :=
    handleLine_command hparse hcmd hu hreg (by simp_all) rfl h.rate
  have hchanop : limited.isChanop (.ip id) chan = true := by
    have hop := h.chanop
    simp only [isChanop, isOper, limited, admitted_user, if_pos, hu, Option.map_some,
      Option.any_some] at hop ⊢
    exact hop
  have hfound : limited.state.channel name = some chan := by
    rw [State.channel, hchannels]
    exact hchan
  have hbyNick : findTarget limited.state who = some (.rf call) :=
    (admitted_findTarget ..).trans htarget
  have hkick : limited.command m id msg "KICK" = limited.cmdKick m (.ip id) msg := rfl
  rw [Server.next]
  dsimp only
  rw [hline, hkick, cmdKick, hname, hwho]
  dsimp only
  rw [hfound]
  dsimp only
  rw [if_neg (by simp [hchanop]), hbyNick]
  dsimp only
  rw [if_neg (by simp [h.member])]

/-- The mark is set, and no station is pushed out for the word that is sent. -/
theorem notify_marked {m : Moment} {channel code text : Text}
    (hthere : (r.outlet.peer call).isSome = true) (hnone : r.outlet.sessions.evicted = []) :
    Marked (((r.perform (.note call (.kicked channel))).rfError m call code
      text).reapEvictedPeers m).outlet.sessions call (String.ofList channel) := by
  obtain ⟨p, hp⟩ := Option.isSome_iff_exists.mp hthere
  let noted := r.perform (.note call (.kicked channel))
  have hnoted : noted.outlet.sessions =
      r.outlet.sessions.store call (PeerNote.apply p (.kicked channel)) := by
    have hp' : r.outlet.gateway.radio.sessions.peer call = some p := hp
    change (AirTrace.perform r.outlet.gateway (.note call (.kicked channel))).radio.sessions = _
    simp only [AirTrace.perform, hp']
    rfl
  have hmark : Marked noted.outlet.sessions call (String.ofList channel) := by
    rw [hnoted]
    exact ⟨_, (Sessions.peer_store ..).trans (if_pos rfl), Finset.mem_insert_self ..⟩
  have htold : (noted.rfError m call code text).outlet.sessions.evicted = [] := by
    have hpeer : (noted.outlet.peer call).isSome = true := by
      obtain ⟨q, hq, -⟩ := hmark
      rw [show noted.outlet.peer call = some q from hq]
      rfl
    refine (unicast_evicted (.error code text) m.now hpeer).trans ?_
    change noted.outlet.sessions.evicted = []
    rw [hnoted]
    exact hnone
  have hsaid : Marked (noted.rfError m call code text).outlet.sessions call
      (String.ofList channel) :=
    unicast_marked (.error code text) m.now hmark
  rw [reapEvictedPeers, htold]
  exact hsaid

/-- The kick takes the station out of the channel, and marks its record. -/
theorem kick_out (reader : BeaconReader) {m : Moment} {id : ℕ} {line : Text} {msg : Message} {chan : Channel}
    (hs : Grounded s) (hl : Linked s.state) (hr : StationExpiry.Recorded s)
    (hparse : Message.parse line = some msg) (h : Kicks s m id msg chan call) :
    Out call (lower chan.name) (s.next reader (m, .line id line)) ∧
      (s.next reader (m, .line id line)).wasKickedFrom call chan.name = true := by
  obtain ⟨r, hbefore, hchannels, hsessions, hnext⟩ := kick_next reader hparse h
  let parted : Server := { r with state := (r.state.part (.rf call) chan.name).2 }
  let noted := parted.perform (.note call (.kicked chan.name))
  obtain ⟨name, -, hchan⟩ := Option.bind_eq_some_iff.mp h.channel
  have hparted : Steps (barred call (lower chan.name)) r parted := .single .part
  have hnoted : Steps (barred call (lower chan.name)) parted noted := perform_steps _ _ trivial
  have hend := (hnoted.trans (rfError_steps noted m call "442" "kicked from channel")).trans
    (reapEvictedPeers_steps (noted.rfError m call "442" "kicked from channel") m trivial)
  have hstanding := steps_standing hbefore hs.standing
  have hlinked := steps_linked hbefore hs.standing hl
  have hleft : ¬ Holds parted.state (lower chan.name) (.rf call) := fun hmember =>
    (((part_leaves r.state (.rf call) chan.name).holds _ _).mp hmember).2 ⟨rfl, rfl⟩
  have hmember : ¬ Holds (s.next reader (m, .line id line)).state (lower chan.name) (.rf call) := by
    rw [hnext]
    exact steps_member hend (steps_standing hparted hstanding)
      (steps_linked hparted hstanding hlinked) (fun q hq huser => hq huser) hleft
  have hwhole : Steps anything s (s.next reader (m, .line id line)) :=
    next_anything hs (show ServerRuns.Enabled Eq s (m, .line id line) from trivial)
  refine ⟨⟨steps_grounded hwhole hs, ?_, hmember⟩, ?_⟩
  · exact steps_linked hwhole hs.standing hl
  · have hthere : (s.user (.rf call)).isSome = true :=
      hl.member_present ⟨chan, hchan, h.member⟩
    rw [wasKickedFrom_iff, hnext]
    refine notify_marked (r := parted) ?_ ?_
    · change (r.outlet.sessions.peer call).isSome = true
      rw [hsessions]
      exact hr.recorded call hthere
    · change r.outlet.sessions.evicted = []
      rw [hsessions]
      exact hr.evicted

/-! ### The run -/

/-- The station is no member, and the next line of it to the channel is not relayed. -/
structure StaysOut (verifies : Text → Text → Prop) (reader : BeaconReader) (call : Callsign)
    (key : Text) (guard : Server → Moment × ServerRuns.Event → Prop) (s : Server) : Prop where
  out : ¬ Holds s.state key (.rf call)
  unheard : ∀ e, guard s e → ServerRuns.Enabled verifies s e →
    Unheard call key s (s.next reader e)

/-- Each line of the station to the channel finds the mark, and none asks to join. -/
def Remembered (reader : BeaconReader) (call : Callsign) (key : Text) (s : Server)
    (e : Moment × ServerRuns.Event) : Prop :=
  NoJoin reader call key s e ∧ FindsMark reader call key s e

/-- A kick leaves its mark, and holds in every run in which the lines of the station find it. -/
theorem kicked_station_stays_out {m : Moment} {id : ℕ} {line : Text} {msg : Message}
    {chan : Channel} (hs : Reachable (ServerRuns.system reader verifies) everyStep s)
    (hparse : Message.parse line = some msg) (hkick : Kicks s m id msg chan call) :
    (s.next reader (m, .line id line)).wasKickedFrom call chan.name = true ∧
      ∀ t, Execution (ServerRuns.system reader verifies)
          (Remembered reader call (lower chan.name)) (s.next reader (m, .line id line)) t →
        StaysOut verifies reader call (lower chan.name)
          (Remembered reader call (lower chan.name)) t := by
  obtain ⟨hgrounded, hrecorded⟩ := StationExpiry.recorded_inductive.reachable hs
  obtain ⟨-, hlinked⟩ := KickedStations.linked_inductive.reachable hs
  obtain ⟨hout, hmark⟩ := kick_out reader hgrounded hlinked hrecorded hparse hkick
  refine ⟨hmark, fun t hrun => ?_⟩
  have hkept : Out call (lower chan.name) t := by
    induction hrun with
    | refl => exact hout
    | tail _ hg hstep ih =>
      obtain ⟨he, rfl⟩ := hstep
      exact (next_out ih hg.1 hg.2 he).1
  exact ⟨hkept.out, fun e hg he => (next_out hkept hg.1 hg.2 he).2⟩

/-- An operator, and a station that has joined. -/
def arrivals : List ServerRuns.Event :=
  Small.joins 1 "anna" false ++
    [.line 1 "OPER root secret", Small.airc Small.station .join 1 ["#rf"]]

def kick : Text := "KICK #rf SM0ABC|7"

def kickMessage : Message := ⟨none, "KICK", ["#rf", "SM0ABC|7"]⟩

def joined : Server := Small.run arrivals

def kicked : Server := joined.next Small.noBeacon (Small.second 6, .line 1 kick)

def channel : Channel := (joined.state.channel "#rf").getD (.new "#rf" true)

/-- The station goes on talking. -/
def talk : Moment × ServerRuns.Event :=
  (Small.second 8, Small.airc Small.station .msg 3 ["#rf", "hello"])

theorem joined_channel : joined.state.channel "#rf" = some channel := by
  have hthere : (joined.state.channel "#rf").isSome = true := by decide +kernel
  obtain ⟨c, hc⟩ := Option.isSome_iff_exists.mp hthere
  rw [channel, hc]
  rfl

theorem anna_kicks : Kicks joined (Small.second 6) 1 kickMessage channel Small.station :=
  ⟨by decide, joined_channel, by decide +kernel, by decide +kernel, by decide +kernel,
    by decide +kernel, by decide +kernel⟩

theorem kicked_station_stays_out_talk :
    kicked.wasKickedFrom Small.station channel.name = true ∧
      StaysOut Eq Small.noBeacon Small.station (lower channel.name)
        (Remembered Small.noBeacon Small.station (lower channel.name))
        (kicked.next Small.noBeacon talk) := by
  have hreached : Small.Feasible arrivals := by decide +kernel
  have hparse : Message.parse kick = some kickMessage := by decide +kernel
  have hjoin : NoJoin Small.noBeacon Small.station (lower channel.name) kicked talk := by
    rintro _ ⟨rfl⟩ _
    decide +kernel
  have hline : FindsMark Small.noBeacon Small.station (lower channel.name) kicked talk := by
    rintro _ ⟨rfl⟩ _
    decide +kernel
  obtain ⟨hmark, hruns⟩ := kicked_station_stays_out (Small.reachable hreached) hparse anna_kicks
  exact ⟨hmark, hruns _ (.tail (.refl _) ⟨hjoin, hline⟩ ⟨trivial, rfl⟩)⟩

/-! ### A station that says good-bye -/

def goodbye : Moment × ServerRuns.Event := (Small.second 7, Small.airc Small.station .quit 2 [[]])

/-- With the record the mark is gone. -/
def gone : Server := kicked.next Small.noBeacon goodbye

theorem goodbye_returns :
    Reachable (ServerRuns.system Small.noBeacon Eq) everyStep joined ∧
      Message.parse kick = some kickMessage ∧
      Kicks joined (Small.second 6) 1 kickMessage channel Small.station ∧
      Execution (ServerRuns.system Small.noBeacon Eq)
        (NoJoin Small.noBeacon Small.station (lower channel.name))
        kicked (gone.next Small.noBeacon talk) ∧
      Holds (gone.next Small.noBeacon talk).state (lower channel.name) (.rf Small.station) ∧
      ¬ Unheard Small.station (lower channel.name) gone (gone.next Small.noBeacon talk) := by
  have hbye : NoJoin Small.noBeacon Small.station (lower channel.name) kicked goodbye := by
    rintro _ ⟨rfl⟩ _
    decide +kernel
  have htalk : NoJoin Small.noBeacon Small.station (lower channel.name) gone talk := by
    rintro _ ⟨rfl⟩ _
    decide +kernel
  have hmember : ((gone.next Small.noBeacon talk).state.channels.get (lower channel.name)).any
      (fun c => c.isMember (.rf Small.station)) = true := by decide +kernel
  have hnone : gone.relayed = [] := by decide +kernel
  have hsome : ∃ r ∈ (gone.next Small.noBeacon talk).relayed,
      r.sender = .rf Small.station ∧ lower r.channel = lower channel.name := by decide +kernel
  refine ⟨Small.reachable (by decide +kernel), by decide +kernel, anna_kicks, ?_, ?_, ?_⟩
  · exact .tail (.tail (.refl _) hbye ⟨trivial, rfl⟩) htalk ⟨trivial, rfl⟩
  · obtain ⟨c, hc, hthere⟩ := Option.any_eq_true .. |>.mp hmember
    exact ⟨c, hc, hthere⟩
  · rintro ⟨new, hnew, hall⟩
    rw [hnew, hnone, List.nil_append] at hsome
    obtain ⟨r, hr, hsender, hkey⟩ := hsome
    exact hall r hr hsender hkey

end ChannelKicks
