import Rfircd.Assembly
import Rfircd.FragmentCap
import Rfircd.MessageArrival
import Rfircd.NamesReplies
import Rfircd.SilentRefusals
import Rfircd.StationAuthorship
import Rfircd.TwoGateways

/-! From a line of a client to the terminals of the stations.
What the radio is asked for goes out in frames, and a station puts them together again, in whatever
order they come in. -/
namespace ShownToStations

open Airc AircSession AirTrace Assembly Ax25 Ax25Codec BacklogAdmission BacklogAhead Basics
open FieldLists FragmentBuffers FragmentSizes HostKey IrcMessage IrcState KeyedTable
open MessageArrival MessageText RadioGateway RoundTrip ServerCore ServerOutput ServerRuns
open SilentRefusals StationChat StationClient
open StationAuthorship (Transmits transmitAll_transmits take_transmits shown_transmits sendTo_eq
  sendChat_eq drainAcks_config onReceive_config onKeyed_config)
open StationDisplay StationMemory TransitionSystem TransmitPump TransmitScheduler TwoGateways

variable {g : Gateway} {b : Broadcast} {src dest : Callsign} {path : List Callsign} {f : AircFrame}

/-! ### What goes out -/

/-- The AX.25 frames in the queue of the TNC task or in its hands. -/
def queuedFrames (g : Gateway) : Multiset Ax25Frame := g.pump.held.map Queued.payload

theorem enqueueUi_frame (h : Ready g) (hsource : g.radio.source = some src) (cls : TxClass)
    (hroom : 0 < g.txRoomIn cls) (dest : Callsign) (info : List UInt8) (expectsReply : Bool)
    (account : Text) : ∃ ax, Ax25Frame.ui src dest g.radio.cfg.path info = some ax ∧
      queuedFrames (g.enqueueUi dest info cls expectsReply account) = ax ::ₘ queuedFrames g := by
  obtain ⟨henabled, htnc⟩ := Bool.and_eq_true .. |>.mp h.available
  have hinterlock : g.pump.shared.interlockFailed = false := by
    have hdown := h.interlock
    rwa [Gateway.interlockDown, htnc, Bool.true_and] at hdown
  obtain ⟨ax, hax⟩ := ui_isSome src dest h.path info
  have hui : g.transmittable dest info = some ax := by
    rw [Gateway.transmittable, hsource]
    simp only [htnc, henabled, hinterlock, Bool.not_false, Bool.and_self, if_true, hax]
  refine ⟨ax, hax, ?_⟩
  rw [Gateway.txRoomIn, if_pos htnc] at hroom
  unfold Gateway.enqueueUi
  rw [hui]
  dsimp only
  rcases tncEnqueue_cases g.pump ax cls.schedulerClass account expectsReply with
    ⟨q, heq, -, htook⟩ | ⟨q, -, hfull, -⟩
  · rw [heq]
    exact (congrArg (Multiset.map Queued.payload) htook.held).trans (Multiset.map_cons ..)
  · omega

theorem transmitAll_frames {cls : TxClass} {frames : List AircFrame} (h : Ready g)
    (hsource : g.radio.source = some src) (hroom : frames.length ≤ g.txRoomIn cls) :
    queuedFrames (g.transmitAll cls (frames.map (dest, ·))) =
      onAir src dest g.radio.cfg.path frames + queuedFrames g := by
  induction frames generalizing g with
  | nil => exact (zero_add _).symm
  | cons f frames ih =>
    rw [List.length_cons] at hroom
    obtain ⟨hcharged, hleft, -⟩ := enqueueUi_charged h cls (by omega) dest f.encode f.wantsAck
      (callText dest)
    obtain ⟨ax, hax, hframe⟩ := enqueueUi_frame h hsource cls (by omega) dest f.encode f.wantsAck
      (callText dest)
    have hsame : (g.enqueueUi dest f.encode cls f.wantsAck (callText dest)).radio.source =
        some src := by
      rw [← hsource]
      unfold Gateway.enqueueUi
      split
      · rfl
      · split <;> rfl
    have hone : onAir src dest g.radio.cfg.path (f :: frames) =
        ax :: onAir src dest g.radio.cfg.path frames := by
      simp [onAir, hax]
    have hfold : g.transmitAll cls ((f :: frames).map (dest, ·)) =
        (g.enqueueUi dest f.encode cls f.wantsAck (callText dest)).transmitAll cls
          (frames.map (dest, ·)) := rfl
    rw [hfold, hone]
    generalize g.enqueueUi dest f.encode cls f.wantsAck (callText dest) = g'
      at hcharged hleft hframe hsame
    rw [ih hcharged.toReady hsame (by omega), hcharged.cfg, hframe, ← Multiset.cons_coe,
      Multiset.cons_add, Multiset.add_cons]

/-- The frames of a broadcast, as the station of the gateway sends them. -/
def castFrames (g : Gateway) (src : Callsign) (b : Broadcast) : List Ax25Frame :=
  onAir src g.radio.cfg.destination g.radio.cfg.path (downlinkFrames g b)

/-- A broadcast that there is room for puts all its frames into the queue, each of them once. -/
theorem broadcast_frames (h : Admitted g (toEveryone b)) (hsource : g.radio.source = some src) :
    queuedFrames (AirTrace.perform g (.broadcast b)) = castFrames g src b + queuedFrames g := by
  have hfew : ¬ 255 < (downlink g b).parts.length := by
    have hle := h.few
    simp only [toEveryone, Sending.frames, List.length_map, Gateway.broadcastFrames,
      List.length_mapIdx] at hle
    exact not_lt.mpr hle
  have hframes : (toEveryone b).frames g =
      (downlinkFrames g b).map (g.radio.cfg.destination, ·) := by
    rw [downlinkFrames, if_neg hfew]
    rfl
  have hroom := h.room
  rw [hframes, List.length_map] at hroom
  have hperformed : AirTrace.perform g (.broadcast b) =
      (g.withSessions g.radio.sessions.drawSeq.2).transmitAll .chat
        ((downlinkFrames g b).map (g.radio.cfg.destination, ·)) := by
    rw [← hframes]
    exact broadcastFlagged_admitted h
  have hready : Ready (g.withSessions g.radio.sessions.drawSeq.2) :=
    ⟨h.available, h.interlock, h.source, h.path⟩
  rw [hperformed]
  exact transmitAll_frames hready hsource hroom

/-! ### How it is shown -/

/-- A line of a channel, or of nobody but its sender. -/
def spokenAs (target nick text : Text) : Text :=
  if target.head? = some '#' ∨ target.head? = some '&' then target ++ " <" ++ nick ++ "> " ++ text
  else "*" ++ nick ++ "* " ++ text

def castLine : Broadcast → Text
  | .chat channel nick text _ => spokenAs (carried channel) (carried nick) (carried text)
  | .topic channel nick topic => spokenAs (carried channel) (carried nick) (carried topic)
  | .presence channel nick joined =>
    "-- " ++ carried nick ++ " " ++ (if joined then "joined" else "left") ++ " " ++ carried channel

theorem shown_cast {quiet : Bool} {d : AircFrame} (hkind : d.kind = b.kind)
    (hpayload : d.payload = b.payload) (hretry : d.has Flags.retry = false) :
    shown quiet src d = [castLine b] := by
  cases b with
  | chat channel nick text truncated =>
    have hfields : Bridge.fieldTexts d = [channel, nick, text].map carried :=
      fieldTexts_of_payload (by simp) hpayload
    have hk : d.kind = .msg := hkind
    unfold shown castLine spokenAs
    simp only [hk, hfields, hretry]
    split_ifs <;> simp_all
  | topic channel nick topic =>
    have hfields : Bridge.fieldTexts d = [channel, nick, topic].map carried :=
      fieldTexts_of_payload (by simp) hpayload
    have hk : d.kind = .notice := hkind
    unfold shown castLine spokenAs
    simp only [hk, hfields, hretry]
    split_ifs <;> simp_all
  | presence channel nick joined =>
    have hfields : Bridge.fieldTexts d =
        [channel, nick, [if joined then '+' else '-']].map carried :=
      fieldTexts_of_payload (by simp) hpayload
    have hk : d.kind = .presence := hkind
    have hmark : (carried [if joined then '+' else '-'] = ['+']) ↔ joined = true := by
      cases joined <;> decide
    unfold shown castLine
    simp only [hk, hfields]
    cases joined <;> simp_all

/-- What the flags of a broadcast say on the air. -/
theorem cast_flags : ∀ truncated : Bool,
    ((0 ||| flagsFor truncated) &&& ~~~Flags.piggyack) &&& Flags.ackReq = 0 ∧
      ((0 ||| flagsFor truncated) &&& ~~~Flags.piggyack) &&& Flags.retry = 0 := by
  decide

theorem broadcastChunks_short (g : Gateway) (payload : List UInt8) :
    ∀ part ∈ g.broadcastChunks payload, part.length ≤ g.radio.sessions.config.maxPayload := by
  unfold Gateway.broadcastChunks
  split_ifs
  · intro part hpart
    rw [List.mem_singleton.mp hpart]
    exact Nat.zero_le _
  · exact fun part hpart => length_chunksWith part hpart

/-- The octets of a frame are read as a frame of the broadcast. -/
theorem downlink_arrives {cfg : SessionConfig} (hf : f ∈ downlinkFrames g b)
    (hlong : g.radio.sessions.config.maxPayload ≤ cfg.maxPayload) :
    ∃ r, AircFrame.decode f.encode = .ok r ∧ r.fragIndex = f.fragIndex ∧
      Arrives cfg (downlink g b) r ∧ r.piggybackSeq = none := by
  obtain ⟨hv, hfragment, hnone⟩ := downlinkFrames_fragment hf
  have hflags : ∃ truncated, f.wireFlags = (0 ||| flagsFor truncated) &&& ~~~Flags.piggyack := by
    have hwire : f.wireFlags = (0 ||| b.flags) &&& ~~~Flags.piggyack := by
      unfold downlinkFrames at hf
      split_ifs at hf with hmany
      · exact absurd hf List.not_mem_nil
      · obtain ⟨i, hi, rfl⟩ := List.mem_mapIdx.mp hf
        rfl
    cases b with
    | chat channel nick text truncated => exact ⟨truncated, hwire⟩
    | topic channel nick topic => exact ⟨false, hwire⟩
    | presence channel nick joined => exact ⟨false, hwire⟩
  obtain ⟨truncated, hflags⟩ := hflags
  obtain ⟨hack, hretry⟩ := cast_flags truncated
  have hpart := broadcastChunks_short g b.payload f.payload (List.mem_of_getElem? hfragment.part)
  refine ⟨_, AtMostOnce.decode_fragment hfragment, rfl, ⟨?_, ?_, ?_, hpart.trans hlong⟩, hnone⟩
  · exact ⟨hfragment.kind, hfragment.seq, hfragment.total, hfragment.part⟩
  · change (f.wireFlags &&& Flags.ackReq != 0) = false
    rw [hflags, hack]
    rfl
  · change (f.wireFlags &&& Flags.retry != 0) = false
    rw [hflags, hretry]
    rfl

theorem downlink_at (hfew : (downlink g b).parts.length ≤ 255) {j : ℕ}
    (hj : j < (downlink g b).parts.length) : ∃ f ∈ downlinkFrames g b, j = f.fragIndex.toNat := by
  rw [downlinkFrames, if_neg (not_lt.mpr hfew)]
  refine ⟨_, List.mem_mapIdx.mpr ⟨j, hj, rfl⟩, ?_⟩
  exact (UInt8.toNat_ofNat_of_lt (show j < 256 by omega)).symm

/-! ### What a station remembers -/

section

variable {c c' c'' : Client} {seq : UInt16} {M : List UInt16 × Option Reassembly} {s : Sessions}

/-- The record is gone, or says the same. -/
def Kept (src : Callsign) (seq : UInt16) (M : List UInt16 × Option Reassembly) (s : Sessions) :
    Prop :=
  s.peer src = none ∨ Remembers src seq M s

theorem Kept.remembers (h : Kept src seq M s) (hpresent : (s.peer src).isSome = true) :
    Remembers src seq M s := by
  refine h.resolve_left fun hnone => ?_
  rw [hnone] at hpresent
  cases hpresent

theorem Kept.drainAcks (h : Kept src seq M s) : Kept src seq M s.drainAcks.1 := by
  unfold Kept Remembers at h ⊢
  rw [Sessions.drainAcks_peer]
  refine h.imp (fun hnone => ?_) fun hkept => ?_
  · rw [hnone]
    rfl
  · rw [Option.map_map]
    exact hkept

/-- The station stays who it is, and remembers what a message has begun with. -/
structure Follows (src : Callsign) (seq : UInt16) (M : List UInt16 × Option Reassembly)
    (c c' : Client) : Prop where
  call : c'.station.call = c.station.call
  config : c'.station.sessions.config = c.station.sessions.config
  kept : Remembers src seq M c.station.sessions → Kept src seq M c'.station.sessions

theorem Follows.refl (c : Client) : Follows src seq M c c := ⟨rfl, rfl, .inr⟩

theorem Follows.same (h : Follows src seq M c c') (hcall : c''.station.call = c'.station.call)
    (hsessions : c''.station.sessions = c'.station.sessions) : Follows src seq M c c'' :=
  ⟨hcall.trans h.call, hsessions ▸ h.config, hsessions ▸ h.kept⟩

theorem transmit_follows (taken : ℕ → Bool) {sessions : Sessions}
    (frames : List (Callsign × AircFrame)) (hconfig : sessions.config = c.station.sessions.config)
    (hkept : Remembers src seq M c.station.sessions → Kept src seq M sessions) :
    Follows src seq M c (c.transmit taken sessions frames) := by
  have h := transmitAll_transmits { c.station with sessions := sessions } taken frames
  refine ⟨h.call, ?_, ?_⟩
  · exact (congrArg Sessions.config h.sessions).trans hconfig
  · exact fun hm => h.sessions ▸ hkept hm

theorem enqueue_config (s : Sessions) (dst : Callsign) (kind : Kind) (payload : List UInt8)
    (reliable : Bool) (now : ℕ) :
    (s.enqueue dst kind payload reliable now).1.config = s.config := by
  obtain ⟨t, ht, -, heq | ⟨p, -, -, heq⟩⟩ := s.enqueue_cases dst kind payload reliable now
  · rw [heq]
    exact ht
  · rw [heq]
    exact ht

theorem sendTo_follows (c : Client) (now : ℕ) (taken : ℕ → Bool) (dest : Callsign) (kind : Kind)
    (fields : List Text) (reliable : Bool) :
    Follows src seq M c (c.sendTo now taken dest kind fields reliable) := by
  have hconfig := enqueue_config c.station.sessions dest kind (textFields fields) reliable now
  rw [sendTo_eq]
  refine transmit_follows taken _ ((drainAcks_config _).trans hconfig) fun hm => ?_
  exact Kept.drainAcks (hm.enqueue dest kind (textFields fields) reliable now)

theorem sendChat_follows (c : Client) (now : ℕ) (taken : ℕ → Bool) (fields : List Text) :
    Follows src seq M c (c.sendChat now taken fields) := by
  have hconfig := enqueue_config c.station.sessions c.gateway .msg (textFields fields) false now
  rw [sendChat_eq]
  refine transmit_follows taken _ hconfig fun hm => ?_
  exact hm.enqueue c.gateway .msg (textFields fields) false now

theorem obey_follows (c : Client) (now : ℕ) (taken : ℕ → Bool) (cmd : Command) :
    Follows src seq M c (c.obey now taken cmd).1 := by
  have hsend : ∀ kind fields reliable,
      Follows src seq M c (c.send now taken kind fields reliable) :=
    sendTo_follows c now taken c.gateway
  have hsay : ∀ line, Follows src seq M c (c.say line) := fun line => (Follows.refl c).same rfl rfl
  cases cmd with
  | quit reason =>
    dsimp only [Client.obey]
    exact hsend ..
  | join chan =>
    dsimp only [Client.obey]
    split_ifs
    · exact hsay _
    · exact (hsend ..).same rfl rfl
  | part chan =>
    dsimp only [Client.obey]
    split_ifs
    · exact .refl c
    · exact (hsend ..).same rfl rfl
    · exact hsend ..
  | names chan =>
    dsimp only [Client.obey]
    split_ifs
    · exact hsay _
    · exact hsend ..
  | msg rest =>
    dsimp only [Client.obey]
    cases splitOnce ' ' rest with
    | none => exact hsay _
    | some p =>
      obtain ⟨who, text⟩ := p
      dsimp only
      split_ifs
      · exact hsay _
      · cases rfDest who with
        | none => exact (hsend ..).same rfl rfl
        | some dest => exact (sendTo_follows c now taken dest ..).same rfl rfl
  | ping =>
    dsimp only [Client.obey]
    exact hsend ..
  | help => exact hsay _
  | unknown cmd => exact hsay _
  | chat line =>
    dsimp only [Client.obey]
    cases c.current with
    | none => exact hsay _
    | some chan => exact sendChat_follows ..

theorem handleInput_follows (c : Client) (now : ℕ) (taken : ℕ → Bool) (line : Text) :
    Follows src seq M c (c.handleInput now taken line).1 := by
  unfold Client.handleInput
  cases Command.parse line with
  | none => exact .refl c
  | some cmd => exact obey_follows c now taken cmd

theorem drainKeyed_config (keyed : List Keyed) (now : ℕ) (s : Sessions) :
    (keyed.foldl (fun s k => s.onKeyed k.dest k.seq now) s).config = s.config := by
  induction keyed generalizing s with
  | nil => rfl
  | cons k keyed ih => exact (ih _).trans (onKeyed_config ..)

theorem tick_follows (c : Client) (now clock : ℕ) (helloTaken taken : ℕ → Bool)
    (hlasts : Lasts c.station.sessions.config now M) :
    Follows src seq M c (c.tick now taken clock helloTaken).1 := by
  have hdrained : (c.drainKeyed now).station.sessions.config = c.station.sessions.config :=
    drainKeyed_config c.keyed now c.station.sessions
  have hhello : Follows src seq M c (if (c.drainKeyed now).wantsHello now then
      { (c.drainKeyed now).sendHello clock helloTaken with lastHello := now }
      else c.drainKeyed now) := by
    split_ifs
    · have hsent : Follows src seq M (c.drainKeyed now)
          ((c.drainKeyed now).sendHello clock helloTaken) :=
        (sendTo_follows (c.drainKeyed now) clock helloTaken ..).same rfl rfl
      exact ⟨hsent.call, hsent.config.trans hdrained, fun hm =>
        hsent.kept (hm.drainKeyed c.keyed now)⟩
    · exact ⟨rfl, hdrained, fun hm => .inr (hm.drainKeyed c.keyed now)⟩
  unfold Client.tick
  dsimp only
  generalize (if (c.drainKeyed now).wantsHello now then
      { (c.drainKeyed now).sendHello clock helloTaken with lastHello := now }
      else c.drainKeyed now) = c' at hhello
  have hticked : Remembers src seq M c.station.sessions →
      Kept src seq M (c'.station.sessions.tickRetries now true).1 := by
    intro hm
    rcases hhello.kept hm with hnone | hm'
    · left
      rw [Sessions.tickRetries_peer, hnone]
      rfl
    · exact tickRetries_remembers true hm' (hhello.config ▸ hlasts)
  have hlast := transmitAll_transmits
    { c'.station with sessions := (c'.station.sessions.tickRetries now true).1.drainAcks.1 } taken
    ((c'.station.sessions.tickRetries now true).2.transmit ++
      (c'.station.sessions.tickRetries now true).1.drainAcks.2)
  refine ⟨hlast.call.trans hhello.call, ?_, fun hm => ?_⟩
  · exact (congrArg Sessions.config hlast.sessions).trans hhello.config
  · exact hlast.sessions ▸ (hticked hm).drainAcks

theorem onReceive_ack (h : Remembers src seq M s) (hack : f.kind = .ack) (now : ℕ) (forUs : Bool) :
    Remembers src seq M (s.onReceive src f now forUs).1 := by
  obtain ⟨-, heq⟩ | ⟨p, ht, heq⟩ := s.onReceive_cases src f now forUs
  · rw [heq]
    exact h
  · rw [heq]
    refine h.store fun _ => ?_
    obtain ⟨hin, -, -⟩ := Sessions.touched_same ht
    have hreset : helloReset p.noteAirc f = p.noteAirc :=
      if_neg fun hhello => by cases hack.symm.trans hhello.1
    have hsame := @AtMostOnce.receive_memory s.config p f now forUs
    rw [hreset] at hsame
    rcases hsame with ⟨hseen, -, hreasm | ⟨hkind, -⟩⟩ | ⟨-, -, -, hhello, -⟩ | ⟨hkind, -⟩
    · rw [memory, hseen, hreasm, ← memory_inbox hin]
      rfl
    · exact absurd hack hkind
    · cases hack.symm.trans hhello
    · exact absurd hack hkind

/-- The frame is one that the station reads, it comes from there, and it is a message. -/
structure Tells (src : Callsign) (st : Station) (heard : Ax25Frame) : Prop where
  source : heard.source.call = src
  read : ¬ (Callsign.looksLikeAmateurCall heard.destination.call = true ∧
    heard.destination.call ≠ st.call)
  message : ∃ f, AircFrame.decode heard.info = .ok f ∧ f.kind ≠ .ack

/-- Other stations, frames for others, and acknowledgements. -/
theorem handleRf_follows (now : ℕ) (taken : ℕ → Bool) {heard : Ax25Frame}
    (hnot : ¬ Tells src c.station heard) : Follows src seq M c (c.handleRf now taken heard) := by
  unfold Client.handleRf Station.handleRf
  dsimp only
  split_ifs with hown hother
  · exact .refl c
  · exact .refl c
  · cases hdecode : AircFrame.decode heard.info with
    | error e => exact .refl c
    | ok f =>
      have htake := take_transmits c.station heard.source.call f
        (decide (heard.destination.call = c.station.call)) now taken
      have hkept : Remembers src seq M c.station.sessions → Remembers src seq M
          (c.station.sessions.onReceive heard.source.call f now
            (decide (heard.destination.call = c.station.call))).1 := by
        intro hm
        by_cases hsource : heard.source.call = src
        · subst hsource
          by_cases hack : f.kind = .ack
          · exact onReceive_ack hm hack ..
          · exact absurd ⟨rfl, hother, f, hdecode, hack⟩ hnot
        · exact hm.of_peer (Sessions.onReceive_peer _ (Ne.symm hsource) ..)
      have htook : Follows src seq M c { c with
          station := (c.station.take heard.source.call f
            (decide (heard.destination.call = c.station.call)) now taken).1 } := by
        refine ⟨htake.call, ?_, fun hm => .inr ?_⟩
        · exact (congrArg Sessions.config htake.sessions).trans (onReceive_config ..)
        · exact htake.sessions ▸ hkept hm
      dsimp only
      rcases htaken : c.station.take heard.source.call f
        (decide (heard.destination.call = c.station.call)) now taken with ⟨st, - | msg⟩
      · rw [htaken] at htook
        exact htook
      · rw [htaken] at htook
        have hshown := shown_transmits (shown st.quiet heard.source.call msg) st
        exact htook.same hshown.call hshown.sessions

end

/-! ### Runs of a station -/

variable {frames : List Ax25Frame} {start : ℕ} {l : Loop} {e : StationClient.Event}
  {es : List StationClient.Event} {got : ℕ → Prop}

/-- The event is a copy of one of the frames. -/
def CopyIn (frames : List Ax25Frame) (e : StationClient.Event) : Prop :=
  ∃ ax ∈ frames, ∃ heard now taken, e = .hear heard now taken ∧ CopyOf ax heard

/-- What may happen while the frames come in: the gateway is not forgotten. Of its messages only
copies of these are read, and no tick comes so late that their parts are dropped. -/
structure Attends (frames : List Ax25Frame) (src : Callsign) (start : ℕ) (l : Loop)
    (e : StationClient.Event) : Prop where
  known : (l.client.station.sessions.peer src).isSome = true
  ticks : ∀ now clock helloTaken taken, e = .tick now clock helloTaken taken →
    now < start + l.client.station.sessions.config.reassemblyTimeout
  copies : ∀ heard now taken, e = .hear heard now taken → Tells src l.client.station heard →
    (∃ ax ∈ frames, CopyOf ax heard) ∧ start ≤ now

/-- The station is another one than the gateway, and takes frames as long as its. -/
structure Suits (g : Gateway) (src : Callsign) (st : Station) : Prop where
  long : g.radio.sessions.config.maxPayload ≤ st.sessions.config.maxPayload
  window : 1 ≤ st.sessions.config.dedupWindow
  patient : 0 < st.sessions.config.reassemblyTimeout
  other : src ≠ st.call

theorem Suits.same {st st' : Station} (h : Suits g src st) (hcall : st'.call = st.call)
    (hconfig : st'.sessions.config = st.sessions.config) : Suits g src st' :=
  ⟨hconfig ▸ h.long, hconfig ▸ h.window, hconfig ▸ h.patient, hcall ▸ h.other⟩

theorem next_follows {seq : UInt16} {M : List UInt16 × Option Reassembly}
    (hg : Attends frames src start l e) (hnot : ¬ CopyIn frames e)
    (hpatient : 0 < l.client.station.sessions.config.reassemblyTimeout)
    (hyoung : ∀ r ∈ M.2, start ≤ r.started) : Follows src seq M l.client (l.next e).client := by
  cases e with
  | hear heard now taken =>
    refine handleRf_follows now taken fun htells => ?_
    obtain ⟨⟨ax, hax, hcopy⟩, -⟩ := hg.copies heard now taken rfl htells
    exact hnot ⟨ax, hax, heard, now, taken, rfl, hcopy⟩
  | type line now taken => exact handleInput_follows l.client now taken line
  | tick now clock helloTaken taken =>
    refine tick_follows l.client now clock helloTaken taken fun r hr => ?_
    have hstarted := hyoung r hr
    have hearly := hg.ticks now clock helloTaken taken rfl
    rw [expiredReasm, decide_eq_false_iff_not]
    omega
  | keyed k =>
    have hsame : (l.client.noteKeyed k).station = l.client.station := by
      unfold Client.noteKeyed
      split_ifs <;> rfl
    exact (Follows.refl l.client).same (congrArg Station.call hsame)
      (congrArg Station.sessions hsame)
  | closed => exact .refl l.client

/-- Nothing is shown and nothing goes out. -/
def Unmoved (l l' : Loop) : Prop :=
  l'.client.station.output = l.client.station.output ∧
    l'.client.station.sent = l.client.station.sent

/-- The line is shown, and nothing goes out. -/
def Shows (line : Text) (l l' : Loop) : Prop :=
  l'.client.station.output = l.client.station.output ++ [stripTerminalControls line] ∧
    l'.client.station.sent = l.client.station.sent

/-- The event is a copy of that frame. -/
def Brings (g : Gateway) (src : Callsign) (f : AircFrame) (e : StationClient.Event) : Prop :=
  ∃ ax, Ax25Frame.ui src g.radio.cfg.destination g.radio.cfg.path f.encode = some ax ∧
    ∃ heard now taken, e = .hear heard now taken ∧ CopyOf ax heard

theorem Brings.index {f' : AircFrame} (hf : f ∈ downlinkFrames g b) (hf' : f' ∈ downlinkFrames g b)
    (h : Brings g src f e) (h' : Brings g src f' e) : f.fragIndex = f'.fragIndex := by
  obtain ⟨ax, hui, heard, now, taken, rfl, hcopy⟩ := h
  obtain ⟨ax', hui', heard', now', taken', heq, hcopy'⟩ := h'
  obtain ⟨rfl, -, -⟩ := StationClient.Event.hear.inj heq
  have hsame : f.encode = f'.encode := by
    rw [← (ui_fields hui).2.2, ← (ui_fields hui').2.2, ← hcopy.info, ← hcopy'.info]
  obtain ⟨r, hread, hindex, -⟩ := downlink_arrives hf (le_refl _)
  obtain ⟨r', hread', hindex', -⟩ := downlink_arrives hf' (le_refl _)
  rw [hsame, hread'] at hread
  obtain rfl := Except.ok.inj hread
  rw [← hindex, hindex']

section

variable (hservice : Callsign.looksLikeAmateurCall g.radio.cfg.destination = false)

include hservice in
/-- What a station makes of a copy. -/
theorem copy_read (hsuits : Suits g src l.client.station)
    (hg : Attends (castFrames g src b) src start l e) (hcopy : CopyIn (castFrames g src b) e) :
    ∃ f ∈ downlinkFrames g b, Brings g src f e ∧ ∃ r now,
      Arrives l.client.station.sessions.config (downlink g b) r ∧ r.fragIndex = f.fragIndex ∧
      start ≤ now ∧
      (l.next e).client.station = { l.client.station with
        lastRx := some now
        sessions := (l.client.station.sessions.onReceive src r now
          (decide (g.radio.cfg.destination = l.client.station.call))).1
        output := l.client.station.output ++
          ((l.client.station.sessions.onReceive src r now
            (decide (g.radio.cfg.destination = l.client.station.call))).2.deliver.toList.flatMap
              (shown l.client.station.quiet src)).map stripTerminalControls } := by
  obtain ⟨ax, hax, heard, now, taken, rfl, hcopy⟩ := hcopy
  obtain ⟨f, hf, hui⟩ := List.mem_filterMap.mp hax
  obtain ⟨r, hread, hindex, harrives, hnone⟩ := downlink_arrives hf hsuits.long
  obtain ⟨hv, -, -⟩ := downlinkFrames_fragment hf
  obtain ⟨hsource, hdest, hinfo⟩ := ui_fields hui
  have hk : r.kind ≠ .ack := harrives.fragment.kind ▸ hv.kind
  have htells : Tells src l.client.station heard := by
    refine ⟨hcopy.source.trans hsource, ?_, r, ?_, hk⟩
    · rw [hcopy.destination, hdest, hservice]
      simp
    · rw [hcopy.info, hinfo, hread]
  obtain ⟨-, hnow⟩ := hg.copies heard now taken rfl htells
  exact ⟨f, hf, ⟨ax, hui, heard, now, taken, rfl, hcopy⟩, r, now, harrives, hindex, hnow,
    handleRf_copy hui hcopy hservice hsuits.other hread hk hnone⟩

/-- What a station has of a broadcast, as long as it knows the gateway. -/
def Awaits (g : Gateway) (src : Callsign) (b : Broadcast) (start : ℕ) (got : ℕ → Prop) (l : Loop) :
    Prop :=
  Suits g src l.client.station ∧ ((l.client.station.sessions.peer src).isSome = true →
    Collects src (downlink g b) (decide (g.radio.cfg.destination = l.client.station.call)) start got
      l.client.station.sessions)

/-- The broadcast was shown. -/
def Past (g : Gateway) (src : Callsign) (b : Broadcast) (start : ℕ) (l : Loop) : Prop :=
  Suits g src l.client.station ∧ ((l.client.station.sessions.peer src).isSome = true →
    Knows src (downlink g b).seq start l.client.station.sessions)

theorem downlink_kind : (downlink g b).kind ≠ .hello := by
  cases b <;> simp [downlink, Broadcast.kind]

include hservice in
/-- The last missing frame makes the broadcast shown. -/
theorem awaits_part (hg : Attends (castFrames g src b) src start l e)
    (hcopy : CopyIn (castFrames g src b) e) (h : Awaits g src b start got l) :
    ∃ i, (∀ j, (∃ f ∈ downlinkFrames g b, Brings g src f e ∧ j = f.fragIndex.toNat) → j = i) ∧
      (Unmoved l (l.next e) ∧ Awaits g src b start (fun j => got j ∨ j = i) (l.next e) ∧
          (∃ j < (downlink g b).parts.length, ¬ (got j ∨ j = i)) ∨
        Shows (castLine b) l (l.next e) ∧ Past g src b start (l.next e)) := by
  obtain ⟨hsuits, hknown⟩ := h
  obtain ⟨f, hf, hbrings, r, now, harrives, hindex, hnow, hnext⟩ :=
    copy_read hservice hsuits hg hcopy
  obtain ⟨hv, -, -⟩ := downlinkFrames_fragment hf
  have hsuits' : Suits g src (l.next e).client.station := by
    rw [hnext]
    exact hsuits.same rfl (onReceive_config ..)
  refine ⟨r.fragIndex.toNat, ?_, ?_⟩
  · rintro j ⟨f', hf', hbrings', rfl⟩
    rw [hindex, hbrings.index hf hf' hbrings']
  rcases (hknown hg.known).receive downlink_kind hv harrives hsuits.window hnow with
    ⟨hnone, hmore, hstill⟩ | ⟨⟨d, hd, hkind, hpayload, hretry⟩, hknows⟩
  · left
    rw [hnone] at hnext
    refine ⟨⟨?_, ?_⟩, ⟨hsuits', fun _ => ?_⟩, hstill⟩
    · rw [hnext]
      exact List.append_nil _
    · rw [hnext]
    · rw [hnext]
      exact hmore
  · right
    rw [hd] at hnext
    have hline : shown l.client.station.quiet src d = [castLine b] :=
      shown_cast hkind hpayload hretry
    refine ⟨⟨?_, ?_⟩, hsuits', fun _ => ?_⟩
    · rw [hnext]
      simp [hline]
    · rw [hnext]
    · rw [hnext]
      exact hknows

include hservice in
theorem past_again (hg : Attends (castFrames g src b) src start l e)
    (hcopy : CopyIn (castFrames g src b) e) (h : Past g src b start l) :
    Unmoved l (l.next e) ∧ Past g src b start (l.next e) := by
  obtain ⟨hsuits, hknown⟩ := h
  obtain ⟨f, hf, -, r, now, harrives, -, hnow, hnext⟩ := copy_read hservice hsuits hg hcopy
  obtain ⟨hv, -, -⟩ := downlinkFrames_fragment hf
  obtain ⟨hnone, hagain⟩ := @Knows.receive src (downlink g b) r
    (decide (g.radio.cfg.destination = l.client.station.call)) now start _ downlink_kind hv harrives
    (hknown hg.known) hnow
  rw [hnone] at hnext
  refine ⟨⟨?_, ?_⟩, ?_, fun _ => ?_⟩
  · rw [hnext]
    exact List.append_nil _
  · rw [hnext]
  · rw [hnext]
    exact hsuits.same rfl (onReceive_config ..)
  · rw [hnext]
    exact hagain

include hservice in
/-- A station puts a broadcast together from its frames. -/
theorem cast_assembles : Assembles Loop.next (Attends (castFrames g src b) src start)
    (fun l _ => l.running = true) (downlink g b).parts.length (CopyIn (castFrames g src b))
    (fun e j => ∃ f ∈ downlinkFrames g b, Brings g src f e ∧ j = f.fragIndex.toNat)
    (Awaits g src b start) (Past g src b start) Unmoved (Shows (castLine b)) where
  part hg _ hcopy h := awaits_part hservice hg hcopy h
  again hg _ hcopy h := past_again hservice hg hcopy h
  collects := by
    rintro got l e hg - hnot ⟨hsuits, hknown⟩
    have hcollects := hknown hg.known
    have hfollows : Follows src (downlink g b).seq (memory (downlink g b).seq
        (l.client.station.sessions.record src)) l.client (l.next e).client :=
      next_follows hg hnot hsuits.patient hcollects.young
    refine ⟨hsuits.same hfollows.call hfollows.config, fun hthere => ?_⟩
    have hkept := (hfollows.kept (remembers_self hg.known _)).remembers hthere
    exact hfollows.call.symm ▸ hcollects.remembered hkept
  knows := by
    rintro l e hg - hnot ⟨hsuits, hknown⟩
    have hknows := hknown hg.known
    have hfollows : Follows src (downlink g b).seq (memory (downlink g b).seq
        (l.client.station.sessions.record src)) l.client (l.next e).client :=
      next_follows hg hnot hsuits.patient hknows.young
    refine ⟨hsuits.same hfollows.call hfollows.config, fun hthere => ?_⟩
    exact hknows.remembered ((hfollows.kept (remembers_self hg.known _)).remembers hthere)
  arrives := by
    rintro e j ⟨f, hf, ⟨ax, hui, hheard⟩, -⟩
    exact ⟨ax, List.mem_filterMap.mpr ⟨f, hf, hui⟩, hheard⟩

end

/-! ### From IRC to the stations -/

section

variable {o o' : Outlet} {ops : List RadioOp}

theorem outletStep_start {A : OutletLicence} (h : OutletStep A o o') :
    o'.air.start = o.air.start := by
  cases h with
  | book hcore => exact congrArg (fun c : Core => c.air.start) hcore
  | radio hop => rfl
  | _ => rfl

theorem steps_start {L : ServerSteps.Licence} {s t : Server} (h : ServerSteps.Steps L s t) :
    t.outlet.air.start = s.outlet.air.start := by
  induction h with
  | refl => rfl
  | tail _ hstep ih =>
    refine Eq.trans ?_ ih
    rcases ServerSteps.step_outlet hstep with hsame | houtlet | ⟨call, -, hforgotten⟩
    · rw [hsame]
    · exact outletStep_start houtlet
    · rw [hforgotten]
      rfl

/-- The gateway is what the radio was asked for in between has made of it. -/
theorem gateway_asked (hstart : o'.air.start = o.air.start) (h : Did ops o o') :
    o'.gateway = ops.foldl AirTrace.perform o.gateway := by
  have hthen : o'.gateway = o'.air.performed.foldl AirTrace.perform o'.air.start := o'.air.faithful
  have hnow : o.gateway = o.air.performed.foldl AirTrace.perform o.air.start := o.air.faithful
  rw [hthen, h, List.foldl_append, hstart, ← hnow]

/-- Copies for APRS radios. -/
def IsCopy (op : RadioOp) : Prop := ∃ call body channel now, op = .aprsChat call body channel now

theorem copies_queued (hops : ∀ op ∈ ops, IsCopy op) (g : Gateway) :
    queuedFrames g ≤ queuedFrames (ops.foldl AirTrace.perform g) := by
  induction ops generalizing g with
  | nil => exact le_rfl
  | cons op ops ih =>
    obtain ⟨call, body, channel, now, rfl⟩ := hops op List.mem_cons_self
    obtain ⟨added, hadded⟩ := g.enqueueAprsChat_queuing call body (chatClass channel) now
    have hone : queuedFrames g ≤
        queuedFrames (AirTrace.perform g (.aprsChat call body channel now)) := by
      refine Multiset.map_le_map ?_
      have hheld : (AirTrace.perform g (.aprsChat call body channel now)).pump.held =
          g.pump.held + added := hadded.held
      rw [hheld]
      exact Multiset.le_add_right ..
    exact hone.trans (ih (fun op hop => hops op (List.mem_cons_of_mem _ hop)) _)

/-- The radio is asked for the broadcast once, and else for copies for APRS radios only. The frames
are put into the queue, each of them once, behind what is there. -/
structure GoesOut (b : Broadcast) (frames : List Ax25Frame) (o o' : Outlet) : Prop where
  asked : ∃ copies, asked o o' = .broadcast b :: copies ∧ ∀ op ∈ copies, IsCopy op
  queued : queuedFrames (AirTrace.perform o.gateway (.broadcast b)) =
    frames + queuedFrames o.gateway
  kept : frames + queuedFrames o.gateway ≤ queuedFrames o'.gateway

theorem did_goesOut (hstart : o'.air.start = o.air.start) {copies : List RadioOp}
    (hdid : Did (.broadcast b :: copies) o o') (hcopies : ∀ op ∈ copies, IsCopy op)
    (hroom : Admitted o.gateway (toEveryone b)) (hsource : o.gateway.radio.source = some src) :
    GoesOut b (castFrames o.gateway src b) o o' := by
  have hframes := broadcast_frames hroom hsource
  refine ⟨⟨copies, hdid.asked, hcopies⟩, hframes, ?_⟩
  rw [gateway_asked hstart hdid, ← hframes]
  exact copies_queued hcopies _

end

/-- A terminal shows the line as it was said, in a channel. -/
theorem shows_said {name nick text : Text} {truncated : Bool} (hname : isChannelName name = true) :
    Shows (castLine (.chat name nick text truncated)) =
      Shows (name ++ " <" ++ nick ++ "> " ++ text) := by
  have hmark : name.head? = some '#' ∨ name.head? = some '&' := by
    unfold isChannelName at hname
    simp only [Bool.and_eq_true, Bool.or_eq_true, decide_eq_true_eq] at hname
    exact hname.1.1
  have hcarried : carried name = name :=
    FragmentCap.carried_printable (FragmentCap.printable_of_isChannelName hname)
  have hstrip : stripTerminalControls (castLine (.chat name nick text truncated)) =
      stripTerminalControls (name ++ " <" ++ nick ++ "> " ++ text) := by
    unfold castLine spokenAs
    dsimp only
    rw [hcarried, if_pos hmark]
    simp only [NamesReplies.strip_append, NamesReplies.strip_carried]
  funext l l'
  unfold Shows
  rw [hstrip]

/-- The frames of a line in a channel. -/
def lineFrames (s : Server) (src : Callsign) (name nick text : Text) (truncated : Bool) :
    List Ax25Frame :=
  castFrames s.outlet.gateway src (.chat name nick text truncated)

instance (src : Callsign) (st : Station) (heard : Ax25Frame) : Decidable (Tells src st heard) :=
  decidable_of_iff (heard.source.call = src ∧
      ¬ (Callsign.looksLikeAmateurCall heard.destination.call = true ∧
        heard.destination.call ≠ st.call) ∧
      (AircFrame.decode heard.info).toOption.any (fun f => decide (f.kind ≠ .ack)) = true)
    (by
      have hread : (AircFrame.decode heard.info).toOption.any (fun f => decide (f.kind ≠ .ack)) =
          true ↔ ∃ f, AircFrame.decode heard.info = .ok f ∧ f.kind ≠ .ack := by
        cases AircFrame.decode heard.info <;> simp [Except.toOption]
      rw [hread]
      exact ⟨fun h => ⟨h.1, h.2.1, h.2.2⟩, fun h => ⟨h.source, h.read, h.message⟩⟩)

/-- Whether the event may happen while the frames come in. -/
def attends (frames : List Ax25Frame) (src : Callsign) (start : ℕ) (l : Loop)
    (e : StationClient.Event) : Bool :=
  (l.client.station.sessions.peer src).isSome && match e with
    | .tick now _ _ _ =>
      decide (now < start + l.client.station.sessions.config.reassemblyTimeout)
    | .hear heard now _ =>
      decide (Tells src l.client.station heard → (∃ ax ∈ frames, CopyOf ax heard) ∧ start ≤ now)
    | _ => true

theorem attends_iff : attends frames src start l e = true ↔ Attends frames src start l e := by
  unfold attends
  rw [Bool.and_eq_true]
  constructor
  · rintro ⟨hknown, h⟩
    refine ⟨hknown, ?_, ?_⟩
    · rintro now clock helloTaken taken rfl
      exact of_decide_eq_true h
    · rintro heard now taken rfl
      exact of_decide_eq_true h
  · intro h
    refine ⟨h.known, ?_⟩
    cases e with
    | tick now clock helloTaken taken => exact decide_eq_true (h.ticks _ _ _ _ rfl)
    | hear heard now taken => exact decide_eq_true (h.copies _ _ _ rfl)
    | _ => rfl

instance (frames : List Ax25Frame) (src : Callsign) (start : ℕ) (l : Loop)
    (e : StationClient.Event) : Decidable (Attends frames src start l e) :=
  decidable_of_iff (attends frames src start l e = true) attends_iff

/-- Anna, an operator with a callsign, and a station in her channel. -/
def gathering : List ServerRuns.Event :=
  Small.joins 1 "anna" false ++
    [.line 1 "JOIN #rf", .line 1 "OPER root secret", .line 1 "CALLSIGN SM0AAA",
      Small.airc Small.station .hello 101 ["1"],
      Small.airc Small.station .join 102 ["#rf"]]

def gathered : Server := Small.run gathering

def weather : Text :=
  "Fair all day on the island. Wind from the west, light at noon and fresh in the evening, when " ++
    "the ferry is late as on any day like this."

/-- Another station, which has heard the gateway before. -/
def islander : Loop :=
  ⟨(Args.new ⟨⟨"SM0XYZ", 0⟩, ⟨"SK0MT", 1⟩, none, 128, [], true⟩ 1 0).handleRf (secs 5)
    (fun _ => true) ⟨.new ⟨"AIRC", 0⟩, .new ⟨"SK0MT", 1⟩, [], controlUi, some pidNoL3,
      (AircFrame.new .presence 9 (textFields ["#rf", "anna", "+"])).encode⟩, true, [], []⟩

def forecast : List Ax25Frame :=
  lineFrames gathered ⟨"SK0MT", 1⟩ "#rf" "anna" weather false

/-- The frames come in from the last to the first, and then once more in their order. -/
def evening : List StationClient.Event :=
  (forecast.reverse.map fun ax => .hear ax (secs 20) fun _ => true) ++
    [.type "/ping" (secs 21) fun _ => true,
      .tick (secs 22) (secs 22) (fun _ => true) fun _ => true] ++
    forecast.map fun ax => .hear ax (secs 23) fun _ => true

end ShownToStations
