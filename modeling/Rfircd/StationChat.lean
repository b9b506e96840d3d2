import Rfircd.FieldLists
import Rfircd.ReservedNicks
import Rfircd.StationClient

/-! What one operator types is what another operator reads: a line for the channel is cut, put on the
air and shown once by every station that hears all of it, and a nick that is shown can be written to. -/
namespace StationChat

open Airc AircSession AirTrace Ax25 Ax25Codec Basics CallsignTexts FieldLists FragmentBuffers
open IrcMessage KeyedTable MessageText RadioGateway ReservedNicks RoundTrip StationClient
open StationDisplay TextPieces

/-! ### What goes out -/

variable {st : Station} {c : Client} {cfg : SessionConfig} {now : ℕ}

theorem transmitTo_sent {dest : Callsign} {f : AircFrame} {ax : Ax25Frame}
    (h : Ax25Frame.ui st.call dest st.path f.encode = some ax) :
    st.transmitTo true dest f = { st with sent := st.sent ++ [ax] } := by
  unfold Station.transmitTo
  rw [h]
  rfl

theorem ui_isSome (call dest : Callsign) {path : List Callsign} (h : path.length ≤ maxDigipeaters)
    (info : List UInt8) : ∃ ax, Ax25Frame.ui call dest path info = some ax :=
  ⟨_, if_neg (Nat.not_lt.mpr h)⟩

/-- Frames as the station puts them on the air. -/
def onAir (call dest : Callsign) (path : List Callsign) (frames : List AircFrame) : List Ax25Frame :=
  frames.filterMap fun f => Ax25Frame.ui call dest path f.encode

/-- A queue that takes everything. -/
theorem transmitAll_sent (hpath : st.path.length ≤ maxDigipeaters) (dest : Callsign)
    (frames : List AircFrame) :
    transmitAll st (fun _ => true) (frames.map (dest, ·)) =
      { st with sent := st.sent ++ onAir st.call dest st.path frames } := by
  unfold transmitAll
  generalize 0 = n
  induction frames generalizing st n with
  | nil => simp [onAir]
  | cons f frames ih =>
    obtain ⟨ax, hax⟩ := ui_isSome st.call dest hpath f.encode
    rw [List.map_cons, List.zipIdx_cons, List.foldl_cons, transmitTo_sent hax,
      @ih { st with sent := st.sent ++ [ax] } hpath]
    simp [onAir, hax]

/-- A message that is not acknowledged goes out at once, and leaves nothing behind. -/
theorem enqueue_unreliable {s : Sessions} {dst : Callsign} {kind : Kind} {payload : List UInt8}
    (hrecord : s.hasRecordFor dst = true)
    (hfew : (chunkPayload payload s.config.maxPayload false).length ≤ 255) :
    (s.enqueue dst kind payload false now).2.frames =
      produced s.config kind s.nextSeq payload false none := by
  have hparts : ∀ p : Peer, p.parts s.config payload false =
      chunkPayload payload s.config.maxPayload false := by
    intro p
    unfold Peer.parts takePiggyback
    simp
  have haccepted : (s.enqueue dst kind payload false now).2.accepted = true := by
    rw [Sessions.enqueue_accepted, Sessions.accepts, hrecord, Bool.true_and, Peer.accepts, hparts]
    simp [hfew]
  obtain ⟨t, -, -, heq | ⟨p, -, -, heq⟩⟩ := s.enqueue_cases dst kind payload false now
  · rw [heq] at haccepted
    cases haccepted
  · rw [heq] at haccepted ⊢
    rcases AircSession.enqueue_cases s.config p s.nextSeq kind payload false with
      ⟨q, hq, -, -⟩ | ⟨-, ⟨-, hq⟩ | ⟨hr, -⟩ | ⟨hr, -⟩ | ⟨acked, hr, -⟩⟩
    · rw [hq] at haccepted
      cases haccepted
    · rw [hq, hparts]
      rfl
    all_goals cases hr

/-- The frames of a line for the channel. -/
def chatFrames (c : Client) (chan text : Text) : List AircFrame :=
  produced c.station.sessions.config .msg c.station.sessions.nextSeq (textFields [chan, text]) false none

theorem handleInput_chat {line chan text : Text} (hline : Command.parse line = some (.chat text))
    (hchan : c.current = some chan) (hpath : c.station.path.length ≤ maxDigipeaters)
    (hrecord : c.station.sessions.hasRecordFor c.gateway = true)
    (hfew : (chunkPayload (textFields [chan, text]) c.station.sessions.config.maxPayload
      false).length ≤ 255) :
    (c.handleInput now (fun _ => true) line).1.station.sent =
      c.station.sent ++ onAir c.station.call protocolDest c.station.path (chatFrames c chan text) := by
  have hframes := @enqueue_unreliable now c.station.sessions c.gateway .msg _ hrecord hfew
  unfold Client.handleInput
  rw [hline]
  dsimp only [Client.obey]
  rw [hchan]
  dsimp only [Client.sendChat, Client.transmit]
  rw [hframes]
  have hsent := @transmitAll_sent { c.station with
    sessions := (c.station.sessions.enqueue c.gateway .msg (textFields [chan, text]) false now).1 }
    hpath protocolDest (chatFrames c chan text)
  exact congrArg Station.sent hsent

/-! ### What comes in -/

/-- The receiver of a channel line has nothing to answer. -/
theorem receive_silent {p : Peer} {g : AircFrame} {forUs : Bool} (hk : g.kind ≠ .ack)
    (hnone : g.piggybackSeq = none) : (p.receive cfg g now forUs).2.transmit = [] := by
  rw [receive_of_message hk]
  dsimp only
  rw [applyPiggyback, hnone]

theorem retry_kept : ∀ flags : BitVec 8, flags &&& 2 = 0 → (flags ||| 1) &&& 2 = 0 := by
  decide +kernel

theorem has_retry {f : AircFrame} : f.has Flags.retry = false ↔ f.flags &&& Flags.retry = 0 := by
  rw [AircFrame.has, bne_eq_false_iff_eq]

/-- What is put together of frames that are no retries is none. -/
theorem taken_retry {p q : Peer} {g : AircFrame} {forUs : Bool} {deliver : Option AircFrame}
    (h : Taken cfg p g now forUs q deliver) (hg : g.has Flags.retry = false)
    (hbuffer : ∀ r, p.reasm.get g.seq = some r → r.flags &&& Flags.retry = 0) :
    (∀ d ∈ deliver, d.has Flags.retry = false) ∧
      ∀ r, q.reasm.get g.seq = some r → r.flags &&& Flags.retry = 0 := by
  have hstored : (stored cfg p g now forUs).flags &&& Flags.retry = 0 := by
    have hold : (bufferFor (evictReasm p g.seq cfg.maxReasm) g now (forUs && g.wantsAck)).flags &&&
        Flags.retry = 0 := by
      unfold bufferFor
      dsimp only
      split
      · exact has_retry.mp hg
      · rename_i r hr
        split_ifs
        · exact has_retry.mp hg
        · exact hbuffer r (get_evictReasm hr)
    unfold stored storePart
    dsimp only
    split_ifs
    · exact UInt8.toBitVec_inj.mp (retry_kept _ (UInt8.toBitVec_inj.mpr hold))
    · exact hold
  cases h with
  | again _ _ _ _ hreasm hdeliver =>
    subst hdeliver
    refine ⟨fun d hd => ?_, hreasm ▸ hbuffer⟩
    split_ifs at hd
    · obtain rfl := Option.some.inj hd
      exact hg
    · cases hd
  | single _ _ _ _ hreasm =>
    refine ⟨?_, hreasm ▸ hbuffer⟩
    rintro _ ⟨rfl⟩
    exact hg
  | refused _ _ _ => exact ⟨fun d hd => (by cases hd), hbuffer⟩
  | kept _ _ _ _ _ _ hreasm =>
    refine ⟨fun d hd => (by cases hd), fun r hr => ?_⟩
    rw [hreasm, Table.get_set_self] at hr
    exact Option.some.inj hr ▸ hstored
  | finished _ _ _ _ _ _ hreasm =>
    refine ⟨?_, fun r hr => ?_⟩
    · rintro _ ⟨rfl⟩
      rw [has_retry, Reassembly.message, AircFrame.withFlags, AircFrame.new]
      simpa using hstored
    · rw [hreasm, Table.get_erase, if_pos rfl] at hr
      cases hr

/-- Along all arrivals of the frames of a message nothing is delivered as a retry. -/
theorem hearAll_retry {kind : Kind} {seq : UInt16} {payload : List UInt8} {reliable : Bool}
    {piggy : Option UInt16} {s : Sessions} {src : Callsign} {forUs : Bool} (hk : kind ≠ .ack)
    (hh : kind ≠ .hello) (hv : (message cfg kind seq payload reliable piggy).Valid)
    {arrivals : List (AircFrame × ℕ)}
    (honly : ∀ a ∈ arrivals, a.1 ∈ produced cfg kind seq payload reliable piggy)
    (hc : s.config = cfg) (hroom : HasRoom s src)
    (hbuffer : ∀ r, (s.record src).reasm.get seq = some r → r.flags &&& Flags.retry = 0) :
    ∀ d, some d ∈ (hearAll src forUs s arrivals).2 → d.has Flags.retry = false := by
  induction arrivals generalizing s with
  | nil => exact fun d hd => absurd hd List.not_mem_nil
  | cons a arrivals ih =>
    obtain ⟨p, g, hsame, -, harrives, hrecord, hdeliver, hconfig, hroom'⟩ :=
      @hear_eq cfg kind seq payload reliable piggy s src forUs hc hroom hk hh hv _
        (honly a List.mem_cons_self) a.2
    have htaken := receiveMessage_taken cfg p g a.2 forUs
    have hseq : g.seq = seq := harrives.fragment.seq
    obtain ⟨hnow, hlater⟩ := taken_retry htaken harrives.first (by rw [hseq, hsame.reasm]; exact hbuffer)
    rw [hseq, ← hrecord] at hlater
    intro d hd
    rcases List.mem_cons.mp hd with hd | hd
    · exact hnow d (hdeliver ▸ hd.symm)
    · exact ih (fun b hb => honly b (List.mem_cons_of_mem _ hb)) hconfig hroom' hlater d hd

/-! ### What is shown -/

theorem foldl_say (lines : List Text) (st : Station) :
    lines.foldl Station.say st = { st with output := st.output ++ lines.map stripTerminalControls } := by
  induction lines generalizing st with
  | nil => simp
  | cons line lines ih =>
    rw [List.foldl_cons, ih]
    simp [Station.say]

theorem protocolDest_service : Callsign.looksLikeAmateurCall protocolDest = false := by
  decide +kernel

variable {src : Callsign} {path : List Callsign} {ax : Ax25Frame} {f g : AircFrame} {taken : ℕ → Bool}

/-- The frame as it may be heard. A digipeater leaves its marks on the addresses, and no others. -/
structure CopyOf (sent heard : Ax25Frame) : Prop where
  source : heard.source.call = sent.source.call
  destination : heard.destination.call = sent.destination.call
  control : heard.control = sent.control
  pid : heard.pid = sent.pid
  info : heard.info = sent.info

instance (sent heard : Ax25Frame) : Decidable (CopyOf sent heard) :=
  decidable_of_iff (heard.source.call = sent.source.call ∧
      heard.destination.call = sent.destination.call ∧ heard.control = sent.control ∧
      heard.pid = sent.pid ∧ heard.info = sent.info)
    ⟨fun h => ⟨h.1, h.2.1, h.2.2.1, h.2.2.2.1, h.2.2.2.2⟩,
      fun h => ⟨h.source, h.destination, h.control, h.pid, h.info⟩⟩

theorem CopyOf.refl (sent : Ax25Frame) : CopyOf sent sent := ⟨rfl, rfl, rfl, rfl, rfl⟩

theorem ui_fields {dest : Callsign} {info : List UInt8}
    (h : Ax25Frame.ui src dest path info = some ax) :
    ax.source.call = src ∧ ax.destination.call = dest ∧ ax.info = info := by
  unfold Ax25Frame.ui at h
  split_ifs at h
  obtain rfl := Option.some.inj h
  exact ⟨rfl, rfl, rfl⟩

/-- A frame for everyone without an acknowledgement on it goes through the session layer, and what is
delivered is shown. -/
theorem handleRf_copy {dest : Callsign} {heard : Ax25Frame}
    (hax : Ax25Frame.ui src dest path f.encode = some ax) (hcopy : CopyOf ax heard)
    (hservice : Callsign.looksLikeAmateurCall dest = false) (hother : src ≠ st.call)
    (hdecode : AircFrame.decode f.encode = .ok g) (hk : g.kind ≠ .ack)
    (hnone : g.piggybackSeq = none) :
    let received := st.sessions.onReceive src g now (decide (dest = st.call))
    st.handleRf heard now taken = { st with
      lastRx := some now
      sessions := received.1
      output := st.output ++
        (received.2.deliver.toList.flatMap (shown st.quiet src)).map stripTerminalControls } := by
  obtain ⟨hsource, hdest, hinfo⟩ := ui_fields hax
  have htransmit : (st.sessions.onReceive src g now (decide (dest = st.call))).2.transmit = [] := by
    obtain ⟨-, heq⟩ | ⟨p, -, heq⟩ :=
      st.sessions.onReceive_cases src g now (decide (dest = st.call))
    · rw [heq]
      rfl
    · rw [heq]
      exact receive_silent hk hnone
  have htake : st.take src g (decide (dest = st.call)) now taken =
      ({ st with
        lastRx := some now
        sessions := (st.sessions.onReceive src g now (decide (dest = st.call))).1 },
        (st.sessions.onReceive src g now (decide (dest = st.call))).2.deliver) := by
    unfold Station.take
    dsimp only
    rw [htransmit]
    rfl
  have hforUs : ¬ (Callsign.looksLikeAmateurCall dest = true ∧ dest ≠ st.call) := by
    rw [hservice]
    simp
  unfold Station.handleRf
  dsimp only
  rw [hcopy.source, hcopy.destination, hcopy.info, hsource, hdest, hinfo, if_neg hother,
    if_neg hforUs, hdecode]
  dsimp only
  rw [htake]
  cases (st.sessions.onReceive src g now (decide (dest = st.call))).2.deliver with
  | none => simp
  | some d => simp [foldl_say]

/-- A broadcast of a station. -/
theorem handleRf_broadcast (hax : Ax25Frame.ui src protocolDest path f.encode = some ax)
    (hother : src ≠ st.call) (hdecode : AircFrame.decode f.encode = .ok g) (hk : g.kind ≠ .ack)
    (hnone : g.piggybackSeq = none) :
    let heard := hear src (decide (protocolDest = st.call)) st.sessions f.encode now
    st.handleRf ax now taken = { st with
      lastRx := some now
      sessions := heard.1
      output := st.output ++
        (heard.2.toList.flatMap (shown st.quiet src)).map stripTerminalControls } := by
  unfold hear
  rw [hdecode]
  exact handleRf_copy hax (.refl ax) protocolDest_service hother hdecode hk hnone

/-- A station hears frames, one after the other. -/
def overhear (taken : ℕ → Bool) (st : Station) (arrivals : List (Ax25Frame × ℕ)) : Station :=
  arrivals.foldl (fun st a => st.handleRf a.1 a.2 taken) st

/-- The frame on the air, at the same time. -/
def Broadcast (src : Callsign) (path : List Callsign) (a : Ax25Frame × ℕ) (b : AircFrame × ℕ) : Prop :=
  Ax25Frame.ui src protocolDest path b.1.encode = some a.1 ∧ a.2 = b.2

/-- The terminal shows what the session layer delivers. -/
theorem overhear_shown {seq : UInt16} {payload : List UInt8}
    (hv : (message cfg .msg seq payload false none).Valid) {arrivals : List (Ax25Frame × ℕ)}
    {frames : List (AircFrame × ℕ)} (hair : List.Forall₂ (Broadcast src path) arrivals frames)
    (honly : ∀ b ∈ frames, b.1 ∈ produced cfg .msg seq payload false none) (hother : src ≠ st.call) :
    let heard := hearAll src (decide (protocolDest = st.call)) st.sessions frames
    (overhear taken st arrivals).sent = st.sent ∧
    (overhear taken st arrivals).output = st.output ++
      (heard.2.flatMap fun d => d.toList.flatMap (shown st.quiet src)).map stripTerminalControls := by
  induction hair generalizing st with
  | nil => simp [overhear, hearAll]
  | @cons a b arrivals frames hab hrest ih =>
    have hb := honly b List.mem_cons_self
    obtain ⟨g, hdecode, -, harrives⟩ := produced_arrives hv hb
    have hk : g.kind ≠ .ack := by
      rw [harrives.fragment.kind]
      exact fun h => by cases h
    have hnone : g.piggybackSeq = none := by
      have hread := AtMostOnce.decode_fragment (produced_isFragment hv hb)
      rw [hread] at hdecode
      obtain rfl := Except.ok.inj hdecode
      exact @Message.piggybackSeq_of_mem (message cfg .msg seq payload false none) b.1 hb
    have hstep := @handleRf_broadcast st b.2 src path a.1 b.1 g taken hab.1 hother hdecode hk hnone
    rw [← hab.2] at hstep
    have hnext := @ih (st.handleRf a.1 a.2 taken) (fun e he => honly e (List.mem_cons_of_mem _ he))
      (by rw [hstep]; exact hother)
    rw [hstep] at hnext
    unfold overhear at hnext ⊢
    rw [List.foldl_cons, hstep]
    refine ⟨hnext.1, hnext.2.trans ?_⟩
    simp only [hearAll, List.flatMap_cons, List.map_append, List.append_assoc, hab.2]

/-- The frames that arrive are frames of the message. -/
theorem exists_frames {dest : Callsign} {frames : List AircFrame} {arrivals : List (Ax25Frame × ℕ)}
    (h : ∀ a ∈ arrivals, a.1 ∈ onAir src dest path frames) :
    ∃ heard : List (AircFrame × ℕ), (∀ b ∈ heard, b.1 ∈ frames) ∧
      List.Forall₂ (fun a b => Ax25Frame.ui src dest path b.1.encode = some a.1 ∧ a.2 = b.2)
        arrivals heard := by
  induction arrivals with
  | nil => exact ⟨[], fun b hb => absurd hb List.not_mem_nil, .nil⟩
  | cons a arrivals ih =>
    obtain ⟨heard, honly, hair⟩ := ih fun b hb => h b (List.mem_cons_of_mem _ hb)
    obtain ⟨f, hf, hui⟩ := List.mem_filterMap.mp (h a List.mem_cons_self)
    refine ⟨(f, a.2) :: heard, fun b hb => ?_, .cons ⟨hui, rfl⟩ hair⟩
    rcases List.mem_cons.mp hb with rfl | hb
    · exact hf
    · exact honly b hb

theorem exists_of_forall₂ {α β : Type*} {R : α → β → Prop} {l : List α} {m : List β}
    (h : List.Forall₂ R l m) {a : α} (ha : a ∈ l) : ∃ b ∈ m, R a b := by
  induction h with
  | nil => exact absurd ha List.not_mem_nil
  | @cons x y l m hxy hrest ih =>
    rcases List.mem_cons.mp ha with rfl | ha
    · exact ⟨y, List.mem_cons_self, hxy⟩
    · obtain ⟨b, hb, hab⟩ := ih ha
      exact ⟨b, List.mem_cons_of_mem _ hb, hab⟩

theorem info_of_ui {dest : Callsign} {info info' : List UInt8}
    (h : Ax25Frame.ui src dest path info = some ax) (h' : Ax25Frame.ui src dest path info' = some ax) :
    info = info' := by
  rw [← (ui_fields h).2.2, (ui_fields h').2.2]

/-- The frames of a message have different octets. -/
theorem produced_of_encode {kind : Kind} {seq : UInt16} {payload : List UInt8} {reliable : Bool}
    {piggy : Option UInt16} (hv : (message cfg kind seq payload reliable piggy).Valid)
    (hf : f ∈ produced cfg kind seq payload reliable piggy)
    (hg : g ∈ produced cfg kind seq payload reliable piggy) (h : f.encode = g.encode) : f = g := by
  obtain ⟨read, hread, hindex, -⟩ := produced_arrives hv hf
  obtain ⟨read', hread', hindex', -⟩ := produced_arrives hv hg
  rw [h, hread'] at hread
  obtain rfl := Except.ok.inj hread
  exact produced_injective hv hf hg (by rw [← hindex, hindex'])

/-- How a line for the channel is shown. -/
def chatLine (call : Callsign) (chan text : Text) : Text :=
  if (carried chan).head? = some '#' ∨ (carried chan).head? = some '&' then
    carried chan ++ " <" ++ Callsign.toNick call ++ "> " ++ carried text
  else "*" ++ Callsign.toNick call ++ "* " ++ carried text

theorem shown_chat {quiet : Bool} {chan text : Text} {d : AircFrame} (hkind : d.kind = .msg)
    (hfields : Bridge.fieldTexts d = [chan, text].map carried) (hretry : d.has Flags.retry = false) :
    shown quiet src d = [chatLine src chan text] := by
  unfold shown chatLine
  simp only [hkind, hfields, hretry]
  split_ifs <;> simp_all

/-- A line for the channel goes out as one broadcast. Every station that hears all its frames, in
any order and repeatedly, shows it once, without controls, separators and line breaks, and answers
nothing. -/
theorem chat_is_shown {line chan text : Text} (hline : Command.parse line = some (.chat text))
    (hchan : c.current = some chan) (hpath : c.station.path.length ≤ maxDigipeaters)
    (hrecord : c.station.sessions.hasRecordFor c.gateway = true)
    (hfew : (chunkPayload (textFields [chan, text]) c.station.sessions.config.maxPayload
      false).length ≤ 255) (hwindow : 1 ≤ c.station.sessions.config.dedupWindow) :
    ∃ frames : List Ax25Frame,
      (∀ now, (c.handleInput now (fun _ => true) line).1.station.sent = c.station.sent ++ frames) ∧
      ∀ (st : Station) (taken : ℕ → Bool) (arrivals : List (Ax25Frame × ℕ)),
        st.call ≠ c.station.call → st.sessions.config = c.station.sessions.config →
        Fresh st.sessions c.station.call c.station.sessions.nextSeq →
        HasRoom st.sessions c.station.call →
        (∀ a ∈ arrivals, a.1 ∈ frames) → (∀ ax ∈ frames, ax ∈ arrivals.map Prod.fst) →
        (overhear taken st arrivals).sent = st.sent ∧
        (overhear taken st arrivals).output =
          st.output ++ [stripTerminalControls (chatLine c.station.call chan text)] := by
  refine ⟨_, fun now => @handleInput_chat c now line chan text hline hchan hpath hrecord hfew, ?_⟩
  intro st taken arrivals hother hconfig hfresh hroom honly hall
  have hv := @message_valid c.station.sessions.config .msg c.station.sessions.nextSeq
    (textFields [chan, text]) false none (by simp) hfew
  obtain ⟨heard, hfrom, hair⟩ := exists_frames honly
  obtain ⟨hsent, houtput⟩ := @overhear_shown st _ c.station.call c.station.path taken
    c.station.sessions.nextSeq _ hv _ _ hair hfrom (Ne.symm hother)
  -- whatever arrived as a frame was one of the frames of the message
  have hcomplete : ∀ f ∈ chatFrames c chan text, f ∈ heard.map Prod.fst := by
    intro f hf
    obtain ⟨ax, hax⟩ := ui_isSome c.station.call protocolDest hpath f.encode
    obtain ⟨a, ha, rfl⟩ := List.mem_map.mp (hall ax (List.mem_filterMap.mpr ⟨f, hf, hax⟩))
    obtain ⟨b, hb, hui, -⟩ := exists_of_forall₂ hair ha
    rw [produced_of_encode hv hf (hfrom b hb) (info_of_ui hax hui)]
    exact List.mem_map_of_mem hb
  obtain ⟨d, hdelivered, hkind, -, hfields⟩ := @fields_put_together [chan, text] (by simp)
    c.station.sessions.config .msg (by simp) (by simp) c.station.sessions.nextSeq false none hfew
    hwindow st.sessions hconfig c.station.call hfresh hroom (decide (protocolDest = st.call)) heard
    hfrom hcomplete
  have hretry : d.has Flags.retry = false := by
    refine @hearAll_retry c.station.sessions.config .msg _ _ false none st.sessions c.station.call
      (decide (protocolDest = st.call)) (by simp) (by simp) hv heard hfrom hconfig hroom ?_ d ?_
    · intro r hr
      rw [hfresh.unbuffered] at hr
      cases hr
    · have hmem : d ∈ [d] := List.mem_singleton_self d
      rw [← hdelivered] at hmem
      simpa using hmem
  refine ⟨hsent, houtput.trans ?_⟩
  have hshown : (hearAll c.station.call (decide (protocolDest = st.call)) st.sessions heard).2.flatMap
      (fun d => d.toList.flatMap (shown st.quiet c.station.call)) =
        [d].flatMap (shown st.quiet c.station.call) := by
    rw [← hdelivered, List.filterMap_eq_flatMap_toList, List.flatMap_assoc]
    rfl
  rw [hshown, List.flatMap_singleton, shown_chat hkind hfields hretry]
  rfl

/-! ### An evening -/

def typist : Client :=
  { Args.new ⟨⟨"SM0ABC", 7⟩, ⟨"SK0MT", 1⟩, none, 16, [⟨"SK0AA", 1⟩], false⟩ 1 0 with current := some "#rf" }

def listener : Station :=
  ⟨⟨"SM0XYZ", 0⟩, [], true, .new { SessionConfig.default with paclen := 16 }, none, ["-- 73"], []⟩

/-- Two frames, the last of them first, and both repeated. -/
theorem chat_is_shown_reordered :
    ∃ frames : List Ax25Frame, frames.length = 2 ∧
      (overhear (fun _ => false) listener ((frames.reverse ++ frames).map (·, 5))).output =
        ["-- 73", "#rf <SM0ABC|7> good evening"] := by
  obtain ⟨frames, hsent, hshown⟩ := @chat_is_shown typist " good evening " "#rf" "good evening"
    (by decide +kernel) rfl (by decide) (by decide +kernel) (by decide +kernel) (by decide)
  have hframes := hsent 0
  obtain ⟨-, houtput⟩ := hshown listener (fun _ => false) ((frames.reverse ++ frames).map (·, 5))
    (by decide) rfl (by decide +kernel) (by decide +kernel)
    (by intro a ha; simp at ha; obtain ⟨ax, hax, rfl⟩ := ha; exact hax)
    (by intro ax hax; simpa using hax)
  refine ⟨frames, ?_, houtput.trans (by decide +kernel)⟩
  have hnone : typist.station.sent = [] := rfl
  rw [hnone, List.nil_append] at hframes
  rw [← hframes]
  decide +kernel

/-! ### Whom a nick means -/

variable {call : Callsign} {t : Text}

theorem fromStr_bar (hcall : Valid call) (h : Spells t call.base.toList) :
    Callsign.fromStr (t ++ '|' :: (toString call.ssid).toList) = none := by
  have hno : '-' ∉ t ++ '|' :: (toString call.ssid).toList := by
    rw [List.mem_append, List.mem_cons]
    rintro (hmem | hmem | hmem)
    · exact h.not_mem (by decide) hmem
    · exact absurd hmem (by decide)
    · exact absurd ((ssid_digits call.ssid hcall.ssid).1 _ hmem) (by decide)
  rw [Callsign.fromStr, splitOnce_of_not_mem hno]
  exact new_of_odd (numbered_visible hcall h (by decide))
    (List.mem_append_right t List.mem_cons_self) (by decide) 0

theorem fromStr_word (hcall : Valid call) (h : Spells t call.base.toList) (hzero : call.ssid = 0) :
    Callsign.fromStr t = some call := by
  have hnew := h.new hcall
  rw [hzero] at hnew
  rw [Callsign.fromStr, splitOnce_of_not_mem (h.not_mem (by decide))]
  exact hnew

theorem rfDest_of_str (hlooks : Callsign.looksLikeAmateurCall call = true)
    (h : Callsign.fromStr t = some call) : rfDest t = some call := by
  rw [rfDest, h, Option.some_or, Option.filter_some, if_pos hlooks]

theorem rfDest_of_nick (hlooks : Callsign.looksLikeAmateurCall call = true)
    (hstr : Callsign.fromStr t = none) (h : Callsign.fromNick t = some call) :
    rfDest t = some call := by
  rw [rfDest, hstr, h, Option.none_or, Option.filter_some, if_pos hlooks]

theorem rfDest_toNick (hcall : Valid call) (hlooks : Callsign.looksLikeAmateurCall call = true) :
    rfDest (Callsign.toNick call) = some call := by
  unfold Callsign.toNick
  split_ifs with hzero
  · exact rfDest_of_str hlooks (fromStr_word hcall (spells_self hcall) hzero)
  · exact rfDest_of_nick hlooks (fromStr_bar hcall (spells_self hcall))
      (fromNick_bar hcall (spells_self hcall))

/-- What is sent directly is a spelling of a callsign, and so no user's nick. -/
theorem reserved_of_rfDest (h : rfDest t = some call) : (reservedFromNick t).isSome = true := by
  obtain ⟨hsome, hlooks⟩ := Option.filter_eq_some_iff.mp h
  rw [reservedFromNick, List.find?_isSome]
  refine ⟨call, List.mem_filterMap.mpr ⟨some call, ?_, rfl⟩, hlooks⟩
  rcases Option.or_eq_some_iff.mp hsome with hstr | ⟨-, hnick⟩
  · simp [hstr]
  · simp [hnick]

theorem space_not_mem_toNick (hcall : Valid call) : ' ' ∉ Callsign.toNick call := by
  unfold Callsign.toNick
  have hbase : ' ' ∉ call.base.toList := (spells_self hcall).not_mem (by decide)
  split_ifs
  · exact hbase
  · rw [List.mem_append, List.mem_cons]
    rintro (hmem | hmem | hmem)
    · exact hbase hmem
    · exact absurd hmem (by decide)
    · exact absurd ((ssid_digits call.ssid hcall.ssid).1 _ hmem) (by decide)

theorem obey_msg {who text : Text} (hspace : ' ' ∉ who) (htext : text ≠ []) (c : Client) (now : ℕ)
    (taken : ℕ → Bool) :
    (c.obey now taken (.msg (who ++ ' ' :: text))).1 =
      (c.sendTo now taken ((rfDest who).getD c.gateway) .msg [who, text] true).say
        ("-> " ++ who ++ ": " ++ text) := by
  dsimp only [Client.obey]
  rw [splitOnce_append hspace]
  dsimp only
  rw [if_neg htext]
  cases rfDest who <;> rfl

/-- A callsign is understood in either spelling and any letter case. The nick under which a station
is shown is its address, and every nick that the gateway gives to a user goes to the gateway. -/
theorem nicks_are_addresses :
    (∀ call, Valid call → Callsign.looksLikeAmateurCall call = true →
      ∀ t, Spells t call.base.toList → (∀ c ∈ ['|', '-'],
        rfDest (t ++ c :: (toString call.ssid).toList) = some call) ∧
        (call.ssid = 0 → rfDest t = some call)) ∧
    (∀ call, Valid call → Callsign.looksLikeAmateurCall call = true → ∀ (c : Client) now taken text,
      text ≠ [] → (c.obey now taken (.msg (Callsign.toNick call ++ ' ' :: text))).1 =
        (c.sendTo now taken call .msg [Callsign.toNick call, text] true).say
          ("-> " ++ Callsign.toNick call ++ ": " ++ text)) ∧
    (∀ nick, reservedFromNick nick = none → ' ' ∉ nick → ∀ (c : Client) now taken text, text ≠ [] →
      (c.obey now taken (.msg (nick ++ ' ' :: text))).1 =
        (c.send now taken .msg [nick, text] true).say ("-> " ++ nick ++ ": " ++ text)) := by
  refine ⟨?_, ?_, ?_⟩
  · intro call hcall hlooks t ht
    refine ⟨?_, fun hzero => rfDest_of_str hlooks (fromStr_word hcall ht hzero)⟩
    intro c hc
    rcases List.mem_cons.mp hc with rfl | hc
    · exact rfDest_of_nick hlooks (fromStr_bar hcall ht) (fromNick_bar hcall ht)
    · obtain rfl := List.mem_singleton.mp hc
      exact rfDest_of_str hlooks (fromStr_dash hcall ht)
  · intro call hcall hlooks c now taken text htext
    rw [obey_msg (space_not_mem_toNick hcall) htext, rfDest_toNick hcall hlooks]
    rfl
  · intro nick hfree hspace c now taken text htext
    have hnone : rfDest nick = none := by
      cases hdest : rfDest nick with
      | none => rfl
      | some call =>
        have hreserved := reserved_of_rfDest hdest
        rw [hfree] at hreserved
        cases hreserved
    rw [obey_msg hspace htext, hnone]
    rfl

end StationChat
