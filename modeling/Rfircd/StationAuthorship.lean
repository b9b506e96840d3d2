import Rfircd.AircCodec
import Rfircd.FieldLists
import Rfircd.SessionOrigins
import Rfircd.StationClient

/-! Everything that a station puts on the air was typed by its operator, says HELLO, or acknowledges
what another station addressed to it. -/
namespace StationAuthorship

open Airc AircSession AirTrace Ax25 Basics FragmentBuffers RoundTrip SessionOrigins
open MessageText StationClient StationDisplay TransitionSystem

/-! ### What a frame carries -/

def requestMessage (cfg : SessionConfig) (r : Request) (seq : UInt16) (cut : Bool) : Message :=
  ⟨r.kind, seq, r.reliable, textFields r.fields, chunkPayload (textFields r.fields) cfg.maxPayload cut⟩

/-- A part of what was asked for, as another station reads it. -/
structure PartOf (cfg : SessionConfig) (r : Request) (f : AircFrame) : Prop where
  fragment : ∃ seq cut, (requestMessage cfg r seq cut).IsFragment f
  wantsAck : f.wantsAck = r.reliable
  retry : f.has Flags.retry = true → r.reliable = true

/-- A station asked that the message be acknowledged. -/
def Asked (heard : List Ax25Frame) (call : Callsign) (seq : UInt16) : Prop :=
  ∃ ax ∈ heard, ax.source.call = call ∧
    ∃ f, AircFrame.decode ax.info = .ok f ∧ f.seq = seq ∧ f.wantsAck = true

/-- The message was addressed to us. -/
def Addressed (own : Callsign) (heard : List Ax25Frame) (call : Callsign) (seq : UInt16) : Prop :=
  ∃ ax ∈ heard, ax.source.call = call ∧ ax.destination.call = own ∧
    ∃ f, AircFrame.decode ax.info = .ok f ∧ f.seq = seq

def Owed (own : Callsign) (heard : List Ax25Frame) (call : Callsign) (seq : UInt16) : Prop :=
  Asked heard call seq ∧ Addressed own heard call seq

/-- Why a frame was sent. -/
structure Accounted (args : Args) (requests : List Request) (heard : List Ax25Frame)
    (ax : Ax25Frame) : Prop where
  source : ax.source.call = args.call
  path : ax.digipeaters.map Address.call = args.path
  pid : ax.pid = some pidNoL3
  content : ∃ f, AircFrame.decode ax.info = .ok f ∧
    ((∃ r ∈ requests, ax.destination.call = r.dest ∧ PartOf args.config r f) ∨
      f.kind = .ack ∧ FrameLimit.Short args.config f ∧ f.piggybackSeq = none ∧
        ∃ seq bitmap, parseAckPayload f.payload = some (seq, bitmap) ∧
          Owed args.call heard ax.destination.call seq) ∧
    ∀ seq, f.piggybackSeq = some seq → Owed args.call heard ax.destination.call seq

variable {args : Args} {requests requests' : List Request} {heard heard' : List Ax25Frame}
variable {call : Callsign} {seq : UInt16} {ax : Ax25Frame} {f : AircFrame} {r : Request}

theorem Asked.mono (h : Asked heard call seq) (hsub : heard ⊆ heard') : Asked heard' call seq := by
  obtain ⟨ax, hax, hrest⟩ := h
  exact ⟨ax, hsub hax, hrest⟩

theorem Addressed.mono {own : Callsign} (h : Addressed own heard call seq) (hsub : heard ⊆ heard') :
    Addressed own heard' call seq := by
  obtain ⟨ax, hax, hrest⟩ := h
  exact ⟨ax, hsub hax, hrest⟩

theorem Owed.mono {own : Callsign} (h : Owed own heard call seq) (hsub : heard ⊆ heard') :
    Owed own heard' call seq :=
  ⟨h.1.mono hsub, h.2.mono hsub⟩

theorem Accounted.mono (h : Accounted args requests heard ax) (hreq : requests ⊆ requests')
    (hsub : heard ⊆ heard') : Accounted args requests' heard' ax := by
  obtain ⟨f, hdecode, hwhy, hpiggy⟩ := h.content
  refine ⟨h.source, h.path, h.pid, f, hdecode, ?_, fun seq hseq => (hpiggy seq hseq).mono hsub⟩
  rcases hwhy with ⟨r, hr, hpart⟩ | ⟨hk, hshort, hnone, seq, bitmap, hparse, howed⟩
  · exact .inl ⟨r, hreq hr, hpart⟩
  · exact .inr ⟨hk, hshort, hnone, seq, bitmap, hparse, howed.mono hsub⟩

/-! ### From the session layer to the air -/

/-- A fragment as it was cut. -/
def Cut (cfg : SessionConfig) (r : Request) (f : AircFrame) : Prop :=
  ∃ seq cut, (requestMessage cfg r seq cut).parts.length ≤ 255 ∧
    f ∈ (requestMessage cfg r seq cut).frames

/-- What the flags of a fragment say once it was read, the first time and again. -/
theorem flags_on_air : ∀ reliable carried again : Bool,
    let cut := if reliable then Flags.ackReq else 0
    let sent := if again then cut ||| Flags.retry else cut
    let read := if carried then (sent ||| Flags.piggyack) &&& ~~~Flags.piggyack ||| Flags.piggyack
      else sent &&& ~~~Flags.piggyack
    (read &&& Flags.ackReq != 0) = reliable ∧ (read &&& Flags.retry != 0) = again := by
  decide

/-- A fragment goes out again, or with an acknowledgement. -/
def onAir (again : Bool) (acked : Option UInt16) (g : AircFrame) : AircFrame :=
  let g := if again then retryFrame g else g
  (acked.map g.attachPiggyback).getD g

/-- The octets of a fragment are read as a part of the message. -/
theorem read_part (hk : r.kind ≠ .ack) (hcut : Cut args.config r f) {again : Bool}
    (hagain : again = true → r.reliable = true) (acked : Option UInt16) :
    ∃ d, AircFrame.decode (onAir again acked f).encode = .ok d ∧ PartOf args.config r d ∧
      d.piggybackSeq = acked := by
  obtain ⟨seq, cut, hfew, hmem⟩ := hcut
  have hv : (requestMessage args.config r seq cut).Valid :=
    ⟨hk, chunkPayload_ne_nil _ _ _, hfew, chunkPayload_flatten (maxPayload_pos _) _ _⟩
  have hcut : (requestMessage args.config r seq cut).IsFragment f := Message.isFragment_of_mem hv hmem
  have hnone : f.piggybackSeq = none := Message.piggybackSeq_of_mem hmem
  have hflags : f.flags = if r.reliable then Flags.ackReq else 0 := by
    obtain ⟨i, hi, rfl⟩ := List.mem_mapIdx.mp hmem
    rfl
  have hfragment : (requestMessage args.config r seq cut).IsFragment (onAir again acked f) := by
    cases again <;> cases acked
    · exact hcut
    · exact hcut.piggyback _
    · exact hcut.retry
    · exact hcut.retry.piggyback _
  have hlt : (onAir again acked f).fragIndex < (onAir again acked f).fragTotal := by
    have hpart := (List.getElem?_eq_some_iff.mp hfragment.part).1
    rw [← hfragment.total] at hpart
    exact UInt8.lt_iff_toNat_lt.mpr hpart
  have hpiggy : (onAir again acked f).piggybackSeq = acked := by
    cases again <;> cases acked
    · exact hnone
    · rfl
    · exact hnone
    · rfl
  obtain ⟨hwants, hretry⟩ := flags_on_air r.reliable acked.isSome again
  have hread : (onAir again acked f).wireFlags =
      if acked.isSome then ((if again then (if r.reliable then Flags.ackReq else 0) ||| Flags.retry
          else if r.reliable then Flags.ackReq else 0) ||| Flags.piggyack) &&& ~~~Flags.piggyack |||
        Flags.piggyack
      else (if again then (if r.reliable then Flags.ackReq else 0) ||| Flags.retry
          else if r.reliable then Flags.ackReq else 0) &&& ~~~Flags.piggyack := by
    rw [AircFrame.wireFlags, hpiggy, ← hflags]
    cases again <;> cases acked <;> rfl
  refine ⟨_, decode_encode hlt, ⟨⟨seq, cut, ?_⟩, ?_, fun h => hagain ?_⟩, hpiggy⟩
  · exact ⟨hfragment.kind, hfragment.seq, hfragment.total, hfragment.part⟩
  · rw [AircFrame.wantsAck, AircFrame.has, hread]
    exact hwants
  · rw [AircFrame.has, hread] at h
    exact hretry.symm.trans h

theorem read_ack (o : OwedAck) : ∃ d, AircFrame.decode o.toFrame.encode = .ok d ∧ d.kind = .ack ∧
    (∃ bitmap, parseAckPayload d.payload = some (o.seq, bitmap)) ∧ d.piggybackSeq = none ∧
    d.payload = o.toFrame.payload := by
  rcases o with ⟨seq, - | bits⟩
  · refine ⟨_, decode_encode (show (0 : UInt8) < 1 by decide), rfl, ⟨none, ?_⟩, rfl, rfl⟩
    simp [OwedAck.toFrame, ackFor, AircFrame.new, toBeBytes, parseAckPayload, fromBeBytes_toBeBytes]
  · refine ⟨_, decode_encode (show (0 : UInt8) < 1 by decide), rfl, ?_, rfl, rfl⟩
    cases bits <;> simp [OwedAck.toFrame, ackWithBitmap, AircFrame.new, toBeBytes, parseAckPayload,
      fromBeBytes_toBeBytes]

theorem ui_spec {dest : Callsign} {info : List UInt8}
    (h : Ax25Frame.ui args.call dest args.path info = some ax) :
    ax.source.call = args.call ∧ ax.destination.call = dest ∧
      ax.digipeaters.map Address.call = args.path ∧ ax.pid = some pidNoL3 ∧ ax.info = info := by
  unfold Ax25Frame.ui at h
  split_ifs at h
  obtain rfl := Option.some.inj h
  refine ⟨rfl, rfl, ?_, rfl, rfl⟩
  rw [List.map_map]
  exact List.map_id args.path

/-- What waits for a station is what was asked for. -/
def Waiting (args : Args) (requests : List Request) (call : Callsign) (f : AircFrame) : Prop :=
  ∃ r ∈ requests, r.dest = call ∧ r.kind ≠ .ack ∧ r.reliable = true ∧ Cut args.config r f

theorem accounted_part (hr : r ∈ requests) (hk : r.kind ≠ .ack) (hcut : Cut args.config r f)
    {again : Bool} (hagain : again = true → r.reliable = true) {acked : Option UInt16}
    (howed : ∀ n ∈ acked, Owed args.call heard r.dest n)
    (hax : Ax25Frame.ui args.call r.dest args.path (onAir again acked f).encode = some ax) :
    Accounted args requests heard ax := by
  obtain ⟨hsource, hdest, hpath, hpid, hinfo⟩ := ui_spec hax
  obtain ⟨d, hd, hpart, hpiggy⟩ := read_part hk hcut hagain acked
  refine ⟨hsource, hpath, hpid, d, hinfo ▸ hd, .inl ⟨r, hr, hdest, hpart⟩, fun n hn => ?_⟩
  rw [hdest]
  exact howed n (hpiggy ▸ hn)

theorem accounted_outgoing {e : Callsign × AircFrame}
    (h : Sends (Waiting args requests) (Asked heard) (Addressed args.call heard) e)
    (hshort : FrameLimit.Short args.config e.2)
    (hax : Ax25Frame.ui args.call e.1 args.path e.2.encode = some ax) :
    Accounted args requests heard ax := by
  obtain ⟨call, f⟩ := e
  unfold Sends at h
  dsimp only at h hax hshort
  cases h with
  | first _ hg =>
    obtain ⟨r, hr, rfl, hk, -, hcut⟩ := hg
    exact @accounted_part args requests heard ax f r hr hk hcut false (by simp) none (by simp) hax
  | again g hg =>
    obtain ⟨r, hr, rfl, hk, hreliable, hcut⟩ := hg
    exact @accounted_part args requests heard ax g r hr hk hcut true (fun _ => hreliable) none
      (by simp) hax
  | acking g acked hg ho =>
    obtain ⟨r, hr, rfl, hk, -, hcut⟩ := hg
    refine @accounted_part args requests heard ax g r hr hk hcut false (by simp) (some acked) ?_ hax
    rintro _ ⟨rfl⟩
    exact ho
  | ack o ho =>
    obtain ⟨hsource, hdest, hpath, hpid, hinfo⟩ := ui_spec hax
    obtain ⟨d, hd, hk, ⟨bitmap, hparse⟩, hpiggy, hpayload⟩ := read_ack o
    have hlength : FrameLimit.Short args.config d := by
      unfold FrameLimit.Short at hshort ⊢
      rwa [hpayload]
    refine ⟨hsource, hpath, hpid, d, hinfo ▸ hd,
      .inr ⟨hk, hlength, hpiggy, o.seq, bitmap, hparse, hdest ▸ ho⟩, ?_⟩
    intro n hn
    rw [hpiggy] at hn
    cases hn

/-! ### The station -/

/-- Frames go out from under a station that stays the same otherwise. -/
structure Transmits (frames : List (Callsign × AircFrame)) (st st' : Station) : Prop where
  call : st'.call = st.call
  path : st'.path = st.path
  quiet : st'.quiet = st.quiet
  sessions : st'.sessions = st.sessions
  lastRx : st'.lastRx = st.lastRx
  sent : ∀ ax ∈ st'.sent, ax ∈ st.sent ∨
    ∃ e ∈ frames, Ax25Frame.ui st.call e.1 st.path e.2.encode = some ax

theorem Transmits.refl (st : Station) : Transmits [] st st :=
  ⟨rfl, rfl, rfl, rfl, rfl, fun _ hax => .inl hax⟩

theorem Transmits.trans {frames frames' : List (Callsign × AircFrame)} {st st' st'' : Station}
    (h : Transmits frames st st') (h' : Transmits frames' st' st'') :
    Transmits (frames ++ frames') st st'' where
  call := h'.call.trans h.call
  path := h'.path.trans h.path
  quiet := h'.quiet.trans h.quiet
  sessions := h'.sessions.trans h.sessions
  lastRx := h'.lastRx.trans h.lastRx
  sent ax hax := by
    rcases h'.sent ax hax with hax | ⟨e, he, hui⟩
    · rcases h.sent ax hax with hax | ⟨e, he, hui⟩
      · exact .inl hax
      · exact .inr ⟨e, List.mem_append_left _ he, hui⟩
    · exact .inr ⟨e, List.mem_append_right _ he, h.call ▸ h.path ▸ hui⟩

theorem transmitTo_transmits (st : Station) (taken : Bool) (e : Callsign × AircFrame) :
    Transmits [e] st (st.transmitTo taken e.1 e.2) := by
  unfold Station.transmitTo
  split
  · rename_i ax hax
    split_ifs
    · refine ⟨rfl, rfl, rfl, rfl, rfl, fun ax' hax' => ?_⟩
      rcases List.mem_append.mp hax' with hax' | hax'
      · exact .inl hax'
      · rw [List.mem_singleton.mp hax']
        exact .inr ⟨e, List.mem_singleton_self e, hax⟩
    · exact ⟨rfl, rfl, rfl, rfl, rfl, fun _ hax => .inl hax⟩
  · exact ⟨rfl, rfl, rfl, rfl, rfl, fun _ hax => .inl hax⟩

theorem foldl_transmits (taken : ℕ → Bool) (frames : List (Callsign × AircFrame)) (st : Station)
    (n : ℕ) : Transmits frames st
      ((frames.zipIdx n).foldl (fun st e => st.transmitTo (taken e.2) e.1.1 e.1.2) st) := by
  induction frames generalizing st n with
  | nil => exact .refl st
  | cons e frames ih =>
    rw [List.zipIdx_cons, List.foldl_cons]
    exact (transmitTo_transmits st (taken n) e).trans (ih _ _)

theorem transmitAll_transmits (st : Station) (taken : ℕ → Bool)
    (frames : List (Callsign × AircFrame)) : Transmits frames st (transmitAll st taken frames) :=
  foldl_transmits taken frames st 0

/-- What a reception answers is one list of frames to the station that was heard. -/
theorem take_transmits (st : Station) (src : Callsign) (f : AircFrame) (ours : Bool) (now : ℕ)
    (taken : ℕ → Bool) :
    Transmits ((st.sessions.onReceive src f now ours).2.transmit.map (src, ·))
      { st with lastRx := some now, sessions := (st.sessions.onReceive src f now ours).1 }
      (st.take src f ours now taken).1 := by
  have h := transmitAll_transmits
    { st with lastRx := some now, sessions := (st.sessions.onReceive src f now ours).1 } taken
    ((st.sessions.onReceive src f now ours).2.transmit.map (src, ·))
  unfold transmitAll at h
  rw [List.zipIdx_map, List.foldl_map] at h
  exact h

/-- Lines for the terminal change nothing that goes out. -/
theorem say_transmits (st : Station) (line : Text) : Transmits [] st (st.say line) :=
  ⟨rfl, rfl, rfl, rfl, rfl, fun _ hax => .inl hax⟩

theorem shown_transmits (lines : List Text) (st : Station) :
    Transmits [] st (lines.foldl Station.say st) := by
  induction lines generalizing st with
  | nil => exact .refl st
  | cons line lines ih => exact (say_transmits st line).trans (ih _)

/-! ### The client -/

/-- All that went out and all that waits is accounted for. -/
structure Good (args : Args) (requests : List Request) (heard : List Ax25Frame) (c : Client) :
    Prop where
  call : c.station.call = args.call
  path : c.station.path = args.path
  gateway : c.gateway = args.gateway
  config : c.station.sessions.config = args.config
  kept : AllKept (Waiting args requests) (Asked heard) (Addressed args.call heard) c.station.sessions
  small : FrameLimit.AllSmall c.station.sessions
  hello : ⟨args.gateway, .hello, ["rfirc-station/1", epochText c.epoch], true⟩ ∈ requests
  sent : ∀ ax ∈ c.station.sent, Accounted args requests heard ax

variable {c c' : Client} {now : ℕ} {taken : ℕ → Bool}

theorem Good.mono (h : Good args requests heard c) (hreq : requests ⊆ requests')
    (hsub : heard ⊆ heard') : Good args requests' heard' c where
  call := h.call
  path := h.path
  gateway := h.gateway
  config := h.config
  kept := by
    refine h.kept.mono ?_ (fun _ _ ha => ha.mono hsub) (fun _ _ ha => ha.mono hsub)
    rintro call f ⟨r, hr, hrest⟩
    exact ⟨r, hreq hr, hrest⟩
  small := h.small
  hello := hreq h.hello
  sent ax hax := (h.sent ax hax).mono hreq hsub

/-- Frames that are accounted for go out, perhaps under another state of the sessions. -/
theorem Good.after (h : Good args requests heard c) {st : Station}
    {frames : List (Callsign × AircFrame)} (hgateway : c'.gateway = c.gateway)
    (hepoch : c'.epoch = c.epoch) (hst : Transmits frames st c'.station) (hcall : st.call = c.station.call)
    (hpath : st.path = c.station.path) (hsent : st.sent = c.station.sent)
    (hconfig : st.sessions.config = args.config)
    (hkept : AllKept (Waiting args requests) (Asked heard) (Addressed args.call heard) st.sessions)
    (hsmall : FrameLimit.AllSmall st.sessions)
    (hframes : ∀ e ∈ frames, ∀ ax, Ax25Frame.ui args.call e.1 args.path e.2.encode = some ax →
      Accounted args requests heard ax) :
    Good args requests heard c' where
  call := (hst.call.trans hcall).trans h.call
  path := (hst.path.trans hpath).trans h.path
  gateway := hgateway.trans h.gateway
  config := hst.sessions ▸ hconfig
  kept := hst.sessions ▸ hkept
  small := hst.sessions ▸ hsmall
  hello := hepoch ▸ h.hello
  sent ax hax := by
    rcases hst.sent ax hax with hax | ⟨e, he, hui⟩
    · exact h.sent ax (hsent ▸ hax)
    · rw [hcall, h.call, hpath, h.path] at hui
      exact hframes e he ax hui

/-- Only what the operator sees, or what the next line is about, is different. -/
theorem Good.same (h : Good args requests heard c) (hgateway : c'.gateway = c.gateway)
    (hepoch : c'.epoch = c.epoch) (hst : Transmits [] c.station c'.station) :
    Good args requests heard c' :=
  h.after hgateway hepoch hst rfl rfl rfl h.config h.kept h.small fun _ he => absurd he List.not_mem_nil

theorem Good.transmit (h : Good args requests heard c) {sessions : Sessions}
    {frames : List (Callsign × AircFrame)} (hconfig : sessions.config = args.config)
    (hkept : AllKept (Waiting args requests) (Asked heard) (Addressed args.call heard) sessions)
    (hsmall : FrameLimit.AllSmall sessions)
    (hframes : ∀ e ∈ frames, ∀ ax, Ax25Frame.ui args.call e.1 args.path e.2.encode = some ax →
      Accounted args requests heard ax) :
    Good args requests heard (c.transmit taken sessions frames) :=
  h.after rfl rfl (transmitAll_transmits { c.station with sessions := sessions } taken frames) rfl rfl rfl
    hconfig hkept hsmall hframes

theorem drainAcks_config (s : Sessions) : s.drainAcks.1.config = s.config := rfl

theorem onReceive_config (s : Sessions) (src : Callsign) (f : AircFrame) (now : ℕ) (forUs : Bool) :
    (s.onReceive src f now forUs).1.config = s.config := by
  obtain ⟨-, heq⟩ | ⟨p, -, heq⟩ := s.onReceive_cases src f now forUs
  · rw [heq]
  · rw [heq]
    rfl

theorem onKeyed_config (s : Sessions) (dest : Callsign) (seq : UInt16) (now : ℕ) :
    (s.onKeyed dest seq now).config = s.config := by
  unfold Sessions.onKeyed
  cases s.peers.get dest <;> rfl

/-- A request is handed to the session layer, which may keep it in another station's record. -/
theorem Good.enqueue (h : Good args requests heard c) (hr : r ∈ requests) (hk : r.kind ≠ .ack)
    (peer : Callsign) (hpeer : r.reliable = true → peer = r.dest) (now : ℕ) :
    AllKept (Waiting args requests) (Asked heard) (Addressed args.call heard)
      (c.station.sessions.enqueue peer r.kind (textFields r.fields) r.reliable now).1 ∧
    ∀ f ∈ (c.station.sessions.enqueue peer r.kind (textFields r.fields) r.reliable now).2.frames,
      ∀ ax, Ax25Frame.ui args.call r.dest args.path f.encode = some ax →
        Accounted args requests heard ax := by
  have hmade : ∀ seq cut,
      (chunkPayload (textFields r.fields) c.station.sessions.config.maxPayload cut).length ≤ 255 →
      ∀ f ∈ fragments r.kind seq r.reliable
        (chunkPayload (textFields r.fields) c.station.sessions.config.maxPayload cut),
      Cut args.config r f := by
    intro seq cut hfew f hf
    rw [h.config] at hfew hf
    exact ⟨seq, cut, hfew, hf⟩
  obtain ⟨hkept, hframes⟩ := h.kept.enqueue peer now hmade fun hreliable f hf =>
    ⟨r, hr, (hpeer hreliable).symm, hk, hreliable, hf⟩
  refine ⟨hkept, fun f hf ax hax => ?_⟩
  rcases hframes f hf with hcut | ⟨hreliable, g, acked, hcut, howed, rfl⟩
  · exact @accounted_part args requests heard ax f r hr hk hcut false (by simp) none (by simp) hax
  · refine @accounted_part args requests heard ax g r hr hk hcut false (by simp) (some acked) ?_ hax
    rintro _ ⟨rfl⟩
    exact hpeer hreliable ▸ howed

theorem sendTo_eq (c : Client) (now : ℕ) (taken : ℕ → Bool) (dest : Callsign) (kind : Kind)
    (fields : List Text) (reliable : Bool) :
    let sent := c.station.sessions.enqueue dest kind (textFields fields) reliable now
    c.sendTo now taken dest kind fields reliable =
      c.transmit taken sent.1.drainAcks.1 (sent.2.frames.map (dest, ·) ++ sent.1.drainAcks.2) := rfl

theorem Good.sendTo (h : Good args requests heard c) (hr : r ∈ requests) (hk : r.kind ≠ .ack) :
    Good args requests heard (c.sendTo now taken r.dest r.kind r.fields r.reliable) := by
  obtain ⟨hkept, hframes⟩ := h.enqueue hr hk r.dest (fun _ => rfl) now
  obtain ⟨hdrained, hacks⟩ := hkept.drainAcks
  obtain ⟨hsmall, hconfig, -⟩ := @FrameLimit.enqueue_allSmall now _ h.small r.dest r.kind
    (textFields r.fields) r.reliable
  obtain ⟨hdrainedSmall, hshort⟩ := FrameLimit.drainAcks_allSmall hsmall
  rw [hconfig, h.config] at hshort
  rw [sendTo_eq]
  refine h.transmit ((drainAcks_config _).trans (hconfig.trans h.config)) hdrained hdrainedSmall
    fun e he ax hax => ?_
  rcases List.mem_append.mp he with he | he
  · obtain ⟨f, hf, rfl⟩ := List.mem_map.mp he
    exact hframes f hf ax hax
  · exact accounted_outgoing (hacks e he) (hshort e he) hax

theorem sendChat_eq (c : Client) (now : ℕ) (taken : ℕ → Bool) (fields : List Text) :
    let sent := c.station.sessions.enqueue c.gateway .msg (textFields fields) false now
    c.sendChat now taken fields =
      c.transmit taken sent.1 (sent.2.frames.map (protocolDest, ·)) := rfl

theorem Good.sendChat (h : Good args requests heard c) {fields : List Text}
    (hr : ⟨protocolDest, .msg, fields, false⟩ ∈ requests) :
    Good args requests heard (c.sendChat now taken fields) := by
  obtain ⟨hkept, hframes⟩ := h.enqueue hr (by simp) c.gateway (by simp) now
  obtain ⟨hsmall, hconfig, -⟩ := @FrameLimit.enqueue_allSmall now _ h.small c.gateway .msg
    (textFields fields) false
  rw [sendChat_eq]
  refine h.transmit (hconfig.trans h.config) hkept hsmall fun e he ax hax => ?_
  obtain ⟨f, hf, rfl⟩ := List.mem_map.mp he
  exact hframes f hf ax hax

/-! ### What is typed -/

theorem kind_requests {gateway : Callsign} {current : Option Text} {cmd : Command}
    (hr : r ∈ cmd.requests gateway current) : r.kind ≠ .ack := by
  have habout : ∀ kind chan, kind ≠ .ack → r ∈ aboutChannel gateway kind chan → r.kind ≠ .ack := by
    intro kind chan hk hr
    unfold aboutChannel at hr
    split_ifs at hr
    · cases hr
    · rw [List.mem_singleton.mp hr]
      exact hk
  cases cmd with
  | quit reason => rw [List.mem_singleton.mp hr]; simp
  | join chan => exact habout .join chan (by simp) hr
  | part chan => exact habout .part _ (by simp) hr
  | names chan => exact habout .names _ (by simp) hr
  | msg rest =>
    obtain ⟨p, -, rfl⟩ := List.mem_map.mp hr
    simp
  | ping => rw [List.mem_singleton.mp hr]; simp
  | help => cases hr
  | unknown cmd => cases hr
  | chat line =>
    obtain ⟨chan, -, rfl⟩ := List.mem_map.mp hr
    simp

theorem Good.say (h : Good args requests heard c) (line : Text) :
    Good args requests heard (c.say line) :=
  h.same rfl rfl (say_transmits c.station line)

/-- A request to the gateway. -/
theorem Good.send (h : Good args requests heard c) {kind : Kind} {fields : List Text}
    {reliable : Bool} (hr : ⟨args.gateway, kind, fields, reliable⟩ ∈ requests) (hk : kind ≠ .ack) :
    Good args requests heard (c.send now taken kind fields reliable) := by
  have hgood := @Good.sendTo args requests heard _ c now taken h hr hk
  unfold Client.send
  rw [h.gateway]
  exact hgood

/-- A command about a channel asks for one message, unless no channel is meant. -/
theorem Good.aboutChannel (h : Good args requests heard c) {kind : Kind} {chan : Text}
    (hsub : aboutChannel args.gateway kind chan ⊆ requests) (hk : kind ≠ .ack) (hne : chan ≠ []) :
    Good args requests heard (c.send now taken kind [chan] true) := by
  rw [StationClient.aboutChannel, if_neg hne] at hsub
  exact h.send (hsub (List.mem_singleton_self _)) hk

theorem Good.obey (h : Good args requests heard c) (cmd : Command)
    (hsub : cmd.requests args.gateway c.current ⊆ requests) :
    Good args requests heard (c.obey now taken cmd).1 := by
  cases cmd with
  | quit reason =>
    dsimp only [Client.obey, Command.requests] at hsub ⊢
    exact h.send (hsub (List.mem_singleton_self _)) (by simp)
  | join chan =>
    dsimp only [Client.obey, Command.requests] at hsub ⊢
    split_ifs with hnil
    · exact h.say _
    · exact (h.aboutChannel hsub (by simp) hnil).same rfl rfl (.refl _)
  | part chan =>
    dsimp only [Client.obey, Command.requests] at hsub ⊢
    have hsent := fun hnil => @Good.aboutChannel args requests heard c now taken h .part _ hsub
      (by simp) hnil
    split_ifs with hnil
    · exact h
    · exact (hsent hnil).same rfl rfl (.refl _)
    · exact hsent hnil
  | names chan =>
    dsimp only [Client.obey, Command.requests] at hsub ⊢
    split_ifs with hnil
    · exact h.say _
    · exact h.aboutChannel hsub (by simp) hnil
  | msg rest =>
    dsimp only [Client.obey, Command.requests, privateMessage] at hsub ⊢
    cases hsplit : splitOnce ' ' rest with
    | none => exact h.say _
    | some p =>
      obtain ⟨who, text⟩ := p
      dsimp only
      split_ifs with htext
      · exact h.say _
      · refine Good.say ?_ _
        have hr : ⟨(rfDest who).getD args.gateway, .msg, [who, text], true⟩ ∈ requests := by
          refine hsub (List.mem_map.mpr ⟨(who, text), ?_, rfl⟩)
          simp [hsplit, htext]
        cases hdest : rfDest who with
        | none =>
          rw [hdest] at hr
          exact h.send hr (by simp)
        | some dest =>
          rw [hdest] at hr
          exact h.sendTo hr (by simp)
  | ping =>
    dsimp only [Client.obey, Command.requests] at hsub ⊢
    exact h.send (hsub (List.mem_singleton_self _)) (by simp)
  | help => exact h.say _
  | unknown cmd => exact h.say _
  | chat line =>
    dsimp only [Client.obey, Command.requests] at hsub ⊢
    cases hcurrent : c.current with
    | none => exact h.say _
    | some chan =>
      rw [hcurrent] at hsub
      exact h.sendChat (hsub (List.mem_singleton_self _))

theorem obey_current (c : Client) (now : ℕ) (taken : ℕ → Bool) (cmd : Command) :
    (c.obey now taken cmd).1.current = cmd.channel c.current := by
  cases cmd with
  | join chan =>
    dsimp only [Client.obey, Command.channel]
    split_ifs <;> rfl
  | part chan =>
    have hnamed : c.channelOr chan = named c.current chan := rfl
    dsimp only [Client.obey, Command.channel]
    rw [hnamed]
    cases hcurrent : c.current with
    | none =>
      split_ifs
      · exact hcurrent
      · rfl
      · exact hcurrent
    | some old =>
      by_cases hnil : named (some old) chan = []
      · have hkept : named (some old) chan ≠ old ∨ old = [] := by
          by_cases hold : old = []
          · exact .inr hold
          · exact .inl fun heq => hold (heq ▸ hnil)
        rw [if_pos hnil, Option.filter_some, if_pos (decide_eq_true hkept)]
        exact hcurrent
      · rw [if_neg hnil]
        by_cases hsame : old = named (some old) chan
        · have hgone : ¬ (named (some old) chan ≠ old ∨ old = []) := by
            rintro (hne | hold)
            · exact hne hsame.symm
            · exact hnil (hsame ▸ hold)
          rw [if_pos (congrArg some hsame), Option.filter_some, if_neg (by simpa using hgone)]
        · rw [if_neg fun h => hsame (Option.some.inj h), Option.filter_some,
            if_pos (decide_eq_true (.inl (Ne.symm hsame)))]
          exact hcurrent
  | names chan =>
    dsimp only [Client.obey, Command.channel]
    split_ifs <;> rfl
  | msg rest =>
    dsimp only [Client.obey, Command.channel]
    cases splitOnce ' ' rest with
    | none => rfl
    | some p =>
      dsimp only
      split_ifs
      · rfl
      · cases rfDest p.1 <;> rfl
  | chat line =>
    dsimp only [Client.obey, Command.channel]
    cases hcurrent : c.current with
    | none => exact hcurrent
    | some chan => exact hcurrent
  | quit reason => rfl
  | ping => rfl
  | help => rfl
  | unknown cmd => rfl

/-! ### Every step -/

theorem Good.handleInput (h : Good args requests heard c) (line : Text)
    (hsub : ∀ cmd, Command.parse line = some cmd →
      cmd.requests args.gateway c.current ⊆ requests) :
    Good args requests heard (c.handleInput now taken line).1 := by
  unfold Client.handleInput
  cases hparse : Command.parse line with
  | none => exact h
  | some cmd => exact h.obey cmd (hsub cmd hparse)

theorem Good.handleRf (h : Good args requests heard c) (ax : Ax25Frame) :
    Good args requests (heard ++ [ax]) (c.handleRf now taken ax) := by
  have hlater : Good args requests (heard ++ [ax]) c :=
    h.mono (fun _ hr => hr) fun _ hax => List.mem_append_left _ hax
  have hax : ax ∈ heard ++ [ax] := List.mem_append_right _ (List.mem_singleton_self ax)
  unfold Client.handleRf Station.handleRf
  dsimp only
  split_ifs with hown hother
  · exact hlater
  · exact hlater
  · cases hdecode : AircFrame.decode ax.info with
    | error e => exact hlater
    | ok f =>
      have htake := take_transmits c.station ax.source.call f
        (decide (ax.destination.call = c.station.call)) now taken
      obtain ⟨hkept, hframes⟩ := hlater.kept.onReceive ax.source.call f now
        (decide (ax.destination.call = c.station.call))
        (fun hwants => ⟨ax, hax, rfl, f, hdecode, rfl, hwants⟩)
        (fun hours => ⟨ax, hax, rfl, (of_decide_eq_true hours).trans h.call, f, hdecode, rfl⟩)
      have hsent : Good args requests (heard ++ [ax]) { c with
          station := (c.station.take ax.source.call f
            (decide (ax.destination.call = c.station.call)) now taken).1 } := by
        obtain ⟨hsmall, hshort⟩ := @FrameLimit.onReceive_allSmall now _ hlater.small
          ax.source.call f (decide (ax.destination.call = c.station.call))
        rw [h.config] at hshort
        refine hlater.after rfl rfl htake rfl rfl rfl ((onReceive_config ..).trans h.config) hkept
          hsmall fun e he next hnext => ?_
        obtain ⟨g, hg, rfl⟩ := List.mem_map.mp he
        exact accounted_outgoing (hframes g hg) (hshort g hg) hnext
      dsimp only
      rcases htaken : c.station.take ax.source.call f
        (decide (ax.destination.call = c.station.call)) now taken with ⟨st, - | msg⟩
      · rw [htaken] at hsent
        exact hsent
      · rw [htaken] at hsent
        exact hsent.same rfl rfl (shown_transmits _ st)

theorem Good.drainKeyed (h : Good args requests heard c) (now : ℕ) :
    Good args requests heard (c.drainKeyed now) := by
  have hfold : ∀ (keyed : List RadioGateway.Keyed) (s : Sessions), s.config = args.config →
      AllKept (Waiting args requests) (Asked heard) (Addressed args.call heard) s →
      FrameLimit.AllSmall s → (keyed.foldl (fun s k => s.onKeyed k.dest k.seq now) s).config = args.config ∧
      AllKept (Waiting args requests) (Asked heard) (Addressed args.call heard)
        (keyed.foldl (fun s k => s.onKeyed k.dest k.seq now) s) ∧
      FrameLimit.AllSmall (keyed.foldl (fun s k => s.onKeyed k.dest k.seq now) s) := by
    intro keyed
    induction keyed with
    | nil => exact fun s hconfig hkept hsmall => ⟨hconfig, hkept, hsmall⟩
    | cons k keyed ih =>
      intro s hconfig hkept hsmall
      exact ih _ ((onKeyed_config ..).trans hconfig) (hkept.onKeyed k.dest k.seq now)
        (FrameLimit.onKeyed_allSmall hsmall k.dest k.seq)
  obtain ⟨hconfig, hkept, hsmall⟩ := hfold c.keyed c.station.sessions h.config h.kept h.small
  exact ⟨h.call, h.path, h.gateway, hconfig, hkept, hsmall, h.hello, h.sent⟩

theorem Good.sendHello (h : Good args requests heard c) :
    Good args requests heard (c.sendHello now taken) :=
  Good.same (h.send h.hello (by simp)) rfl rfl (.refl _)

theorem Good.tick (h : Good args requests heard c) (clock : ℕ) (helloTaken : ℕ → Bool) :
    Good args requests heard (c.tick now taken clock helloTaken).1 := by
  have hdrained := h.drainKeyed now
  have hhello : Good args requests heard (if (c.drainKeyed now).wantsHello now then
      { (c.drainKeyed now).sendHello clock helloTaken with lastHello := now }
      else c.drainKeyed now) := by
    split_ifs
    · exact Good.same hdrained.sendHello rfl rfl (.refl _)
    · exact hdrained
  unfold Client.tick
  dsimp only
  generalize (if (c.drainKeyed now).wantsHello now then
      { (c.drainKeyed now).sendHello clock helloTaken with lastHello := now }
      else c.drainKeyed now) = c' at hhello
  obtain ⟨hticked, hframes⟩ := hhello.kept.tickRetries now true
  obtain ⟨hacked, hacks⟩ := hticked.drainAcks
  obtain ⟨hsmall, hshort⟩ := @FrameLimit.tickRetries_allSmall now _ hhello.small true
  obtain ⟨hdrained, hshortAcks⟩ := FrameLimit.drainAcks_allSmall hsmall
  have hconfig : (c'.station.sessions.tickRetries now true).1.config = args.config := hhello.config
  rw [hhello.config] at hshort
  rw [hconfig] at hshortAcks
  refine hhello.transmit hhello.config hacked hdrained fun e he ax hax => ?_
  rcases List.mem_append.mp he with he | he
  · exact accounted_outgoing (hframes e he) (hshort e he) hax
  · exact accounted_outgoing (hacks e he) (hshortAcks e he) hax

/-! ### Every run -/

theorem script_typed (args : Args) (epoch : UInt16) (typed : List Text) (line : Text) :
    args.script epoch (typed ++ [line]) = (args.script epoch typed).read args.gateway line := by
  rw [Args.script, List.foldl_append]
  rfl

theorem read_requests (gateway : Callsign) (s : Script) (line : Text) :
    s.requests ⊆ (s.read gateway line).requests ∧
      ∀ cmd, Command.parse line = some cmd →
        cmd.requests gateway s.channel ⊆ (s.read gateway line).requests ∧
        (s.read gateway line).channel = cmd.channel s.channel := by
  unfold Script.read
  cases Command.parse line with
  | none => exact ⟨fun _ hr => hr, fun cmd hcmd => by cases hcmd⟩
  | some cmd =>
    refine ⟨fun _ hr => List.mem_append_left _ hr, ?_⟩
    rintro _ ⟨rfl⟩
    exact ⟨fun _ hr => List.mem_append_right _ hr, rfl⟩

theorem handleInput_current (gateway : Callsign) (s : Script) (h : c.current = s.channel)
    (line : Text) :
    (c.handleInput now taken line).1.current = (s.read gateway line).channel := by
  unfold Client.handleInput Script.read
  cases Command.parse line with
  | none => exact h
  | some cmd =>
    refine (obey_current c now taken cmd).trans ?_
    rw [h]
    rfl

structure Invariant (args : Args) (epoch : UInt16) (l : Loop) : Prop where
  good : Good args (args.script epoch l.typed).requests l.heard l.client
  channel : l.client.current = (args.script epoch l.typed).channel

theorem start_good (args : Args) (epoch : UInt16) (now : ℕ) (helloTaken joinTaken : ℕ → Bool) :
    Good args (args.script epoch []).requests [] (args.start epoch now helloTaken joinTaken) := by
  have hnew : Good args (args.script epoch []).requests [] (args.new epoch now) := by
    refine ⟨rfl, rfl, rfl, rfl, ?_, ?_, List.mem_cons_self, fun ax hax => absurd hax List.not_mem_nil⟩
    all_goals
      intro call p hp
      simp [Args.new, Sessions.new, Sessions.peer] at hp
  have hhello := @Good.sendHello _ _ _ _ now helloTaken hnew
  unfold Args.start
  dsimp only
  generalize (args.new epoch now).sendHello now helloTaken = c at hhello
  cases hchannel : args.channel with
  | none => exact hhello
  | some chan =>
    have hjoin : ⟨args.gateway, .join, [chan], true⟩ ∈ (args.script epoch []).requests :=
      List.mem_cons_of_mem _ (by simp [hchannel])
    have hsent := @Good.send _ _ _ _ now joinTaken hhello .join [chan] true hjoin (by simp)
    exact hsent.same rfl rfl (.refl _)

theorem start_current (args : Args) (epoch : UInt16) (now : ℕ) (helloTaken joinTaken : ℕ → Bool) :
    (args.start epoch now helloTaken joinTaken).current = args.channel := by
  unfold Args.start
  cases args.channel <;> rfl

theorem tick_current (c : Client) (now : ℕ) (taken : ℕ → Bool) (clock : ℕ)
    (helloTaken : ℕ → Bool) : (c.tick now taken clock helloTaken).1.current = c.current := by
  unfold Client.tick
  dsimp only [Client.transmit]
  split_ifs <;> rfl

theorem invariant_next {epoch : UInt16} {l : Loop} (h : Invariant args epoch l) (e : Event) :
    Invariant args epoch (l.next e) := by
  obtain ⟨hgood, hchannel⟩ := h
  cases e with
  | hear ax now taken => exact ⟨hgood.handleRf ax, hchannel⟩
  | type line now taken =>
    obtain ⟨hold, hnew⟩ := read_requests args.gateway (args.script epoch l.typed) line
    refine ⟨?_, ?_⟩
    · change Good args (args.script epoch (l.typed ++ [line])).requests l.heard _
      rw [script_typed]
      refine (hgood.mono hold fun _ hax => hax).handleInput line fun cmd hcmd => ?_
      rw [hchannel]
      exact (hnew cmd hcmd).1
    · change _ = (args.script epoch (l.typed ++ [line])).channel
      rw [script_typed]
      exact handleInput_current args.gateway _ hchannel line
  | tick now clock helloTaken taken =>
    exact ⟨hgood.tick clock helloTaken, (tick_current ..).trans hchannel⟩
  | keyed k =>
    unfold Loop.next Client.noteKeyed
    split_ifs
    · exact ⟨hgood.same rfl rfl (.refl _), hchannel⟩
    · exact ⟨hgood, hchannel⟩
  | closed => exact ⟨hgood, hchannel⟩

theorem invariant_reachable (args : Args) (epoch : UInt16) :
    Inductive (Loop.system args epoch) (fun _ _ => True) (Invariant args epoch) := by
  refine Inductive.ofNext ?_ fun l e h _ _ => invariant_next h e
  rintro l ⟨now, helloTaken, joinTaken, rfl⟩
  exact ⟨start_good .., start_current ..⟩

/-- Whatever a station hears, whenever its timer fires and whatever the transmit queue answers: each
frame it sends comes from its own callsign over its own path, and is part of a message that follows
from the command line and the typed lines alone, or acknowledges a message that its addressee sent
to this station and wanted acknowledged. Plain lines go to the channel that was typed last. -/
theorem station_says_what_was_typed {epoch : UInt16} {l : Loop}
    (h : Reachable (Loop.system args epoch) (fun _ _ => True) l) :
    l.client.current = (args.script epoch l.typed).channel ∧
    ∀ ax ∈ l.client.station.sent, Accounted args (args.script epoch l.typed).requests l.heard ax := by
  have hinvariant := (invariant_reachable args epoch).reachable h
  exact ⟨hinvariant.channel, hinvariant.good.sent⟩

def operator : Args := ⟨⟨"SM0ABC", 7⟩, ⟨"SK0MT", 1⟩, some "#rf", 128, [], false⟩

/-- The gateway acknowledges the HELLO, and a channel message is broadcast. -/
def fromGateway : List Ax25Frame :=
  [(operator.call, OwedAck.toFrame ⟨1, none⟩),
    (operator.call, ⟨.welcome, Flags.ackReq, 9, 0, 1, textFields ["irc.example", "hello"], none⟩),
    (protocolDest, .new .msg 10 (textFields ["#rf", "anna", "hi"]))].filterMap fun e =>
      Ax25Frame.ui operator.gateway e.1 [] e.2.encode

def evening : List Event :=
  fromGateway.map (.hear · (secs 5) fun _ => true) ++
    [.type "hello all" (secs 6) fun _ => true, .type "/msg SM0XYZ|1 you there?" (secs 7) fun _ => true,
      .tick (secs 8) (secs 8) (fun _ => true) fun _ => true, .type "/q" (secs 9) fun _ => true]

def started : Loop := ⟨operator.start 7 0 (fun _ => true) (fun _ => true), true, [], []⟩

theorem evening_reachable :
    Reachable (Loop.system operator 7) (fun _ _ => True) (evening.foldl Loop.next started) := by
  have hstart : Reachable (Loop.system operator 7) (fun _ _ => True) started :=
    .initial ⟨0, fun _ => true, fun _ => true, rfl⟩
  refine hstart.run ?_
  decide +kernel

/-- HELLO, the JOIN behind it, a chat line, a private message, an acknowledgement and QUIT. -/
theorem station_says_what_was_typed_evening :
    (evening.foldl Loop.next started).client.station.sent.map (fun ax => ax.destination.call) =
      [⟨"SK0MT", 1⟩, ⟨"SK0MT", 1⟩, ⟨"AIRC", 0⟩, ⟨"SM0XYZ", 1⟩, ⟨"SK0MT", 1⟩, ⟨"SK0MT", 1⟩] ∧
    (evening.foldl Loop.next started).client.current = some "#rf" ∧
    ∀ ax ∈ (evening.foldl Loop.next started).client.station.sent,
      Accounted operator (operator.script 7 (evening.foldl Loop.next started).typed).requests
        (evening.foldl Loop.next started).heard ax := by
  have hsaid := station_says_what_was_typed evening_reachable
  refine ⟨by decide +kernel, hsaid.1.trans ?_, hsaid.2⟩
  decide +kernel

/-! ### The size of a frame -/

theorem length_encode (f : AircFrame) :
    f.encode.length = headerLen + 2 * f.piggybackSeq.toList.length + f.payload.length := by
  unfold AircFrame.encode headerLen
  cases f.piggybackSeq with
  | none => simp [toBeBytes]; omega
  | some seq => simp [toBeBytes]; omega

theorem PartOf.short (h : PartOf args.config r f) : f.payload.length ≤ args.config.maxPayload := by
  obtain ⟨seq, cut, hfragment⟩ := h.fragment
  exact length_chunkPayload (maxPayload_pos args.config) _ cut _ (List.mem_of_getElem? hfragment.part)

/-- No frame of the station is too large for its own TNC task, over a path that the command line
may name, unless the fragments are too small for an acknowledgement. -/
theorem station_frames_fit (hpaclen : headerLen ≤ args.paclen) (hhops : args.path.length ≤ 2)
    {epoch : UInt16} {l : Loop} (h : Reachable (Loop.system args epoch) (fun _ _ => True) l) :
    ∀ ax ∈ l.client.station.sent, ax.octets ≤ args.maxFrame := by
  intro ax hax
  obtain ⟨-, hpath, hpid, f, hdecode, hwhy, -⟩ :=
    ((invariant_reachable args epoch).reachable h).good.sent ax hax
  have hinfo : ax.info.length = headerLen + 2 * f.piggybackSeq.toList.length + f.payload.length := by
    rw [← AircCodec.encode_of_decode hdecode, length_encode]
  have hdigis : ax.digipeaters.length = args.path.length := by
    rw [← hpath, List.length_map]
  have hoctets : ax.octets = 7 * (2 + args.path.length) + 2 +
      (headerLen + 2 * f.piggybackSeq.toList.length + f.payload.length) := by
    rw [Ax25Frame.octets, hinfo, hdigis, hpid]
    rfl
  have hmax : args.config.maxPayload = max (args.paclen - headerLen) 1 := rfl
  have hpayload : 2 * f.piggybackSeq.toList.length + f.payload.length ≤
      max (2 + args.config.maxPayload) 34 := by
    rcases hwhy with ⟨r, -, -, hpart⟩ | ⟨-, hshort, hnone, -⟩
    · have hlength := hpart.short
      have hone : f.piggybackSeq.toList.length ≤ 1 := by cases f.piggybackSeq <;> simp
      omega
    · rw [hnone]
      unfold FrameLimit.Short at hshort
      simp only [Option.toList_none, List.length_nil]
      omega
  rw [hoctets, Args.maxFrame]
  rw [hmax] at hpayload
  unfold headerLen at hpaclen hpayload ⊢
  omega

/-- All that the station sent that evening fits. -/
theorem station_frames_fit_evening :
    operator.maxFrame = 192 ∧
      ∀ ax ∈ (evening.foldl Loop.next started).client.station.sent, ax.octets ≤ 192 :=
  ⟨rfl, station_frames_fit (by decide) (by decide) evening_reachable⟩

end StationAuthorship
