import Rfircd.FieldLists
import Rfircd.FragmentSizes
import Rfircd.StationRecords
import Rfircd.UnacceptableSources

/-! Two gateways on one frequency.
What one of them broadcasts has three fields, and uplink chat has two. -/
namespace TwoGateways

open Basics Ax25 Airc AircSession KeyedTable MessageText AprsCodec RadioGateway AirTrace
open FragmentBuffers FragmentSizes RadioSessions ServerOutput ServerCore ServerCore.Server Bridge ServerSteps
open ServerInvariants ServerRuns StationRecords TransitionSystem UnacceptableSources

variable {s t : Server} {a : Gateway} {b : Broadcast} {src : Callsign} {m : Moment}
  {verifies : Text → Text → Prop} {positions : PositionReader}

/-! ### What a gateway broadcasts -/

/-- The message of the broadcast, as the gateway cuts it. -/
def downlink (a : Gateway) (b : Broadcast) : FragmentBuffers.Message :=
  ⟨b.kind, a.radio.sessions.drawSeq.1, false, b.payload, a.broadcastChunks b.payload⟩

/-- The frames that go out for it, one after the other. A message of more than 255 is dropped. -/
def downlinkFrames (a : Gateway) (b : Broadcast) : List AircFrame :=
  if 255 < (downlink a b).parts.length then []
  else Gateway.broadcastFrames b.kind (downlink a b).seq (downlink a b).parts b.flags

/-- These frames are all that the broadcast puts into the queue. -/
theorem broadcast_downlink (a : Gateway) (b : Broadcast) :
    (AirTrace.perform a (.broadcast b)).pump = a.pump ∨ AirTrace.perform a (.broadcast b) =
      (a.withSessions a.radio.sessions.drawSeq.2).transmitAll .chat
        ((downlinkFrames a b).map (a.radio.cfg.destination, ·)) := by
  simp only [AirTrace.perform, Gateway.broadcastFlagged]
  split_ifs with hoff hlong hroom hslots
  · exact .inl rfl
  · exact .inl rfl
  · exact .inl rfl
  · exact .inl rfl
  · rw [downlinkFrames, if_neg (show ¬ 255 < (downlink a b).parts.length from hlong)]
    exact .inr rfl

theorem downlink_valid (hfew : (downlink a b).parts.length ≤ 255) : (downlink a b).Valid where
  kind := by cases b <;> simp [downlink, Broadcast.kind]
  parts := (broadcastChunks_flatten a b.payload).2
  few := hfew
  whole := (broadcastChunks_flatten a b.payload).1

theorem downlinkFrames_fragment {f : AircFrame} (hf : f ∈ downlinkFrames a b) :
    (downlink a b).Valid ∧ (downlink a b).IsFragment f ∧ f.piggybackSeq = none := by
  unfold downlinkFrames at hf
  split_ifs at hf with hlong
  · exact absurd hf List.not_mem_nil
  · obtain ⟨i, hi, rfl⟩ := List.mem_mapIdx.mp hf
    exact ⟨downlink_valid (not_lt.mp hlong), Message.isFragment_part (not_lt.mp hlong) hi _, rfl⟩

/-- Whatever the users have chosen, no field contains a separator. -/
theorem encodeFields_splitOn (fields : List (List UInt8)) (h : fields ≠ []) :
    ((encodeFields fields).splitOn fs).length = fields.length := by
  rw [FieldLists.splitOn_encodeFields h, List.length_map]

/-- The message is no chat of a station. -/
def Foreign (msg : AircFrame) : Prop :=
  msg.kind = .presence ∨ (msg.kind = .msg ∨ msg.kind = .notice) ∧ msg.fields.length = 3

theorem foreign_of_broadcast {msg : AircFrame} (hkind : msg.kind = b.kind)
    (hpayload : msg.payload = b.payload) : Foreign msg := by
  have hthree : ∀ x y z : Text, ((textFields [x, y, z]).splitOn fs).length = 3 := by
    intro x y z
    exact encodeFields_splitOn _ (by simp)
  cases b with
  | chat channel nick text truncated =>
    exact .inr ⟨.inl hkind, by rw [AircFrame.fields, hpayload]; exact hthree ..⟩
  | topic channel nick topic =>
    exact .inr ⟨.inr hkind, by rw [AircFrame.fields, hpayload]; exact hthree ..⟩
  | presence channel nick joined => exact .inl hkind

/-! ### What another gateway makes of it -/

theorem handleAircMessage_foreign {msg : AircFrame} (h : Foreign msg) :
    s.handleAircMessage m src msg = s := by
  rcases h with hkind | ⟨hkind | hkind, hlength⟩
  · simp only [handleAircMessage, hkind]
  all_goals
    have hfields : (fieldTexts msg).length = 3 := by rw [fieldTexts, List.length_map, hlength]
    simp only [handleAircMessage, hkind]
    split
    · rename_i heq
      rw [heq] at hfields
      cases hfields
    · rfl

/-- A frame that says nothing to the server is counted, and the station heard, as far as the ration
for new stations goes. The acknowledgements that are owed already go out. -/
inductive OnlyHeard (s : Server) (m : Moment) (src : Callsign) (f : AircFrame) : Server → Prop
  | counted : OnlyHeard s m src f (counted s)
  | rationed : OnlyHeard s m src f ((counted s).firstContactOk m src).2
  | received (forUs : Bool) :
      (s.outlet.sessions.onReceive src f m.now forUs).2.transmit = [] →
      OnlyHeard s m src f
        ((((counted s).firstContactOk m src).2.perform (.receive src f m.now forUs)).perform
          .drainAcks)

/-- Whatever is half received of the message under its number is of the message. -/
def Unmixed (msg : FragmentBuffers.Message) (seq : UInt16) (r : Reassembly) : Prop :=
  seq = msg.seq → BufferOf msg r

theorem stored_unmixed {msg : FragmentBuffers.Message} {f : AircFrame}
    (hf : f.seq = msg.seq → msg.IsFragment f) : StoresAs (Unmixed msg) f := by
  intro _ cfg p now forUs hp hseq
  exact (stored_of (hf hseq) fun r hr => hp _ r hr hseq).1

theorem handedOver_foreign {f d : AircFrame} (hvalid : (downlink a b).Valid)
    (hf : (downlink a b).IsFragment f) (h : HandedOver (Unmixed (downlink a b)) f d) : Foreign d := by
  rcases h with ⟨rfl, -, hhello | htotal⟩ | ⟨r, hr, hcomplete, rfl⟩
  · exact absurd (hf.kind.symm.trans hhello) (by cases b <;> simp [downlink, Broadcast.kind])
  · obtain ⟨d, hd, hkind, -, hpayload⟩ := delivered_single hvalid hf htotal (d := [])
    obtain rfl := List.mem_singleton.mp hd
    exact foreign_of_broadcast hkind hpayload
  · obtain ⟨hkind, -, hpayload⟩ :=
      message_of_complete hvalid (hr hf.seq) hcomplete f.seq
    exact foreign_of_broadcast hkind hpayload

/-- It is no message of APRS and no beacon, and read as it was sent. -/
theorem heard_airc {cfg : ServerConfig} {f : AircFrame} {fr : Ax25Frame}
    (hindex : f.fragIndex < f.fragTotal) (hinfo : fr.info = f.encode) :
    heard cfg positions.decodeBeacon fr = .nothing ∨ ∃ forUs broadcast,
      heard cfg positions.decodeBeacon fr = .airc { f with flags := f.wireFlags } forUs broadcast := by
  obtain ⟨rest, hrest⟩ : ∃ rest, f.encode = 0x41 :: rest := ⟨_, rfl⟩
  have hairc : heardAirc cfg fr = .nothing ∨ ∃ forUs broadcast,
      heardAirc cfg fr = .airc { f with flags := f.wireFlags } forUs broadcast := by
    unfold heardAirc
    rw [hinfo, decode_encode hindex]
    dsimp only
    split_ifs
    · exact .inl rfl
    · exact .inr ⟨_, _, rfl⟩
  unfold heard
  rw [hinfo, hrest, AprsMessage.decode_airc, PositionReader.decodeBeacon_airc]
  split_ifs
  · exact .inl rfl
  · exact .inl rfl
  · exact hairc
  · exact hairc

/-- A frame that acknowledges nothing releases nothing. -/
theorem onReceive_transmit (s : Sessions) {f : AircFrame} (hkind : f.kind ≠ .ack)
    (hpiggy : f.piggybackSeq = none) (now : ℕ) (forUs : Bool) :
    (s.onReceive src f now forUs).2.transmit = [] := by
  obtain ⟨-, h⟩ | ⟨p, -, h⟩ := Sessions.onReceive_cases s src f now forUs
  · rw [h]
    rfl
  · rw [h]
    simp only [Peer.receive, applyPiggyback, hpiggy, hkind, if_false]

theorem firstContactOk_sessions (s : Server) (m : Moment) (src : Callsign) :
    (s.firstContactOk m src).2.outlet.sessions = s.outlet.sessions := by
  unfold firstContactOk
  split_ifs <;> rfl

theorem handleAircFrame_foreign {f : AircFrame} (forUs broadcast : Bool)
    (hvalid : (downlink a b).Valid) (hf : (downlink a b).IsFragment f)
    (hpiggy : f.piggybackSeq = none)
    (hbuffers : BuffersHold (Unmixed (downlink a b)) (s.outlet.sessions.record src)) :
    OnlyHeard s m src f ((counted s).handleAircFrame m src f forUs broadcast) := by
  have hack : f.kind ≠ .ack := hf.kind ▸ hvalid.kind
  unfold handleAircFrame
  split_ifs
  · exact .counted
  · have hrationed : OnlyHeard s m src f ((counted s).firstContactOk m src).2 := .rationed
    have hreceived : OnlyHeard s m src f
        ((((counted s).firstContactOk m src).2.perform (.receive src f m.now forUs)).perform
          .drainAcks) :=
      .received forUs (onReceive_transmit _ hack hpiggy m.now forUs)
    have hsessions := firstContactOk_sessions (counted s) m src
    rcases hcontact : (counted s).firstContactOk m src with ⟨ok, r⟩
    rw [hcontact] at hrationed hreceived hsessions
    cases ok with
    | false => exact hrationed
    | true =>
      dsimp only
      cases hmsg : r.uplink m src f forUs broadcast with
      | none => exact hreceived
      | some msg =>
        have hdeliver := (Option.filter_eq_some_iff.mp hmsg).1
        rw [hsessions] at hdeliver
        have hhanded := (onReceive_hold hbuffers (stored_unmixed fun _ => hf) m.now forUs).2 msg hdeliver
        dsimp only
        rw [handleAircMessage_foreign (handedOver_foreign hvalid hf hhanded)]
        exact hreceived

theorem handleRfFrame_foreign {f : AircFrame} {fr : Ax25Frame} (hf : f ∈ downlinkFrames a b)
    (hinfo : fr.info = f.encode)
    (hbuffers : BuffersHold (Unmixed (downlink a b)) (s.outlet.sessions.record fr.source.call)) :
    OnlyHeard s m fr.source.call { f with flags := f.wireFlags }
      (s.handleRfFrame positions.decodeBeacon m fr) := by
  obtain ⟨hvalid, hfrag, hpiggy⟩ := downlinkFrames_fragment hf
  have hindex : f.fragIndex < f.fragTotal := by
    rw [UInt8.lt_iff_toNat_lt, hfrag.total]
    exact (List.getElem?_eq_some_iff.mp hfrag.part).1
  rw [handleRfFrame_eq]
  rcases @heard_airc positions s.cfg f fr hindex hinfo with heq | ⟨forUs, broadcast, heq⟩
  · rw [heq]
    exact .counted
  · rw [heq]
    exact handleAircFrame_foreign forUs broadcast hvalid
      ⟨hfrag.kind, hfrag.seq, hfrag.total, hfrag.part⟩ hpiggy hbuffers

/-! ### In every run -/

/-- The frame, if it comes from the other gateway under the number of the message, is of the message,
be it a repetition. -/
def Undisturbed (reader : BeaconReader) (src : Callsign) (msg : FragmentBuffers.Message) (s : Server)
    (e : Moment × ServerRuns.Event) : Prop :=
  ∀ fr, e.2 = .rf fr → fr.source.call = src →
    ∀ f ∈ aircFrame (heard s.cfg reader fr), f.seq = msg.seq → msg.IsFragment f

/-- The licence for a run in which the message is not mixed up with another one. -/
def unmixed (src : Callsign) (msg : FragmentBuffers.Message) : Licence :=
  { anything with
    received := fun call f => call = src → f.seq = msg.seq → msg.IsFragment f }

theorem undisturbed_licensed {reader : BeaconReader} {msg : FragmentBuffers.Message}
    {e : Moment × ServerRuns.Event} (hs : Grounded s) (hg : Undisturbed reader src msg s e)
    (he : ServerRuns.Enabled verifies s e) : EventLicence (unmixed src msg) reader s e := by
  have hrecording : Recording (unmixed src msg) :=
    ⟨fun _ _ => trivial, fun _ => trivial, fun _ => trivial, fun _ => trivial, fun _ => trivial⟩
  refine recording_licensed hrecording (fun _ _ => trivial) hs.standing he (fun fr hfr _ => ?_) trivial
    (fun _ _ _ _ _ => trivial) fun _ _ => trivial
  refine ⟨fun f forUs broadcast hheard hsrc => hg fr hfr hsrc f (by rw [hheard]; rfl), ?_, ?_⟩
  · exact fun _ _ _ _ _ _ _ => trivial
  · exact fun _ => trivial

/-- Nothing is said to a client or kept for a station, and no channel changes. -/
structure SaysNothing (s t : Server) : Prop where
  state : t.state = s.state
  relayed : t.relayed = s.relayed
  joined : t.joined = s.joined
  clients : t.outlet.clients = s.outlet.clients
  aired : t.outlet.aired = s.outlet.aired
  mailbox : t.outlet.mailbox = s.outlet.mailbox

theorem onlyHeard_saysNothing {f : AircFrame} (h : OnlyHeard s m src f t) : SaysNothing s t := by
  have hrationed : SaysNothing s ((counted s).firstContactOk m src).2 := by
    unfold firstContactOk
    split_ifs <;> exact ⟨rfl, rfl, rfl, rfl, rfl, rfl⟩
  cases h with
  | counted => exact ⟨rfl, rfl, rfl, rfl, rfl, rfl⟩
  | rationed => exact hrationed
  | received forUs _ =>
    exact ⟨hrationed.state, hrationed.relayed, hrationed.joined, hrationed.clients, hrationed.aired,
      hrationed.mailbox⟩

/-- From any state that holds nothing of another message under the number, and whatever happens: as
long as no other message of the gateway comes under the number, its frames are only heard. -/
theorem downlink_only_heard {f : AircFrame} {fr : Ax25Frame}
    (hs : Reachable (ServerRuns.system positions.decodeBeacon verifies) everyStep s)
    (hclear : BuffersHold (Unmixed (downlink a b)) (s.outlet.sessions.record fr.source.call))
    (hrun : Execution (ServerRuns.system positions.decodeBeacon verifies)
      (Undisturbed positions.decodeBeacon fr.source.call (downlink a b)) s t)
    (hf : f ∈ downlinkFrames a b) (hinfo : fr.info = f.encode) (m : Moment) :
    OnlyHeard t m fr.source.call { f with flags := f.wireFlags }
        (t.handleRfFrame positions.decodeBeacon m fr) ∧
      SaysNothing t (t.handleRfFrame positions.decodeBeacon m fr) := by
  have hkept : Grounded t ∧
      BuffersHold (Unmixed (downlink a b)) (t.outlet.sessions.record fr.source.call) := by
    induction hrun with
    | refl => exact ⟨reachable_grounded hs, hclear⟩
    | tail _ hg hstep ih =>
      obtain ⟨hgrounded, hbuffers⟩ := ih
      obtain ⟨he, rfl⟩ := hstep
      refine ⟨grounded_inductive.step _ _ _ hgrounded hg ⟨he, rfl⟩, ?_⟩
      have hsteps := next_steps hgrounded.standing hgrounded.named he trivial
        (undisturbed_licensed hgrounded hg he)
      exact changes_hold (steps_sessions hsteps) (fun f hf => stored_unmixed (hf rfl)) hbuffers
  have hheard : OnlyHeard t m fr.source.call { f with flags := f.wireFlags }
      (t.handleRfFrame positions.decodeBeacon m fr) :=
    handleRfFrame_foreign hf hinfo hkept.2
  exact ⟨hheard, onlyHeard_saysNothing hheard⟩

/-! ### A message that is lost in half -/

def noPositions : PositionReader := ⟨fun _ => none, fun _ _ => none⟩

def otherCall : Callsign := ⟨"SK0AA", 1⟩

/-- The other gateway, whenever it starts. -/
def other : Gateway :=
  startGateway { Small.radio with
    callsign := "SK0AA-1", gateway := some otherCall,
    sessions := { SessionConfig.default with paclen := 32 } } true .default

def longChannel : Text := "#aaaaaaaaaaaaaaaaaaaaa"

def start : Server :=
  .new { Small.config with channels := [⟨longChannel, true, [], []⟩] } true .default .empty 0

def heardFrom (f : AircFrame) : Ax25Frame :=
  ⟨.new ⟨"AIRC", 0⟩, .new otherCall, [], controlUi, some pidNoL3, f.encode⟩

/-- The first text of the other gateway, and the first one after it has restarted. -/
def firstText : Broadcast := .chat "#sm" "anna" "half of this text was lost" false

def laterText : Broadcast := .chat longChannel "eva" "hi" false

def firstTail : AircFrame :=
  { AircFrame.new .msg 1 (utf8 "xt was lost") with fragIndex := 1, fragTotal := 2 }

def laterHead : AircFrame :=
  { AircFrame.new .msg 1 (textFields [longChannel, "e"]) with fragTotal := 2 }

/-- The end of the first text is received, its beginning is not. -/
def halfReceived : Server :=
  start.next noPositions.decodeBeacon (Small.second 1, .rf (heardFrom firstTail))

theorem start_reachable :
    Reachable (ServerRuns.system noPositions.decodeBeacon Eq) everyStep start :=
  .initial ⟨_, true, .default, .empty, 0, rfl⟩

/-- A beginning with the name of the channel and an end without separators are two fields. -/
theorem mixture_taken_for_chat :
    Reachable (ServerRuns.system noPositions.decodeBeacon Eq) everyStep halfReceived ∧
      firstTail ∈ downlinkFrames other firstText ∧ laterHead ∈ downlinkFrames other laterText ∧
      ¬ SaysNothing halfReceived
        (halfReceived.handleRfFrame noPositions.decodeBeacon (Small.second 2)
          (heardFrom laterHead)) := by
  refine ⟨start_reachable.fire _ trivial trivial, by decide +kernel, by decide +kernel, ?_⟩
  intro h
  have hrelayed := h.relayed
  revert hrelayed
  decide +kernel

/-- The whole text, in whatever order its halves come. -/
theorem downlink_only_heard_reversed :
    SaysNothing halfReceived
      (halfReceived.handleRfFrame noPositions.decodeBeacon (Small.second 2)
        (heardFrom { firstTail with
          payload := textFields ["#sm", "anna", "half of this te"], fragIndex := 0 })) := by
  have hclear : BuffersHold (Unmixed (downlink other firstText))
      (start.outlet.sessions.record otherCall) := by
    intro seq r hr
    have hempty : (start.outlet.sessions.record otherCall).reasm = Table.empty := rfl
    rw [hempty] at hr
    cases hr
  have hundisturbed : Undisturbed noPositions.decodeBeacon otherCall (downlink other firstText) start
      (Small.second 1, .rf (heardFrom firstTail)) := by
    rintro _ ⟨rfl⟩ _
    decide +kernel
  have hstep : (ServerRuns.system noPositions.decodeBeacon Eq).Step start
      (Small.second 1, .rf (heardFrom firstTail)) halfReceived := ⟨trivial, rfl⟩
  exact (downlink_only_heard (b := firstText) start_reachable hclear
    (.tail (.refl _) hundisturbed hstep) (by decide +kernel) rfl (Small.second 2)).2

end TwoGateways
