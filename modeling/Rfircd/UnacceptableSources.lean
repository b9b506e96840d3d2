import Rfircd.BridgeSteps
import Rfircd.ServerRuns

/-! A frame of somebody the gateway does not listen to is counted, and that is all. -/
namespace UnacceptableSources

open Basics Ax25 Airc AircSession MessageText AprsCodec AirPolicy ServerOutput ServerCore
open ServerCore.Server Bridge ServerSteps ServerRuns

/-- One more frame was received. -/
def counted (s : Server) : Server :=
  { s with outlet := { s.outlet with framesRx := s.outlet.framesRx + 1 } }

theorem handleRfFrame_eq (s : Server) (reader : BeaconReader) (m : Moment) (f : Ax25Frame) :
    s.handleRfFrame reader m f =
      match heard s.cfg reader f with
      | .nothing => counted s
      | .aprs msg => (counted s).handleAprsMessage m f.source.call msg
      | .beacon summary => (counted s).handleAprsBeacon m f.source.call summary
      | .airc frame forUs broadcast =>
        (counted s).handleAircFrame m f.source.call frame forUs broadcast := rfl

variable {s : Server} {m : Moment} {src : Callsign}

/-- Our own transmission is nothing, whatever it carries. -/
theorem heard_own {cfg : ServerConfig} {f : Ax25Frame} (reader : BeaconReader)
    (h : cfg.radio.gateway = some f.source.call) : heard cfg reader f = .nothing := by
  unfold heard
  split_ifs
  · rfl
  · rfl

theorem handleAprsMessage_unacceptable (h : ¬ Acceptable s src) (msg : AprsMessage) :
    s.handleAprsMessage m src msg = s := by
  unfold handleAprsMessage
  rw [if_pos (not_not.mp (mt acceptable_iff.mpr h))]

theorem handleAprsBeacon_unacceptable (h : ¬ Acceptable s src) (summary : Text) :
    s.handleAprsBeacon m src summary = s := by
  have hsource : (!Callsign.looksLikeAmateurCall src || !s.outlet.policy.stationAllowed src) = true :=
    not_not.mp (mt acceptable_iff.mpr h)
  unfold handleAprsBeacon
  rw [if_pos (by rw [hsource, Bool.true_or, Bool.true_or])]

theorem handleAircFrame_unacceptable (h : ¬ Acceptable s src) (f : AircFrame)
    (forUs broadcast : Bool) : s.handleAircFrame m src f forUs broadcast = s := by
  unfold handleAircFrame
  rw [if_pos (not_not.mp (mt acceptable_iff.mpr h))]

/-- Whatever the frame carries, and in whichever state the server is. -/
theorem unacceptable_source_counted (s : Server) (reader : BeaconReader) (m : Moment) (f : Ax25Frame)
    (h : s.cfg.radio.gateway = some f.source.call ∨
      Callsign.looksLikeAmateurCall f.source.call = false ∨
      s.outlet.policy.stationAllowed f.source.call = false) :
    s.handleRfFrame reader m f = counted s := by
  by_cases hown : s.cfg.radio.gateway = some f.source.call
  · rw [handleRfFrame_eq, heard_own reader hown]
  · have hsource : ¬ Acceptable (counted s) f.source.call := by
      rintro ⟨hcall, hallowed⟩
      rcases h with h | h | h
      · exact hown h
      · exact Bool.false_ne_true (h.symm.trans hcall)
      · exact Bool.false_ne_true (h.symm.trans hallowed)
    rw [handleRfFrame_eq]
    split
    · rfl
    · exact handleAprsMessage_unacceptable hsource _
    · exact handleAprsBeacon_unacceptable hsource _
    · exact handleAircFrame_unacceptable hsource ..

/-! ### A JOIN from nowhere -/

open Small in
/-- A channel join that comes from the address of the protocol itself. -/
def joinFromProtocol : Ax25Frame :=
  ⟨⟨⟨"SK0MT", 1⟩, true, false⟩, .new ⟨"AIRC", 0⟩, [], controlUi, some pidNoL3,
    ((AircFrame.new .join 7 (AirTrace.textFields ["#rf"])).withFlags Flags.ackReq).encode⟩

open Small in
theorem unacceptable_source_counted_protocol :
    start.handleRfFrame noBeacon (second 1) joinFromProtocol = counted start :=
  unacceptable_source_counted start noBeacon (second 1) joinFromProtocol (.inr (.inl (by decide)))

end UnacceptableSources
