import Rfircd.Ax25Codec
import Rfircd.Deferral
import Rfircd.FrameLimit
import Rfircd.KissFraming

/-! The largest frame, as the transmitter, the receiver and the governor see it.
All three take the limit from `paclen`: the pump compares it with the frame, the decoder with the
frame and its type octet, and the checks of the configuration with the price of one frame. -/
namespace LargestFrame

open Basics Ax25 Ax25Codec KissFraming AirtimeGovernor TransmitPump Configuration ServerOutput

variable {cfg : ServerConfig} {f : Ax25Frame}

/-! ### The transmitter and the receiver -/

theorem length_encodePath (path : List Address) :
    (Ax25Frame.encodePath path).length = addressLen * path.length := by
  induction path with
  | nil => rfl
  | cons digi path ih =>
    rw [Ax25Frame.encodePath, List.length_append, length_encodeAddress, ih, List.length_cons,
      Nat.mul_add]
    omega

/-- The pump looks at the length of the encoded frame. -/
theorem length_encode (f : Ax25Frame) : f.encode.length = f.octets := by
  simp only [Ax25Frame.encode, Ax25Frame.octets, List.length_append, List.length_cons,
    length_encodeAddress, length_encodePath, Nat.mul_add]
  omega

/-- What a receiver with the same limit makes of a frame that was put on the air. -/
def received (cfg : ServerConfig) (port : UInt8) (f : Ax25Frame) :
    List (Except Ax25Error Ax25Frame) :=
  ((KissDecoder.new (tncFromConfig cfg).maxFrame).push
    (KissFraming.encode port cmdData f.encode)).2.map fun k => Ax25Frame.decode k.payload

/-- What a decoder makes of a payload that it has room for, on any port. -/
theorem received_of_room {maxFrame : ℕ} (port : UInt8) {payload : List UInt8}
    (h : payload.length + 1 ≤ maxFrame) :
    ((KissDecoder.new maxFrame).push (KissFraming.encode port cmdData payload)).2.map
      KissFrame.payload = [payload] := by
  have hencode : KissFraming.encode port cmdData payload =
    fend :: (stuff (typeOctet port cmdData) ++ payload.flatMap stuff ++ [fend]) := rfl
  have hopen : (KissDecoder.new maxFrame).pushOctet fend = (reading maxFrame [], []) := rfl
  rw [hencode, push_cons, hopen, push_payload port cmdData h]
  rfl

theorem received_iff_room (hf : WellFormed f) (port : UInt8) :
    received cfg port f = [.ok f] ↔ f.octets + 1 ≤ (tncFromConfig cfg).maxFrame := by
  have hlength := length_encode f
  unfold received
  by_cases hroom : f.octets + 1 ≤ (tncFromConfig cfg).maxFrame
  · have hpayload := received_of_room port (hlength.symm ▸ hroom)
    have hmap : (fun k : KissFrame => Ax25Frame.decode k.payload) =
        Ax25Frame.decode ∘ KissFrame.payload := rfl
    rw [hmap, ← List.map_map, hpayload, List.map_singleton, hf.decode_encode]
    exact iff_of_true rfl hroom
  · have hlong : (tncFromConfig cfg).maxFrame < f.encode.length + 1 := by omega
    rw [push_encode_long port cmdData f.encode hlong]
    exact iff_of_false (by simp) hroom

/-- A frame that the pump sends is received unless it has exactly as many octets as the pump allows;
a frame with an information field of `paclen` octets only if its path leaves room for it. -/
theorem received_iff (cfg : ServerConfig) (port : UInt8) {f : Ax25Frame} (hf : WellFormed f) :
    (f.octets ≤ (tncFromConfig cfg).maxFrame →
      (received cfg port f = [.ok f] ↔ f.octets ≠ (tncFromConfig cfg).maxFrame)) ∧
    (f.info.length ≤ cfg.radio.sessions.paclen →
      (received cfg port f = [.ok f] ↔ addressLen * f.digipeaters.length + f.pid.toList.length +
        f.info.length ≤ cfg.radio.sessions.paclen + 48)) := by
  have hmax : (tncFromConfig cfg).maxFrame = cfg.radio.sessions.paclen + 64 := rfl
  constructor
  · intro hsent
    rw [received_iff_room hf port]
    omega
  · intro _
    rw [received_iff_room hf port, hmax, Ax25Frame.octets, Nat.mul_add, addressLen]
    omega

/-- A frame of another station, by eight digipeaters. -/
def relayed (info : List UInt8) : Ax25Frame where
  destination := ⟨⟨"AIRC", 0⟩, true, false⟩
  source := ⟨⟨"SM0ABC", 7⟩, false, false⟩
  digipeaters := List.replicate 8 ⟨⟨"SK0MT", 1⟩, true, false⟩
  control := controlUi
  pid := some pidNoL3
  info := info

theorem received_iff_relayed : received FrameLimit.station.server 0 (relayed [0x68, 0x69]) =
    [.ok (relayed [0x68, 0x69])] :=
  ((received_iff _ 0 (by decide +kernel)).2 (by decide)).mpr (by decide)

/-- A frame as long as the pump sends, and one as long as the protocol allows. -/
def longest : Ax25Frame := { relayed (List.replicate 176 0x41) with digipeaters := [] }

theorem longest_frames_are_lost : Accepted FrameLimit.station ∧
    (longest.octets ≤ (tncFromConfig FrameLimit.station.server).maxFrame ∧
      received FrameLimit.station.server 0 longest ≠ [.ok longest]) ∧
    (relayed (List.replicate 128 0x41)).info.length ≤
        FrameLimit.station.server.radio.sessions.paclen ∧
      received FrameLimit.station.server 0 (relayed (List.replicate 128 0x41)) ≠
        [.ok (relayed (List.replicate 128 0x41))] := by
  have hlongest : WellFormed longest := by decide +kernel
  have hrelayed : WellFormed (relayed (List.replicate 128 0x41)) := by decide +kernel
  refine ⟨FrameLimit.station_accepted, ⟨by decide +kernel, ?_⟩, by decide +kernel, ?_⟩
  · rw [ne_eq, received_iff_room hlongest]
    decide +kernel
  · rw [ne_eq, received_iff_room hrelayed]
    decide +kernel

/-! ### The governor -/

/-- The governor of a station whose operator has overridden the duty cycle, or has not. -/
def inForce (c : Config) (percent : Option ℕ) : Governor :=
  (Governor.new (toAirtime c.server.duty)).setDuty
    ((AirtimeShared.new.setDutyOverride percent).dutyLimit (toAirtime c.server.duty).maxDuty)

/-- A frame that fits once nothing else is in the windows. -/
structure Sendable (g : Governor) (octets : ℕ) : Prop where
  duty : (g.airtimeFor octets : ℚ) ≤ g.allowance
  run : g.airtimeFor octets ≤ g.cfg.maxContinuous
  hour : g.cfg.hourlyBudget ≠ 0 → g.airtimeFor octets ≤ g.cfg.hourlyBudget

theorem Sendable.mono {g : Governor} {n m : ℕ} (h : Sendable g m) (hn : n ≤ m) : Sendable g n where
  duty := by
    have hcost := Deferral.airtimeFor_mono g hn
    exact (Nat.cast_le.mpr hcost).trans h.duty
  run := (Deferral.airtimeFor_mono g hn).trans h.run
  hour hb := (Deferral.airtimeFor_mono g hn).trans (h.hour hb)

/-- A frame that costs more than the whole allowance is deferred whatever else was sent. -/
theorem never_sent {g : Governor} {octets : ℕ} (he : g.cfg.enabled = true)
    (h : g.allowance < (g.airtimeFor octets : ℚ)) (now : ℕ) : (g.check octets now).1 ≠ .send := by
  intro hsend
  rcases (Deferral.check_send_iff g octets now).mp hsend with hoff | hadmits
  · rw [he] at hoff
    cases hoff
  · have hduty := hadmits.duty
    rw [Nat.cast_add] at hduty
    have hused : (0 : ℚ) ≤ (g.airtimeWithin now g.cfg.window : ℚ) := Nat.cast_nonneg _
    linarith

theorem allowance_inForce (c : Config) (percent : Option ℕ) : (inForce c percent).allowance =
    (toAirtime c.server.duty).window * (if percent.getD 0 = 0 then
      (toAirtime c.server.duty).effectiveDuty else (min (percent.getD 0) 50 : ℕ) / 100) := by
  have hclamp : ∀ x : ℚ, max 0 (min (max 0 (min x hardMaxDuty)) hardMaxDuty) =
      max 0 (min x hardMaxDuty) := by
    intro x
    have hhalf : (0 : ℚ) ≤ hardMaxDuty := by norm_num [hardMaxDuty]
    rw [min_eq_left (max_le hhalf (min_le_right _ _)), max_eq_right (le_max_left _ _)]
  have hduty : (inForce c percent).cfg.effectiveDuty =
      (AirtimeShared.new.setDutyOverride percent).dutyLimit (toAirtime c.server.duty).maxDuty :=
    hclamp _
  have hwindow : (inForce c percent).cfg.window = (toAirtime c.server.duty).window := rfl
  rw [Governor.allowance, hduty, hwindow]
  congr 1
  have hstored : (AirtimeShared.new.setDutyOverride percent).dutyPctOverride =
    min (percent.getD 0) 50 := rfl
  rw [AirtimeShared.dutyLimit, hstored]
  by_cases hnone : percent.getD 0 = 0
  · rw [if_pos hnone, if_pos (by omega)]
    rfl
  · have hpct : ((min (percent.getD 0) 50 : ℕ) : ℚ) / 100 ≤ hardMaxDuty := by
      have hle : ((min (percent.getD 0) 50 : ℕ) : ℚ) ≤ 50 := by exact_mod_cast min_le_right _ _
      rw [hardMaxDuty]
      linarith
    rw [if_neg hnone, if_neg (by omega), min_eq_left hpct, max_eq_right (by positivity)]

/-- What the checks say about a full-length frame. -/
theorem biggest_fits {c : Config} (hc : Accepted c) (he : c.server.duty.enabled = true) :
    let g := Governor.new (toAirtime c.server.duty)
    Sendable g (tncFromConfig c.server).maxFrame := by
  intro g
  have hchecks := hc.checks.2.2
  simp only [checkDuty, he, Bool.not_true, Bool.false_eq_true, if_false, bind_eq_ok, checkBiggest,
    require_eq_ok, decide_eq_true_eq] at hchecks
  obtain ⟨-, -, -, -, -, -, -, -, -, hduty, hrun, hhour⟩ := hchecks
  exact ⟨hduty, hrun, fun hb => hhour.resolve_left hb⟩

/-- Every frame that the pump takes can be sent some day exactly when the largest one fits in the
allowance that an override leaves. -/
theorem sendable_iff {c : Config} (hc : Accepted c) (percent : Option ℕ) :
    ((inForce c percent).cfg.enabled = true →
      ∀ octets ≤ (tncFromConfig c.server).maxFrame, Sendable (inForce c percent) octets) ↔
    (c.server.duty.enabled = true → percent.getD 0 ≠ 0 →
      ((inForce c percent).airtimeFor (tncFromConfig c.server).maxFrame : ℚ) ≤
        (toAirtime c.server.duty).window * ((min (percent.getD 0) 50 : ℕ) / 100)) := by
  have henabled : (inForce c percent).cfg.enabled = c.server.duty.enabled := rfl
  rw [henabled]
  refine forall_congr' fun he => ?_
  have hfits := biggest_fits hc he
  have hallowance := allowance_inForce c percent
  constructor
  · intro h hne
    have hduty := (h _ le_rfl).duty
    rwa [hallowance, if_neg hne] at hduty
  · intro h octets hoctets
    refine Sendable.mono ⟨?_, hfits.run, hfits.hour⟩ hoctets
    rw [hallowance]
    split_ifs with hnone
    · exact hfits.duty
    · exact h hnone

theorem sendable_iff_quarter : Sendable (inForce FrameLimit.station (some 25))
    (tncFromConfig FrameLimit.station.server).maxFrame :=
  (sendable_iff FrameLimit.station_accepted (some 25)).mpr (fun _ _ => by decide +kernel)
    (by decide +kernel) _ le_rfl

/-- The station on short wave, with the limits that are the default. -/
def hf : Config where
  __ := FrameLimit.station
  server := { FrameLimit.station.server with
    duty := ⟨true, 25, 600, 30, 60, 900, 120, 300, 400, 300⟩ }

theorem hf_accepted : Accepted hf := ⟨by decide +kernel, rfl⟩

/-- An override of one per cent leaves six seconds, which the longest frame does not fit in. -/
theorem override_locks_out : Accepted hf ∧
    (inForce hf (some 1)).cfg.enabled = true ∧
    ¬ Sendable (inForce hf (some 1)) (tncFromConfig hf.server).maxFrame ∧
    ∀ g : Governor, g.cfg = (inForce hf (some 1)).cfg →
      ∀ now, (g.check (tncFromConfig hf.server).maxFrame now).1 ≠ .send := by
  have hover : (inForce hf (some 1)).allowance <
      ((inForce hf (some 1)).airtimeFor
        (tncFromConfig hf.server).maxFrame : ℚ) := by
    decide +kernel
  refine ⟨hf_accepted, rfl, fun h => absurd h.duty (not_le.mpr hover), ?_⟩
  intro g hg now
  have hallowance : g.allowance = (inForce hf (some 1)).allowance := by
    rw [Governor.allowance, Governor.allowance, hg]
  have hcost : g.airtimeFor (tncFromConfig hf.server).maxFrame =
      (inForce hf (some 1)).airtimeFor
        (tncFromConfig hf.server).maxFrame := by
    rw [Governor.airtimeFor, Governor.airtimeFor, hg]
  refine never_sent (by rw [hg]; rfl) ?_ now
  rw [hallowance, hcost]
  exact hover

end LargestFrame
