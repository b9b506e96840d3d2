import Rfircd.HdlcStuffing
import Rfircd.LargestFrame
import Mathlib.Algebra.Order.Floor.Semifield
import Mathlib.Tactic.FieldSimp
import Mathlib.Tactic.Linarith

/-! The price of a frame against the time that its bits take on the wire.
How many zeros are stuffed depends on the content; the price is a multiple of the length. -/
namespace KeyDownTime

open Basics Ax25 AirtimeGovernor Configuration HdlcStuffing LargestFrame AirTrace Airc

/-- The bits of an octet in the order they are sent. -/
def bits (b : UInt8) : List Bool := (List.range 8).map b.toBitVec.getLsbD

def flag : UInt8 := 0x7E

/-- A frame with its check sequence, between two flags. -/
def wire (octets : List UInt8) (fcs : UInt8 × UInt8) : List Bool :=
  bits flag ++ stuff ((octets ++ [fcs.1, fcs.2]).flatMap bits) ++ bits flag

/-- The zeros that stuffing puts into a frame. -/
def zeros (octets : List UInt8) (fcs : UInt8 × UInt8) : ℕ :=
  inserted ((octets ++ [fcs.1, fcs.2]).flatMap bits)

/-- The key-down time of a frame is what the governor takes it for, up to a microsecond. -/
def Covered (g : Governor) (octets : List UInt8) (fcs : UInt8 × UInt8) : Prop :=
  ((g.cfg.txdelay + g.cfg.txtail : ℕ) : ℚ) +
      (wire octets fcs).length * secs 1 / (max g.cfg.baud 1 : ℕ) ≤
    (g.airtimeFor octets.length + micros 1 : ℕ)

theorem length_flatMap_bits (octets : List UInt8) :
    (octets.flatMap bits).length = 8 * octets.length := by
  induction octets with
  | nil => rfl
  | cons b octets ih =>
    rw [List.flatMap_cons, List.length_append, ih, List.length_cons, bits, List.length_map,
      List.length_range]
    omega

theorem length_wire (octets : List UInt8) (fcs : UInt8 × UInt8) :
    (wire octets fcs).length = 8 * (octets.length + framingOctets) + zeros octets fcs := by
  have hflag : (bits flag).length = 8 := rfl
  rw [wire, List.length_append, List.length_append, length_stuff, length_flatMap_bits, hflag,
    List.length_append, zeros, framingOctets]
  simp only [List.length_cons, List.length_nil]
  omega

/-- In whole bits and microseconds. -/
theorem covered_iff_bits (g : Governor) (octets : List UInt8) (fcs : UInt8 × UInt8) :
    Covered g octets fcs ↔ ((wire octets fcs).length * 1000000 : ℚ) ≤
      ((⌊((octets.length : ℚ) + framingOctets) * 8 * max g.cfg.stuffing 1 * 1000000 /
        max (g.cfg.baud : ℚ) 1⌋₊ : ℚ) + 1) * (max g.cfg.baud 1 : ℕ) := by
  have hbaud : (0 : ℚ) < (max g.cfg.baud 1 : ℕ) := by positivity
  unfold Covered Governor.airtimeFor
  dsimp only
  generalize ⌊((octets.length : ℚ) + framingOctets) * 8 * max g.cfg.stuffing 1 * 1000000 /
    max (g.cfg.baud : ℚ) 1⌋₊ = k
  have hsum : ((g.cfg.txdelay + micros k + g.cfg.txtail + micros 1 : ℕ) : ℚ) =
      ((g.cfg.txdelay + g.cfg.txtail : ℕ) : ℚ) + ((k : ℚ) + 1) * 1000 := by
    unfold micros
    push_cast
    ring
  have hsecond : ((secs 1 : ℕ) : ℚ) = 1000000 * 1000 := by norm_num [secs]
  rw [hsum, add_le_add_iff_left, hsecond, div_le_iff₀ hbaud, ← mul_assoc, mul_right_comm _ 1000,
    mul_le_mul_iff_of_pos_right (by norm_num)]

/-- A fifth more is enough for every content. -/
theorem covered_of_fifth {g : Governor} (h : 6 / 5 ≤ g.cfg.stuffing) (octets : List UInt8)
    (fcs : UInt8 × UInt8) : Covered g octets fcs := by
  have hbaud : (0 : ℚ) < (max g.cfg.baud 1 : ℕ) := by positivity
  have hcast : ((max g.cfg.baud 1 : ℕ) : ℚ) = max (g.cfg.baud : ℚ) 1 := by push_cast; rfl
  have hfew : 5 * zeros octets fcs ≤ 8 * (octets.length + framingOctets) := by
    have hle := inserted_le ((octets ++ [fcs.1, fcs.2]).flatMap bits)
    rw [length_flatMap_bits, List.length_append] at hle
    unfold zeros framingOctets
    simp only [List.length_cons, List.length_nil] at hle
    omega
  have hwire : ((wire octets fcs).length : ℚ) ≤ (octets.length + framingOctets) * 8 * (6 / 5) := by
    have hbits : 5 * (wire octets fcs).length ≤ 48 * (octets.length + framingOctets) := by
      rw [length_wire]
      omega
    have hq : (5 : ℚ) * (wire octets fcs).length ≤ 48 * (octets.length + framingOctets) := by
      exact_mod_cast hbits
    linarith
  have hprice : ((octets.length : ℚ) + framingOctets) * 8 * (6 / 5) ≤
      (octets.length + framingOctets) * 8 * max g.cfg.stuffing 1 := by
    have hmax : 6 / 5 ≤ max g.cfg.stuffing 1 := le_max_of_le_left h
    gcongr
  have hfloor := Nat.lt_floor_add_one (((octets.length : ℚ) + framingOctets) * 8 *
    max g.cfg.stuffing 1 * 1000000 / max (g.cfg.baud : ℚ) 1)
  rw [← hcast, div_lt_iff₀ hbaud, hcast] at hfloor
  rw [covered_iff_bits]
  rw [← hcast] at hfloor ⊢
  linarith

/-- The price that the configuration sets covers a frame exactly when the zeros that are stuffed are
no more than a twentieth of the bits, or so few more that they take no microsecond. -/
theorem covered_iff (c : Config) (f : Ax25Frame) (fcs : UInt8 × UInt8) :
    let baud := (toAirtime c.server.duty).baud
    Covered (Governor.new (toAirtime c.server.duty)) f.encode fcs ↔
      5 * zeros f.encode fcs ≤ 2 * (f.octets + framingOctets) ∨
        200000 ≤ baud ∧ (8 * (f.octets + framingOctets) + zeros f.encode fcs) * 1000000 ≤
          (42 * (f.octets + framingOctets) * 1000000 / (5 * baud) + 1) * baud := by
  intro baud
  have hpos : 1 ≤ baud := le_max_right _ _
  have hbaud : max (Governor.new (toAirtime c.server.duty)).cfg.baud 1 = baud := max_eq_left hpos
  have hcast : max ((Governor.new (toAirtime c.server.duty)).cfg.baud : ℚ) 1 = (baud : ℚ) :=
    max_eq_left (by exact_mod_cast hpos)
  have hstuffing : max (Governor.new (toAirtime c.server.duty)).cfg.stuffing 1 = 21 / 20 :=
    max_eq_left (by norm_num [Governor.new, toAirtime])
  -- the price of the bits, in whole microseconds
  have hfloor : ⌊((f.encode.length : ℚ) + framingOctets) * 8 * (21 / 20) * 1000000 / baud⌋₊ =
      42 * (f.octets + framingOctets) * 1000000 / (5 * baud) := by
    rw [← Nat.floor_div_eq_div (K := ℚ)]
    congr 1
    rw [length_encode]
    have hne : (baud : ℚ) ≠ 0 := by exact_mod_cast (by omega : baud ≠ 0)
    push_cast
    field_simp
    ring
  rw [covered_iff_bits, hcast, hbaud, hstuffing, hfloor, length_wire, length_encode]
  have hspan : 0 < 5 * baud := by omega
  have hbelow := Nat.mul_div_le (42 * (f.octets + framingOctets) * 1000000) (5 * baud)
  have habove := Nat.lt_mul_div_succ (42 * (f.octets + framingOctets) * 1000000) hspan
  generalize 42 * (f.octets + framingOctets) * 1000000 / (5 * baud) = k at hbelow habove ⊢
  have hpriced : ((((8 * (f.octets + framingOctets) + zeros f.encode fcs : ℕ) : ℚ) * 1000000 ≤
      ((k : ℚ) + 1) * (baud : ℕ))) ↔
      (8 * (f.octets + framingOctets) + zeros f.encode fcs) * 1000000 ≤ (k + 1) * baud := by
    exact_mod_cast Iff.rfl
  rw [hpriced]
  have hfive : 5 * baud * (k + 1) = 5 * ((k + 1) * baud) := by ring
  have hfewer : 5 * baud * k + 5 * baud = 5 * ((k + 1) * baud) := by ring
  rw [hfive] at habove
  constructor
  · intro h
    by_cases hfew : 5 * zeros f.encode fcs ≤ 2 * (f.octets + framingOctets)
    · exact .inl hfew
    · refine .inr ⟨?_, h⟩
      -- one bit in five too many takes as long as the microsecond
      omega
  · rintro (hfew | ⟨-, h⟩)
    · omega
    · exact h

/-- Chat that a user chose: every octet of it has six ones in a row. -/
def questions : Ax25Frame where
  destination := ⟨⟨"SM0ABC", 7⟩, true, false⟩
  source := ⟨⟨"SK0MT", 1⟩, false, false⟩
  digipeaters := []
  control := controlUi
  pid := some pidNoL3
  info := (AircFrame.new .msg 1 (textFields ["#rf", "anna", List.replicate 80 '?'])).encode

/-- Its zeros are no more than a sixth of its bits, and too many. -/
theorem questions_cost_more : Accepted hf ∧ questions.octets ≤ (tncFromConfig hf.server).maxFrame ∧
    ¬ Covered (Governor.new (toAirtime hf.server.duty)) questions.encode (0, 0) := by
  refine ⟨hf_accepted, by decide +kernel, ?_⟩
  rw [covered_iff_bits]
  decide +kernel

end KeyDownTime
