import Rfircd.RadioSteps
import Rfircd.RoundTrip

/-! How many frames a message becomes, and how long they are. -/
namespace FragmentSizes

open Basics Airc AircSession RadioGateway RoundTrip

variable {cfg : SessionConfig} {kind : Kind} {seq : UInt16} {payload : List UInt8}
  {reliable : Bool} {piggy : Option UInt16}

/-- The frames that so many octets are reckoned to need. -/
def frameCount (max octets : ℕ) : ℕ := Nat.max ((octets + max - 1) / max) 1

theorem ceil_sub {max n : ℕ} (hm : 0 < max) (hn : 0 < n) :
    (n - max + max - 1) / max + 1 = (n + max - 1) / max := by
  rcases le_total max n with h | h
  · have hsplit : n + max - 1 = n - 1 + max := by omega
    have hrest : n - max + max - 1 = n - 1 := by omega
    rw [hsplit, Nat.add_div_right _ hm, hrest]
  · have hrest : n - max + max - 1 = max - 1 := by omega
    have hone : (n + max - 1) / max = 1 := Nat.div_eq_of_lt_le (by omega) (by omega)
    rw [hrest, Nat.div_eq_of_lt (by omega), hone]

theorem chunksWith_length {max : ℕ} (hm : 0 < max) {fuel : ℕ} {l : List UInt8}
    (h : l.length ≤ fuel) : (chunksWith max fuel l).length = (l.length + max - 1) / max := by
  induction fuel generalizing l with
  | zero =>
    obtain rfl := List.eq_nil_of_length_eq_zero (Nat.le_zero.mp h)
    exact (Nat.div_eq_of_lt (by simp; omega)).symm
  | succ fuel ih =>
    rw [chunksWith]
    split_ifs with hl
    · rw [hl]
      exact (Nat.div_eq_of_lt (by simp; omega)).symm
    · have hpos := List.length_pos_of_ne_nil hl
      rw [List.length_cons, ih (by rw [List.length_drop]; omega), List.length_drop, ceil_sub hm hpos]

theorem chunks_length {max : ℕ} (hm : 0 < max) (l : List UInt8) :
    (chunks max l).length = (l.length + max - 1) / max :=
  chunksWith_length hm le_rfl

theorem broadcastChunks_length (g : Gateway) (payload : List UInt8) :
    (g.broadcastChunks payload).length =
      frameCount g.radio.sessions.config.maxPayload payload.length := by
  have hm := maxPayload_pos g.radio.sessions.config
  unfold Gateway.broadcastChunks frameCount
  split_ifs with hnil
  · rw [hnil]
    exact (Nat.max_eq_right (Nat.div_le_of_le_mul (by simp))).symm
  · have hpos := List.length_pos_of_ne_nil hnil
    rw [chunks_length hm]
    exact (Nat.max_eq_left ((Nat.one_le_div_iff hm).mpr (by omega))).symm

theorem broadcastChunks_flatten (g : Gateway) (payload : List UInt8) :
    (g.broadcastChunks payload).flatten = payload ∧ g.broadcastChunks payload ≠ [] := by
  unfold Gateway.broadcastChunks
  split_ifs with hnil
  · exact ⟨by rw [hnil]; rfl, by simp⟩
  · have hwhole : (chunks g.radio.sessions.config.maxPayload payload).flatten = payload :=
      chunksWith_flatten (maxPayload_pos _) le_rfl
    refine ⟨hwhole, fun hempty => hnil ?_⟩
    rw [← hwhole, hempty]
    rfl

theorem length_broadcastChunks (g : Gateway) (payload : List UInt8) :
    ∀ part ∈ g.broadcastChunks payload, part.length ≤ g.radio.sessions.config.maxPayload := by
  unfold Gateway.broadcastChunks
  split_ifs
  · intro part hp
    rw [List.mem_singleton.mp hp]
    exact Nat.zero_le _
  · exact length_chunksWith

/-- A carried acknowledgement can cost one frame more, never one less. -/
theorem chunkPayload_length {max : ℕ} (hm : 0 < max) (payload : List UInt8) (piggy : Bool) :
    frameCount max payload.length ≤ (chunkPayload payload max piggy).length ∧
      (piggy = false → (chunkPayload payload max piggy).length = frameCount max payload.length) := by
  have hfirst : (if piggy = true then Nat.max (max - 2) 1 else max) ≤ max := by
    split_ifs
    · exact Nat.max_le.mpr ⟨Nat.sub_le _ _, hm⟩
    · exact le_rfl
  have hwhole : piggy = false → (if piggy = true then Nat.max (max - 2) 1 else max) = max := by
    rintro rfl
    rfl
  unfold chunkPayload frameCount
  dsimp only
  generalize (if piggy = true then Nat.max (max - 2) 1 else max) = firstMax at hfirst hwhole
  split_ifs with hshort
  · have hfew : (payload.length + max - 1) / max < 2 :=
      (Nat.div_lt_iff_lt_mul hm).mpr (by omega)
    have hone : Nat.max ((payload.length + max - 1) / max) 1 = 1 := Nat.max_eq_right (by omega)
    rw [hone]
    exact ⟨le_rfl, fun _ => rfl⟩
  · have hpos : 0 < payload.length := by omega
    rw [List.length_cons, chunks_length hm, List.length_drop]
    have hrest : payload.length - max ≤ payload.length - firstMax := by omega
    have hcount := ceil_sub hm hpos
    have hone : 1 ≤ (payload.length + max - 1) / max := (Nat.one_le_div_iff hm).mpr (by omega)
    rw [show Nat.max ((payload.length + max - 1) / max) 1 = (payload.length + max - 1) / max from
      Nat.max_eq_left hone]
    refine ⟨?_, fun hp => ?_⟩
    · rw [← hcount]
      exact Nat.add_le_add_right (Nat.div_le_div_right (by omega)) 1
    · rw [hwhole hp, hcount]

theorem length_encode (f : AircFrame) :
    f.encode.length = headerLen + (if f.piggybackSeq.isSome then 2 else 0) + f.payload.length := by
  rcases f with ⟨kind, flags, seq, index, total, payload, - | acked⟩ <;>
    simp [AircFrame.encode, toBeBytes, headerLen] <;> omega

/-- A carried acknowledgement is not in the payload. -/
theorem modifyHead_lengths (l : List AircFrame) (acked : UInt16) :
    ((l.modifyHead (·.attachPiggyback acked)).map fun f => f.payload.length) =
      l.map fun f => f.payload.length := by
  cases l <;> rfl

end FragmentSizes
