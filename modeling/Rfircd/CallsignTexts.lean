import Rfircd.Ax25Codec
import Rfircd.RadioGateway
import Rfircd.TextPieces

/-! Callsigns as text: as it is sent, and as a nick. -/
namespace CallsignTexts

open Basics MessageText RadioGateway Ax25Codec TextPieces

variable {call : Callsign}

/-! ### As it is sent -/

theorem ssid_digits : ∀ n ≤ 15, (∀ c ∈ (toString n).toList, isAsciiDigit c = true) ∧
    (toString n).toList.length ≤ 2 := by decide +kernel

theorem parseU8_ssid : ∀ n ≤ 15, parseU8 (toString n).toList = some n := by decide +kernel

theorem valid_of_fromStr {t : Text} (h : Callsign.fromStr t = some call) : Valid call := by
  unfold Callsign.fromStr at h
  split at h
  · obtain ⟨n, -, hnew⟩ := Option.bind_eq_some_iff.mp h
    exact valid_of_new hnew
  · exact valid_of_new h

/-- The text of a callsign reads as the callsign. -/
theorem fromStr_callText (h : Valid call) : Callsign.fromStr (callText call) = some call := by
  have hdash : '-' ∉ call.base.toList := by
    intro hmem
    have halnum := (plain_spec (h.chars _ hmem)).1
    exact absurd halnum (by decide)
  unfold callText
  split_ifs with hzero
  · have hnew := h.new
    rw [hzero] at hnew
    rw [Callsign.fromStr, splitOnce_of_not_mem hdash]
    exact hnew
  · rw [Callsign.fromStr, splitOnce_append hdash]
    dsimp only
    rw [parseU8_ssid call.ssid h.ssid]
    exact h.new

end CallsignTexts
