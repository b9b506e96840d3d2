import Rfircd.AprsRoundTrip
import Rfircd.FragmentCap
import Rfircd.ReservedNicks

/-! The nick that the server gives to a client whose own nick is taken from it. -/
namespace GuestNicks

open AddressText AprsRoundTrip Ax25Codec Basics Configuration HostKey IrcMessage MessageText
open ReservedNicks ServerCore.Server TextPieces Utf8Text

variable {t : Text}

/-! ### Its characters -/

/-- The name and the last digits of the number, as many as there is room for. -/
structure GuestName (maxNickLen : ℕ) (tail : Text) : Prop where
  digits : ∀ c ∈ tail, isAsciiDigit c = true
  fits : 6 ≤ maxNickLen → 6 + tail.length ≤ maxNickLen

theorem guestNick_tail (id maxNickLen : ℕ) :
    ∃ tail, guestNick id maxNickLen = "Guest_" ++ tail ∧ GuestName maxNickLen tail := by
  rw [guestNick]
  split_ifs with hroom
  · exact ⟨_, rfl, fun c hc => isAsciiDigit_natText hc, fun _ => hroom⟩
  · refine ⟨_, rfl, fun c hc => isAsciiDigit_natText (List.mem_of_mem_drop hc), fun hlen => ?_⟩
    rw [List.length_drop]
    omega

theorem alphanumeric_of_digit {c : Char} (h : isAsciiDigit c = true) :
    isAsciiAlphanumeric c = true := by
  rw [isAsciiAlphanumeric, h]
  rfl

theorem digit_kept {c : Char} (h : isAsciiDigit c = true) : c ≠ '|' ∧ c ≠ '-' ∧ lower [c] = [c] := by
  refine forall_ascii (P := fun c => isAsciiDigit c = true → c ≠ '|' ∧ c ≠ '-' ∧ lower [c] = [c]) ?_ c
    (alphanumeric_ascii (alphanumeric_of_digit h)) h
  decide +kernel

theorem guest_octets {n : ℕ} {tail : Text} (h : GuestName n tail) :
    octets ("Guest_" ++ tail) = 6 + tail.length := by
  rw [octets_append, octets_ascii fun c hc => alphanumeric_ascii (alphanumeric_of_digit (h.digits c hc))]
  rfl

/-! ### Outside of the callsigns -/

/-- No callsign has an underscore. -/
theorem new_underscore (h : '_' ∈ t) (ssid : ℕ) : Callsign.new t ssid = none := by
  have hmem : '_' ∈ (trim t).map toAsciiUpper :=
    List.mem_map.mpr ⟨'_', mem_trim_of_visible (by decide) h, by decide⟩
  refine if_pos (.inr (.inr (.inl fun hall => ?_)))
  exact absurd (List.all_eq_true.mp hall '_' hmem) (by decide)

theorem not_callsign (h : '_' ∈ t) (hbar : '|' ∉ t) (hdash : '-' ∉ t) :
    Callsign.fromNick t = none ∧ Callsign.fromStr t = none := by
  rw [Callsign.fromNick, Callsign.fromStr, splitOnce_of_not_mem hbar, splitOnce_of_not_mem hdash]
  exact ⟨new_underscore h 0, new_underscore h 0⟩

theorem guest_not_reserved {n : ℕ} {tail : Text} (h : GuestName n tail) :
    reservedFromNick ("Guest_" ++ tail) = none := by
  have hlower : lower ("Guest_" ++ tail) = "guest_" ++ tail := by
    rw [lower_append, lower_id fun c hc => (digit_kept (h.digits c hc)).2.2]
    rfl
  have hbar : '|' ∉ tail := fun hc => (digit_kept (h.digits _ hc)).1 rfl
  have hdash : '-' ∉ tail := fun hc => (digit_kept (h.digits _ hc)).2.1 rfl
  have hnone : ∀ word : Text, '_' ∈ word → '|' ∉ word → '-' ∉ word →
      Callsign.fromNick (word ++ tail) = none ∧ Callsign.fromStr (word ++ tail) = none := by
    intro word hword hb hd
    exact not_callsign (List.mem_append_left _ hword) (by simp [hb, hbar]) (by simp [hd, hdash])
  obtain ⟨hnick, hstr⟩ := hnone "Guest_" (by decide) (by decide) (by decide)
  obtain ⟨hnick', hstr'⟩ := hnone "guest_" (by decide) (by decide) (by decide)
  rw [reservedFromNick, hlower, hnick, hstr, hnick', hstr']
  rfl

/-! ### A nick that a client could have chosen -/

theorem guest_valid_iff {n : ℕ} {tail : Text} (h : GuestName n tail) :
    isValidNick ("Guest_" ++ tail) n = true ↔ 6 ≤ n := by
  have hfirst : (("Guest_" ++ tail : Text).head?.any fun c => isAsciiAlphabetic c || isSpecial c) =
      true := by rfl
  have hall : ("Guest_" ++ tail : Text).all (fun c => isAsciiAlphanumeric c || isSpecial c || c = '-') =
      true := by
    rw [List.all_append, Bool.and_eq_true]
    refine ⟨by decide, List.all_eq_true.mpr fun c hc => ?_⟩
    rw [alphanumeric_of_digit (h.digits c hc)]
    rfl
  have hne : ("Guest_" ++ tail : Text) ≠ [] := by simp
  rw [isValidNick, hfirst, hall, guest_octets h]
  simp only [hne, ne_eq, not_false_eq_true, true_and, Bool.and_true, decide_eq_true_eq]
  exact ⟨fun hle => by omega, h.fits⟩

/-- The nick that is given out is one that a client could have chosen, as long as the limit leaves
room for the six letters it starts with. -/
theorem guest_nick_accepted_iff (id maxNickLen : ℕ) :
    (isValidNick (guestNick id maxNickLen) maxNickLen = true ∧
      reservedFromNick (guestNick id maxNickLen) = none) ↔ 6 ≤ maxNickLen := by
  obtain ⟨tail, hguest, h⟩ := guestNick_tail id maxNickLen
  rw [hguest, guest_not_reserved h, guest_valid_iff h]
  simp

/-- Nicks of five letters. -/
def tight : Config :=
  { FragmentCap.small with server := { ServerRuns.Small.config with maxNickLen := 5 } }

theorem guest_longer_than_allowed : Accepted tight ∧
    guestNick 1 tight.server.maxNickLen = "Guest_" ∧
    isValidNick (guestNick 1 tight.server.maxNickLen) tight.server.maxNickLen = false :=
  ⟨⟨by decide +kernel, rfl⟩, by decide +kernel, by decide +kernel⟩

end GuestNicks
