import Rfircd.Ax25Codec
import Rfircd.BridgeSteps
import Rfircd.Configuration
import Rfircd.FieldLists
import Rfircd.FragmentSizes
import Rfircd.ServerRuns
import Rfircd.Utf8Text

/-! The cap on fragments. It is kept through a limit on characters; frames are counted in octets. -/
namespace FragmentCap

open Basics Airc AircSession MessageText IrcMessage AirTrace AirPolicy RadioGateway ServerOutput
open Ax25Codec Configuration FieldLists FragmentSizes RoundTrip ServerSteps Utf8Text

/-! ### Octets of a text -/

def Printable (t : Text) : Prop := ∀ c ∈ t, isControl c = false

theorem carried_printable {t : Text} (h : Printable t) : carried t = t := by
  rw [carried, List.filter_eq_self]
  intro c hc
  have hcontrol := h c hc
  by_contra hbad
  simp only [unsendable, Bool.not_eq_true, Bool.not_eq_false', Bool.or_eq_true,
    decide_eq_true_eq] at hbad
  rcases hbad with ((rfl | rfl) | rfl) | rfl <;> exact absurd hcontrol (by decide)

/-- No octet of a printable text is left out of a field. -/
theorem kept_utf8 {t : Text} (h : Printable t) :
    (utf8 t).filter (fun b => b ≠ fs ∧ b ≠ 13 ∧ b ≠ 10 ∧ b ≠ 0) = utf8 t := by
  rw [sendable_utf8, carried_printable h]

theorem textFields_length {a b c : Text} (ha : Printable a) (hb : Printable b) (hc : Printable c) :
    (textFields [a, b, c]).length = octets a + octets b + octets c + 2 := by
  simp only [textFields, encodeFields, List.map_cons, List.map_nil, kept_utf8 ha, kept_utf8 hb,
    kept_utf8 hc]
  simp [List.intercalate, List.intersperse, octets]
  omega

/-! ### Names and texts -/

theorem printable_of_isChannelName {t : Text} (h : isChannelName t = true) : Printable t := by
  intro c hc
  simp only [isChannelName, Bool.and_eq_true, List.all_eq_true] at h
  simpa using (h.2 c hc).2

/-- What nicks are made of, those of the stations among them. -/
def nickChar (c : Char) : Bool := isAsciiAlphanumeric c || isSpecial c || c = '-'

theorem nickChar_clear {c : Char} (h : nickChar c = true) :
    (isControl c = false ∧ c.toNat < 128) ∧ c ≠ ',' := by
  have hascii : c.toNat < 128 := by
    simp only [nickChar, Bool.or_eq_true, decide_eq_true_eq] at h
    rcases h with (halpha | hspecial) | rfl
    · exact alphanumeric_ascii halpha
    · have hall : ∀ d ∈ ("[]\\`_^\x7b|\x7d" : Text), d.toNat < 128 := by decide
      exact hall c (by simpa [isSpecial] using hspecial)
    · decide
  refine forall_ascii (P := fun c => nickChar c = true →
    (isControl c = false ∧ c.toNat < 128) ∧ c ≠ ',') ?_ c hascii h
  decide +kernel

theorem nickChar_valid {nick : Text} {maxLen : ℕ} (h : isValidNick nick maxLen = true) :
    nick ≠ [] ∧ ∀ c ∈ nick, nickChar c = true := by
  simp only [isValidNick, Bool.and_eq_true, decide_eq_true_eq, List.all_eq_true] at h
  exact ⟨h.1.1.1, h.2⟩

theorem printable_of_isValidNick {t : Text} {n : ℕ} (h : isValidNick t n = true) : Printable t :=
  fun c hc => (nickChar_clear ((nickChar_valid h).2 c hc)).1.1

/-- A callsign that was read from a text. -/
def Wellformed (call : Callsign) : Prop := ∃ base ssid, Callsign.new base ssid = some call

theorem nickChar_toNick {call : Callsign} (h : Wellformed call) :
    Callsign.toNick call ≠ [] ∧ ∀ c ∈ Callsign.toNick call, nickChar c = true := by
  have hvalid := valid_iff.mpr h
  have hbase : ∀ c ∈ call.base.toList, nickChar c = true := by
    intro c hc
    rw [nickChar, (plain_spec (hvalid.chars c hc)).1]
    rfl
  have hdigits : ∀ n : Fin 16, ∀ c ∈ (toString n.val).toList, nickChar c = true := by decide +kernel
  rw [Callsign.toNick]
  split_ifs
  · exact ⟨hvalid.nonempty, hbase⟩
  · refine ⟨by simp, fun c hc => ?_⟩
    rcases List.mem_append.mp hc with hc | hc
    · exact hbase c hc
    · rcases List.mem_cons.mp hc with rfl | hc
      · decide
      · exact hdigits ⟨call.ssid, Nat.lt_succ_of_le hvalid.ssid⟩ c hc

theorem printable_toNick {call : Callsign} (h : Wellformed call) : Printable (Callsign.toNick call) :=
  fun c hc => (nickChar_clear ((nickChar_toNick h).2 c hc)).1.1

/-! ### What is screened -/

/-- What goes on the air of a text. -/
def screened (cfg : ServerConfig) (text : Text) : Option Text :=
  match (Policy.new (Outlet.clampedPolicy cfg)).screenOutbound text with
  | .allow kept | .truncated kept => some kept
  | .deny _ => none

def fragmentCap (cfg : ServerConfig) : ℕ :=
  cfg.radio.sessions.maxPayload * max cfg.maxRfFragments 1 - 48

def textLimit (cfg : ServerConfig) : ℕ := (Outlet.clampedPolicy cfg).maxRfTextLen

theorem textLimit_le {cfg : ServerConfig} (h : 0 < fragmentCap cfg) :
    textLimit cfg ≤ fragmentCap cfg := by
  unfold textLimit Outlet.clampedPolicy
  dsimp only
  split_ifs with hcap
  · exact le_rfl
  · exact not_lt.mp fun hlt => hcap ⟨h, hlt⟩

variable {cfg : ServerConfig} {written kept : Text}

theorem screened_cases (h : screened cfg written = some kept) :
    kept = sanitize written ∧ kept.length ≤ textLimit cfg ∨
      kept = (sanitize written).take (textLimit cfg - 1) ++ ['\u2026'] := by
  unfold screened Policy.screenOutbound at h
  dsimp only at h
  split_ifs at h with hempty hcipher hlong
  · obtain rfl := Option.some.inj h
    exact .inr rfl
  · obtain rfl := Option.some.inj h
    exact .inl ⟨rfl, not_lt.mp hlong⟩

theorem screened_printable (h : screened cfg written = some kept) : Printable kept := by
  rcases screened_cases h with ⟨rfl, -⟩ | rfl
  · exact sanitize_printable written
  · intro c hc
    rcases List.mem_append.mp hc with hc | hc
    · exact sanitize_printable written c (List.mem_of_mem_take hc)
    · obtain rfl := List.mem_singleton.mp hc
      decide

theorem mem_skipDigits {n : ℕ} {t : Text} {c : Char} (h : c ∈ skipDigits n t) : c ∈ t := by
  induction n generalizing t with
  | zero => exact h
  | succ n ih =>
    cases t with
    | nil => exact h
    | cons d t =>
      unfold skipDigits at h
      split_ifs at h with hdigit
      · exact List.mem_cons_of_mem _ (ih h)
      · exact h

theorem mem_skipColour {t : Text} {c : Char} (h : c ∈ skipColour t) : c ∈ t := by
  unfold skipColour at h
  split at h
  · next rest heq =>
    exact mem_skipDigits (heq ▸ List.mem_cons_of_mem _ (mem_skipDigits h))
  · exact mem_skipDigits h

theorem mem_sanitizeFrom {n : ℕ} {out t : Text} {c : Char} (h : c ∈ sanitizeFrom n out t) :
    c ∈ out ∨ c ∈ t ∨ c = ' ' := by
  induction n generalizing out t with
  | zero => exact .inl (List.mem_reverse.mp h)
  | succ n ih =>
    cases t with
    | nil => exact .inl (List.mem_reverse.mp h)
    | cons d t =>
      have hbehind : ∀ {out' t' : Text}, c ∈ sanitizeFrom n out' t' →
          (c ∈ out' → c ∈ out ∨ c = d ∨ c = ' ') → (c ∈ t' → c ∈ t) →
          c ∈ out ∨ c ∈ d :: t ∨ c = ' ' := by
        intro out' t' hc hout ht
        rcases ih hc with hc | hc | rfl
        · rcases hout hc with hc | rfl | rfl
          · exact .inl hc
          · exact .inr (.inl List.mem_cons_self)
          · exact .inr (.inr rfl)
        · exact .inr (.inl (List.mem_cons_of_mem _ (ht hc)))
        · exact .inr (.inr rfl)
      unfold sanitizeFrom at h
      split_ifs at h with hcolour hformat hblank hrepeat hcontrol
      · exact hbehind h .inl mem_skipColour
      · exact hbehind h .inl id
      · exact hbehind h .inl id
      · refine hbehind h (fun hc => ?_) id
        rcases List.mem_cons.mp hc with rfl | hc
        · exact .inr (.inr rfl)
        · exact .inl hc
      · exact hbehind h .inl id
      · refine hbehind h (fun hc => ?_) id
        rcases List.mem_cons.mp hc with rfl | hc
        · exact .inr (.inl rfl)
        · exact .inl hc

def Ascii (t : Text) : Prop := ∀ c ∈ t, c.toNat < 128

instance (t : Text) : Decidable (Ascii t) := inferInstanceAs (Decidable (∀ c ∈ t, c.toNat < 128))

/-- The mark of a cut is three octets long. -/
theorem screened_octets (h : screened cfg written = some kept) (hascii : Ascii written)
    (hlimit : textLimit cfg ≠ 0) : octets kept ≤ textLimit cfg + 2 := by
  have hsanitized : Ascii (sanitize written) := by
    intro c hc
    rcases mem_sanitizeFrom (mem_trim hc) with hc | hc | rfl
    · exact absurd hc List.not_mem_nil
    · exact hascii c hc
    · decide
  rcases screened_cases h with ⟨rfl, hshort⟩ | rfl
  · rw [octets_ascii hsanitized]
    omega
  · have htaken : Ascii ((sanitize written).take (textLimit cfg - 1)) :=
      fun c hc => hsanitized c (List.mem_of_mem_take hc)
    have hmark : octets ['\u2026'] = 3 := by decide
    have hsum : ∀ a b : Text, octets (a ++ b) = octets a + octets b := by
      intro a b
      simp [octets, utf8]
    rw [hsum, octets_ascii htaken, hmark]
    have hlength := List.length_take_le (textLimit cfg - 1) (sanitize written)
    omega

/-! ### How many frames -/

theorem ceil_le_iff {max n o : ℕ} (hm : 0 < max) : (o + max - 1) / max ≤ n ↔ o ≤ max * n := by
  rw [Nat.div_le_iff_le_mul_add_pred hm]
  omega

theorem frameCount_le_iff {max n o : ℕ} (hm : 0 < max) (hn : n ≠ 0) :
    frameCount max o ≤ n ↔ o ≤ max * n := by
  rw [frameCount, Nat.max_le, ceil_le_iff hm]
  exact ⟨And.left, fun h => ⟨h, by omega⟩⟩

/-- An acknowledgement that is carried takes two octets of the first frame. -/
theorem chunkPayload_le_iff {max n : ℕ} (hm : 2 < max) (hn : n ≠ 0) (payload : List UInt8)
    (piggy : Bool) : (chunkPayload payload max piggy).length ≤ n ↔
      payload.length + (if piggy then 2 else 0) ≤ max * n := by
  have hfirst : (if piggy then Nat.max (max - 2) 1 else max) + (if piggy then 2 else 0) = max := by
    split_ifs
    · have : Nat.max (max - 2) 1 = max - 2 := Nat.max_eq_left (by omega)
      omega
    · rfl
  obtain ⟨k, rfl⟩ : ∃ k, n = k + 1 := ⟨n - 1, by omega⟩
  have hmul : max * (k + 1) = max * k + max := Nat.mul_succ _ _
  unfold chunkPayload
  dsimp only
  generalize (if piggy then Nat.max (max - 2) 1 else max) = firstMax at hfirst ⊢
  generalize (if piggy then 2 else 0 : ℕ) = extra at hfirst ⊢
  split_ifs with hshort
  · rw [List.length_singleton, hmul]
    omega
  · rw [List.length_cons, chunks_length (by omega), List.length_drop, Nat.add_le_add_iff_right,
      ceil_le_iff (by omega)]
    omega

/-- A line for a channel, or for one station, where it can carry an acknowledgement. -/
inductive Chat where
  | channel (name nick text : Text) (truncated : Bool)
  | direct (call : Callsign) (nick text : Text) (truncated carries : Bool)

namespace Chat

def payload : Chat → List UInt8
  | channel name nick text truncated => (Broadcast.chat name nick text truncated).payload
  | direct call nick text truncated _ => (Addressed.chat nick text truncated).payload call

/-- What becomes one frame each. -/
def parts (g : Gateway) : Chat → List (List UInt8)
  | x@(channel ..) => g.broadcastChunks x.payload
  | x@(direct _ _ _ _ carries) => chunkPayload x.payload g.radio.sessions.config.maxPayload carries

def text : Chat → Text
  | channel _ _ text _ | direct _ _ text _ _ => text

def nick : Chat → Text
  | channel _ nick _ _ | direct _ nick _ _ _ => nick

def target : Chat → Text
  | channel name .. => name
  | direct call .. => Callsign.toNick call

def carried : Chat → ℕ
  | channel .. => 0
  | direct _ _ _ _ carries => if carries then 2 else 0

/-- The octets of the names. -/
def names (x : Chat) : ℕ := octets x.target + octets x.nick + x.carried

/-- The names are legal, and the text was let through. -/
structure Legal (cfg : ServerConfig) (x : Chat) (written : Text) : Prop where
  target : match x with
    | channel name .. => isChannelName name = true
    | direct call .. => Wellformed call
  nick : isValidNick x.nick cfg.maxNickLen = true
  text : screened cfg written = some x.text

end Chat

variable {c : Config} {g : Gateway} {x : Chat}

theorem payload_length (h : x.Legal cfg written) :
    x.payload.length = octets x.target + octets x.nick + octets x.text + 2 := by
  obtain ⟨htarget, hnick, htext⟩ := h
  cases x with
  | channel name nick text truncated =>
    exact textFields_length (printable_of_isChannelName htarget) (printable_of_isValidNick hnick)
      (screened_printable htext)
  | direct call nick text truncated carries =>
    exact textFields_length (printable_toNick htarget) (printable_of_isValidNick hnick)
      (screened_printable htext)

theorem parts_le_iff (hm : 2 < g.radio.sessions.config.maxPayload) {n : ℕ} (hn : n ≠ 0)
    (h : x.Legal cfg written) : (x.parts g).length ≤ n ↔
      x.names + octets x.text + 2 ≤ g.radio.sessions.config.maxPayload * n := by
  have hlength := payload_length h
  have hnames : x.names = octets x.target + octets x.nick + x.carried := rfl
  cases x with
  | channel name nick text truncated =>
    have hcarried : (Chat.channel name nick text truncated).carried = 0 := rfl
    rw [Chat.parts, broadcastChunks_length, frameCount_le_iff (by omega) hn]
    omega
  | direct call nick text truncated carries =>
    have hcarried : (Chat.direct call nick text truncated carries).carried =
      if carries then 2 else 0 := rfl
    rw [Chat.parts, chunkPayload_le_iff hm hn]
    omega

/-- A station with three frames of 128 octets for a line. -/
def small : Config := ⟨ServerRuns.Small.config, 60, true, false, false, none⟩

def smallGateway : Gateway := .new ServerRuns.Small.radio (tncFromConfig ServerRuns.Small.config)

theorem small_accepted : Accepted small := ⟨by decide +kernel, rfl⟩

end FragmentCap
