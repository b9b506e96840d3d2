import Rfircd.CallsignTexts
import Rfircd.LenientAddressees
import Rfircd.Utf8Text

/-! An APRS message of ours is read as it was meant: chat, acknowledgements and refusals. -/
namespace AprsRoundTrip

open Basics MessageText IrcMessage RadioGateway AprsCodec Ax25Codec AddressText TextPieces CallsignTexts
open LenientAddressees Utf8Text

variable {dst : Callsign} {t nick text id : Text}

/-! ### ASCII -/

/-- A character of a callsign in the addressee. -/
def inCall (c : Char) : Bool := plain c || c = '-'

theorem inCall_ascii {c : Char} (h : inCall c = true) : c.toNat < 128 := by
  rcases (Bool.or_eq_true ..).mp h with hplain | hdash
  · exact alphanumeric_ascii (plain_spec hplain).1
  · rw [of_decide_eq_true hdash]
    decide

theorem inCall_spec {c : Char} (h : inCall c = true) :
    Char.ofNat (UInt8.ofNat c.toNat).toNat = c ∧ toAsciiUpper c = c ∧
      legal (UInt8.ofNat c.toNat) = true ∧ UInt8.ofNat c.toNat ≠ 0x20 := by
  refine forall_ascii (P := fun c => inCall c = true → Char.ofNat (UInt8.ofNat c.toNat).toNat = c ∧
    toAsciiUpper c = c ∧ legal (UInt8.ofNat c.toNat) = true ∧ UInt8.ofNat c.toNat ≠ 0x20) ?_ c
    (inCall_ascii h) h
  decide +kernel

theorem utf8_inCall (h : ∀ c ∈ t, inCall c = true) : utf8 t = t.map fun c => UInt8.ofNat c.toNat :=
  utf8_ascii fun c hc => inCall_ascii (h c hc)

theorem asciiText_utf8 (h : ∀ c ∈ t, inCall c = true) : asciiText (utf8 t) = t := by
  rw [utf8_inCall h, asciiText, List.map_map]
  refine (List.map_congr_left fun c hc => ?_).trans (List.map_id t)
  exact (inCall_spec (h c hc)).1

/-! ### The addressee -/

theorem callText_inCall (h : Valid dst) : ∀ c ∈ callText dst, inCall c = true := by
  have hbase : ∀ c ∈ dst.base.toList, inCall c = true := by
    intro c hc
    rw [inCall, h.chars c hc, Bool.true_or]
  intro c hc
  unfold callText at hc
  split_ifs at hc
  · exact hbase c hc
  · rcases List.mem_append.mp hc with hc | hc
    · exact hbase c hc
    · rcases List.mem_cons.mp hc with rfl | hc
      · decide
      · rw [inCall, plain, (ssid_digits dst.ssid h.ssid).1 c hc]
        rfl

theorem length_callText (h : Valid dst) : (callText dst).length ≤ 9 := by
  have hbase := h.length
  have hssid := (ssid_digits dst.ssid h.ssid).2
  unfold callText
  split_ifs
  · omega
  · rw [List.length_append, List.length_cons]
    omega

theorem callText_ne_nil (h : Valid dst) : callText dst ≠ [] := by
  unfold callText
  split_ifs
  · exact h.nonempty
  · exact List.append_ne_nil_of_left_ne_nil h.nonempty _

/-- A callsign is an addressee. -/
theorem callsign_addressee (h : Valid dst) : Addressee (utf8 (callText dst)) := by
  have hchars := callText_inCall h
  have hoctets := utf8_inCall hchars
  have hspec : ∀ b ∈ utf8 (callText dst), legal b = true ∧ b ≠ 0x20 := by
    intro b hb
    rw [hoctets] at hb
    obtain ⟨c, hc, rfl⟩ := List.mem_map.mp hb
    exact (inCall_spec (hchars c hc)).2.2
  refine ⟨?_, ?_, fun b hb => (hspec b hb).1, fun hfirst => ?_, fun hlast => ?_⟩
  · rw [hoctets]
    simpa using callText_ne_nil h
  · rw [hoctets, List.length_map]
    exact length_callText h
  · exact (hspec _ (List.mem_of_mem_head? hfirst)).2 rfl
  · exact (hspec _ (List.mem_of_getLast? hlast)).2 rfl

/-- The field is written with the addressee padded. -/
theorem utf8_addressee (h : Valid dst) : utf8 (addressee dst) = padded (utf8 (callText dst)) := by
  have hlength : (utf8 (callText dst)).length = (callText dst).length := by
    rw [utf8_inCall (callText_inCall h), List.length_map]
  have hblanks : ∀ n, utf8 (List.replicate n ' ') = List.replicate n 0x20 := by
    intro n
    induction n with
    | zero => rfl
    | succ n ih =>
      have hone : utf8 (' ' :: List.replicate n ' ') = 0x20 :: utf8 (List.replicate n ' ') := rfl
      rw [List.replicate_succ, hone, ih, List.replicate_succ]
  have hwhole : (callText dst).take 9 = callText dst := List.take_of_length_le (length_callText h)
  unfold addressee
  dsimp only
  rw [hwhole, utf8_append, hblanks, padded, hlength]

/-- A field to a callsign, read. -/
theorem decode_infoTo (h : Valid dst) (body : Text) :
    AprsMessage.decode (infoTo dst body) = some ⟨callText dst, (said (utf8 body)).1,
      (said (utf8 body)).2, classify (said (utf8 body)).1⟩ := by
  have hfield : infoTo dst body = field (padded (utf8 (callText dst))) (utf8 body) := by
    have hcolon : ∀ u : Text, utf8 (':' :: u) = 0x3A :: utf8 u := fun _ => rfl
    rw [field, infoTo, List.cons_append, hcolon, utf8_append, hcolon, utf8_addressee h]
    rfl
  have hupper : (callText dst).map toAsciiUpper = callText dst := by
    refine (List.map_congr_left fun c hc => ?_).trans (List.map_id _)
    exact (inCall_spec (callText_inCall h c hc)).2.1
  rw [hfield, decode_padded (callsign_addressee h), asciiText_utf8 (callText_inCall h), hupper]

/-! ### What a body says -/

/-- A letter or a digit is not taken off, is no brace, and is one octet. -/
theorem alphanumeric_end {c : Char} (h : isAsciiAlphanumeric c = true) :
    String.utf8EncodeChar c = [UInt8.ofNat c.toNat] ∧
      ¬ (UInt8.ofNat c.toNat = 13 ∨ UInt8.ofNat c.toNat = 10 ∨ UInt8.ofNat c.toNat = 0) ∧
      isWhitespace c = false ∧ c ≠ '\x7b' ∧ c ≠ '\x7d' ∧ c ≠ ':' := by
  refine forall_ascii (P := fun c => isAsciiAlphanumeric c = true →
    String.utf8EncodeChar c = [UInt8.ofNat c.toNat] ∧
      ¬ (UInt8.ofNat c.toNat = 13 ∨ UInt8.ofNat c.toNat = 10 ∨ UInt8.ofNat c.toNat = 0) ∧
      isWhitespace c = false ∧ c ≠ '\x7b' ∧ c ≠ '\x7d' ∧ c ≠ ':') ?_ c (alphanumeric_ascii h) h
  decide +kernel

/-- A message number, with what is known of its characters. -/
theorem msgidOk_spec (h : msgidOk id = true) :
    id ≠ [] ∧ id.length ≤ 5 ∧ ∀ c ∈ id, isAsciiAlphanumeric c = true := by
  obtain ⟨hlength, hall⟩ := (Bool.and_eq_true ..).mp h
  obtain ⟨hpos, hfew⟩ := of_decide_eq_true hlength
  have hchars := List.all_eq_true.mp hall
  have hoctets : octets id = id.length := by
    have hmap : utf8 id = id.map fun c => UInt8.ofNat c.toNat := by
      clear h hlength hpos hfew hall
      induction id with
      | nil => rfl
      | cons c id ih =>
        have hrest := ih fun d hd => hchars d (List.mem_cons_of_mem _ hd)
        unfold utf8 at hrest ⊢
        rw [List.flatMap_cons, (alphanumeric_end (hchars c List.mem_cons_self)).1, hrest]
        rfl
    rw [octets, hmap, List.length_map]
  refine ⟨?_, by omega, hchars⟩
  rintro rfl
  rw [hoctets] at hpos
  cases hpos

/-- With a letter or a digit at its end a body is read whole. -/
theorem said_of_end {c : Char} (h : isAsciiAlphanumeric c = true) (t : Text) :
    said (utf8 (t ++ [c])) = splitMsgid (t ++ [c]) := by
  obtain ⟨hoctet, hkept, hvisible, -⟩ := alphanumeric_end h
  have hsplit : utf8 (t ++ [c]) = utf8 t ++ UInt8.ofNat c.toNat :: [] := by
    rw [utf8_append]
    unfold utf8
    rw [List.flatMap_cons, hoctet]
    rfl
  have htrim : trimEnd (t ++ [c]) = t ++ [c] := by
    rw [trimEnd, List.reverse_append, List.reverse_singleton, List.singleton_append,
      List.dropWhile_cons_of_neg (by rw [hvisible]; exact Bool.false_ne_true), List.reverse_cons,
      List.reverse_reverse]
  have hwhole : trimTrailingCrlf (utf8 (t ++ [c])) = utf8 (t ++ [c]) := by
    rw [hsplit, trimTrailing_append _ hkept]
    rfl
  rw [said, hwhole, fromUtf8Lossy_utf8, htrim]

theorem said_of_ends (hne : id ≠ []) (h : ∀ c ∈ id, isAsciiAlphanumeric c = true) (t : Text) :
    said (utf8 (t ++ id)) = splitMsgid (t ++ id) := by
  have hlast := List.dropLast_append_getLast hne
  rw [← hlast, ← List.append_assoc]
  exact said_of_end (h _ (List.getLast_mem hne)) _

/-- The number is found behind the last brace, whatever braces the text has. -/
theorem splitMsgid_number (h : msgidOk id = true) (t : Text) :
    splitMsgid (t ++ '\x7b' :: id) = (t, some id) := by
  obtain ⟨-, -, hchars⟩ := msgidOk_spec h
  have hbrace : '\x7b' ∉ id.reverse := by
    intro hmem
    exact (alphanumeric_end (hchars _ (List.mem_reverse.mp hmem))).2.2.2.1 rfl
  have hlast : id.getLast? ≠ some '\x7d' := by
    intro hlast
    exact (alphanumeric_end (hchars _ (List.mem_of_getLast? hlast))).2.2.2.2.1 rfl
  have hreverse : (t ++ '\x7b' :: id).reverse = id.reverse ++ '\x7b' :: t.reverse := by
    rw [List.reverse_append, List.reverse_cons, List.append_assoc, List.singleton_append]
  unfold splitMsgid
  rw [hreverse, splitOnce_append hbrace]
  dsimp only
  rw [List.reverse_reverse, if_neg hlast, if_pos h, List.reverse_reverse]

theorem splitMsgid_plain (h : '\x7b' ∉ t) : splitMsgid t = (t, none) := by
  have hreverse : '\x7b' ∉ t.reverse := fun hmem => h (List.mem_reverse.mp hmem)
  rw [splitMsgid, splitOnce_of_not_mem hreverse]

/-! ### Control messages and chat -/

theorem mem_trim_of_visible {c : Char} (hc : isWhitespace c = false) (h : c ∈ t) : c ∈ trim t := by
  have hkept : ∀ {u : Text}, c ∈ u → c ∈ u.dropWhile isWhitespace := by
    intro u hu
    induction u with
    | nil => cases hu
    | cons d u ih =>
      rw [List.dropWhile_cons]
      split_ifs with hd
      · rcases List.mem_cons.mp hu with rfl | hu
        · rw [hc] at hd
          cases hd
        · exact ih hu
      · exact hu
  exact List.mem_reverse.mpr (hkept (List.mem_reverse.mpr (hkept h)))

/-- What is read as an acknowledgement or a refusal is one short word. -/
theorem control_word {mark : Text} (hmark : ∀ c ∈ mark, isAsciiAlphanumeric c = true)
    (h : (stripPrefix mark (trim t)).any msgidOk = true) :
    (trim t).length ≤ mark.length + 5 ∧ ∀ c ∈ trim t, isAsciiAlphanumeric c = true := by
  obtain ⟨number, hnumber, hok⟩ := Option.any_eq_true .. |>.mp h
  obtain ⟨-, hfew, hchars⟩ := msgidOk_spec hok
  unfold stripPrefix at hnumber
  split_ifs at hnumber with hprefix
  obtain rfl := Option.some.inj hnumber
  obtain ⟨rest, hrest⟩ := List.isPrefixOf_iff_prefix.mp hprefix
  rw [← hrest, List.drop_left] at hfew hchars
  rw [← hrest, List.length_append]
  refine ⟨by omega, fun c hc => ?_⟩
  rcases List.mem_append.mp hc with hc | hc
  · exact hmark c hc
  · exact hchars c hc

/-- The beginning of a line of chat, as much of it as is sent. -/
theorem chat_no_control (hnick : ∀ c ∈ nick, isWhitespace c = false) (text : Text) {mark : Text}
    (hmark : ∀ c ∈ mark, isAsciiAlphanumeric c = true) (hshort : mark.length ≤ 3) :
    (stripPrefix mark (trim ((nick ++ ':' :: ' ' :: text).take 67))).any msgidOk = false := by
  refine Bool.eq_false_iff.mpr fun h => ?_
  obtain ⟨hlength, hchars⟩ := control_word hmark h
  by_cases hlong : 67 ≤ nick.length
  · have htake : (nick ++ ':' :: ' ' :: text).take 67 = nick.take 67 :=
      List.take_append_of_le_length hlong
    have hvisible : ∀ c ∈ nick.take 67, isWhitespace c = false := fun c hc =>
      hnick c (List.mem_of_mem_take hc)
    rw [htake, trim_of_visible hvisible, List.length_take] at hlength
    omega
  · have hcolon : ':' ∈ (nick ++ ':' :: ' ' :: text).take 67 := by
      have hat : ((nick ++ ':' :: ' ' :: text).take 67)[nick.length]? = some ':' := by
        rw [List.getElem?_take_of_lt (by omega), List.getElem?_append_right le_rfl, Nat.sub_self]
        rfl
      exact List.mem_of_getElem? hat
    have halnum := hchars ':' (mem_trim_of_visible (by decide) hcolon)
    exact absurd halnum (by decide)

theorem classify_chat (hnick : ∀ c ∈ nick, isWhitespace c = false) (text : Text) :
    classify ((nick ++ ':' :: ' ' :: text).take 67) = .message := by
  unfold classify
  dsimp only
  rw [chat_no_control hnick text (by decide) (by decide), if_neg Bool.false_ne_true,
    chat_no_control hnick text (by decide) (by decide), if_neg Bool.false_ne_true]

theorem messageInfo_eq (dst : Callsign) (text id : Text) :
    messageInfo dst text id = infoTo dst (text.take 67 ++ '\x7b' :: id) := by
  rw [messageInfo, infoTo, List.append_assoc]
  rfl

theorem addressedTo_self (h : Valid dst) (text : Text) (msgid : Option Text) (kind : AprsKind) :
    (⟨callText dst, text, msgid, kind⟩ : AprsMessage).addressedTo dst = true := by
  unfold AprsMessage.addressedTo
  dsimp only
  rw [fromStr_callText h, Option.any_some, decide_eq_true rfl, Bool.true_or]

/-- A control message of ours is one word, and that word is read. -/
theorem decode_control (h : Valid dst) (hid : msgidOk id = true) {mark : Text}
    (hmark : ∀ c ∈ mark, isAsciiAlphanumeric c = true) :
    AprsMessage.decode (infoTo dst (mark ++ id)) =
      some ⟨callText dst, mark ++ id, none, classify (mark ++ id)⟩ ∧ trim (mark ++ id) = mark ++ id ∧
      stripPrefix mark (mark ++ id) = some id := by
  obtain ⟨hne, -, hchars⟩ := msgidOk_spec hid
  have hall : ∀ c ∈ mark ++ id, isAsciiAlphanumeric c = true := by
    intro c hc
    rcases List.mem_append.mp hc with hc | hc
    · exact hmark c hc
    · exact hchars c hc
  have hbrace : '\x7b' ∉ mark ++ id := fun hmem =>
    (alphanumeric_end (hall _ hmem)).2.2.2.1 rfl
  refine ⟨?_, trim_of_visible fun c hc => (alphanumeric_end (hall c hc)).2.2.1, ?_⟩
  · rw [decode_infoTo h, said_of_ends hne hchars, splitMsgid_plain hbrace]
  · rw [stripPrefix, if_pos (List.isPrefixOf_iff_prefix.mpr (List.prefix_append _ _)), List.drop_left]

/-- Chat to a station is read as chat with the text and the number that were sent, whatever is in the
text; an acknowledgement and a refusal give back the number that they are for. -/
theorem aprs_round_trip (hdst : Valid dst) (hnick : ∀ c ∈ nick, isWhitespace c = false) (text : Text)
    (hid : msgidOk id = true) :
    (∃ m, AprsMessage.decode (messageInfo dst (nick ++ ": " ++ text) id) = some m ∧
      m.addressee = callText dst ∧ m.text = (nick ++ ": " ++ text).take 67 ∧ m.msgid = some id ∧
      m.kind = .message ∧ m.controlMsgid = none ∧ m.addressedTo dst = true) ∧
    (∃ a, AprsMessage.decode (ackInfo dst id) = some a ∧ a.addressee = callText dst ∧ a.kind = .ack ∧
      a.controlMsgid = some id ∧ a.addressedTo dst = true) ∧
    (∃ r, AprsMessage.decode (rejInfo dst id) = some r ∧ r.addressee = callText dst ∧
      r.kind = .reject ∧ r.controlMsgid = some id ∧ r.addressedTo dst = true) := by
  obtain ⟨hne, -, hchars⟩ := msgidOk_spec hid
  refine ⟨?_, ?_, ?_⟩
  · have hbody : nick ++ (": " : Text) ++ text = nick ++ ':' :: ' ' :: text := by
      rw [List.append_assoc]
      rfl
    have hsaid : said (utf8 ((nick ++ ':' :: ' ' :: text).take 67 ++ '\x7b' :: id)) =
        ((nick ++ ':' :: ' ' :: text).take 67, some id) := by
      have hends := said_of_ends hne hchars ((nick ++ ':' :: ' ' :: text).take 67 ++ ['\x7b'])
      rw [List.append_assoc, List.singleton_append] at hends
      rw [hends, splitMsgid_number hid]
    refine ⟨⟨callText dst, (nick ++ ':' :: ' ' :: text).take 67, some id, .message⟩, ?_, rfl, ?_, rfl,
      rfl, rfl, addressedTo_self hdst ..⟩
    · rw [hbody, messageInfo_eq, decode_infoTo hdst, hsaid]
      dsimp only
      rw [classify_chat hnick]
    · rw [hbody]
  · obtain ⟨hdecode, htrim, hstrip⟩ := decode_control hdst hid
      (show ∀ c ∈ ("ack" : Text), isAsciiAlphanumeric c = true by decide)
    have hkind : classify ("ack" ++ id) = .ack := by
      unfold classify
      dsimp only
      rw [htrim, hstrip, Option.any_some, hid, if_pos rfl]
    refine ⟨_, hdecode, rfl, hkind, ?_, addressedTo_self hdst ..⟩
    unfold AprsMessage.controlMsgid
    dsimp only
    rw [hkind]
    dsimp only
    rw [htrim, hstrip, Option.filter_some, if_pos hid]
  · obtain ⟨hdecode, htrim, hstrip⟩ := decode_control hdst hid
      (show ∀ c ∈ ("rej" : Text), isAsciiAlphanumeric c = true by decide)
    have hack : stripPrefix "ack" ("rej" ++ id) = none := rfl
    have hkind : classify ("rej" ++ id) = .reject := by
      unfold classify
      dsimp only
      rw [htrim, hack, hstrip, Option.any_none, if_neg Bool.false_ne_true, Option.any_some, hid,
        if_pos rfl]
    refine ⟨_, hdecode, rfl, hkind, ?_, addressedTo_self hdst ..⟩
    unfold AprsMessage.controlMsgid
    dsimp only
    rw [hkind]
    dsimp only
    rw [htrim, hstrip, Option.filter_some, if_pos hid]

/-- A line full of marks, from somebody with the name of one. -/
theorem aprs_round_trip_marks :
    ∃ m, AprsMessage.decode (messageInfo ⟨"SM0ABC", 7⟩ ("ack12" ++ ": " ++ "rej1: \x7b99\x7d ack1\x7b2")
      "A1") = some m ∧ m.addressee = callText ⟨"SM0ABC", 7⟩ ∧
      m.text = ("ack12" ++ ": " ++ "rej1: \x7b99\x7d ack1\x7b2" : Text).take 67 ∧ m.msgid = some "A1" ∧
      m.kind = .message ∧ m.controlMsgid = none ∧ m.addressedTo ⟨"SM0ABC", 7⟩ = true := by
  have hdst : Valid ⟨"SM0ABC", 7⟩ := by decide
  have hnick : ∀ c ∈ ("ack12" : Text), isWhitespace c = false := by decide
  have hid : msgidOk ("A1" : Text) = true := by decide
  exact (aprs_round_trip hdst hnick _ hid).1

end AprsRoundTrip
