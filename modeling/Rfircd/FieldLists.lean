import Rfircd.Bridge
import Rfircd.RoundTrip
import Rfircd.Utf8Text

/-! The fields of a message are those its sender wrote, also after it was cut and put together. -/
namespace FieldLists

open Basics Airc AircSession AirTrace AtMostOnce Bridge FragmentBuffers MessageText RoundTrip
open TransitionSystem Utf8Text

/-! ### One field -/

/-- The separator, CR, LF and NUL. -/
def unsendable (c : Char) : Bool := c = '\x1f' || c = '\r' || c = '\n' || c = '\x00'

/-- What is left of a text in a field. -/
def carried (t : Text) : Text := t.filter fun c => !unsendable c

/-- The octets of a character go out together or not at all. -/
theorem sendable_octets (c : Char) :
    (String.utf8EncodeChar c).filter (fun b => b ≠ fs ∧ b ≠ 13 ∧ b ≠ 10 ∧ b ≠ 0) =
      if unsendable c then [] else String.utf8EncodeChar c := by
  split_ifs with hc
  · simp only [unsendable, Bool.or_eq_true, decide_eq_true_eq] at hc
    rcases hc with ((rfl | rfl) | rfl) | rfl <;> decide
  · simp only [unsendable, Bool.or_eq_true, decide_eq_true_eq, not_or] at hc
    obtain ⟨⟨⟨hfs, hcr⟩, hlf⟩, hnul⟩ := hc
    rw [List.filter_eq_self]
    intro b hb
    have hne : ∀ d : Char, d.toNat < 128 → c ≠ d → b ≠ UInt8.ofNat d.toNat := by
      rintro d hd hcd rfl
      have hoctet : (UInt8.ofNat d.toNat).toNat = d.toNat := UInt8.toNat_ofNat_of_lt' (show d.toNat < 256 by omega)
      rcases of_mem_utf8EncodeChar hb with hsame | hhigh
      · exact hcd (Char.toNat_inj.mp (hsame.symm.trans hoctet))
      · omega
    simp only [decide_eq_true_eq]
    exact ⟨hne _ (by decide) hfs, hne _ (by decide) hcr, hne _ (by decide) hlf, hne _ (by decide) hnul⟩

theorem sendable_utf8 (t : Text) :
    (utf8 t).filter (fun b => b ≠ fs ∧ b ≠ 13 ∧ b ≠ 10 ∧ b ≠ 0) = utf8 (carried t) := by
  induction t with
  | nil => rfl
  | cons c t ih =>
    have hsplit : utf8 (c :: t) = String.utf8EncodeChar c ++ utf8 t := List.flatMap_cons
    rw [hsplit, List.filter_append, sendable_octets, ih]
    cases hc : unsendable c with
    | true => simp [carried, hc]
    | false =>
      have hkept : carried (c :: t) = c :: carried t := by simp [carried, hc]
      rw [hkept]
      rfl

/-! ### A list of fields -/

/-- Whatever the fields contain, they are split again where they were joined. -/
theorem splitOn_encodeFields {fields : List (List UInt8)} (h : fields ≠ []) :
    (encodeFields fields).splitOn fs =
      fields.map fun f => f.filter fun b => b ≠ fs ∧ b ≠ 13 ∧ b ≠ 10 ∧ b ≠ 0 := by
  refine List.splitOn_intercalate fs ?_ (by simpa using h)
  intro l hl
  obtain ⟨f, -, rfl⟩ := List.mem_map.mp hl
  simp

theorem fieldTexts_of_payload {f : AircFrame} {texts : List Text} (h : texts ≠ [])
    (hf : f.payload = textFields texts) : fieldTexts f = texts.map carried := by
  rw [fieldTexts, AircFrame.fields, hf, textFields, splitOn_encodeFields (by simpa using h),
    List.map_map, List.map_map]
  refine List.map_congr_left fun t _ => ?_
  change fromUtf8Lossy ((utf8 t).filter _) = carried t
  rw [sendable_utf8, fromUtf8Lossy_utf8]

/-! ### Messages that were cut -/

/-- At whatever length the payload is cut, its pieces are the payload. -/
theorem fields_of_chunks {texts : List Text} (h : texts ≠ []) {max : ℕ} (hm : 0 < max)
    (piggy : Bool) {f : AircFrame}
    (hf : f.payload = (chunkPayload (textFields texts) max piggy).flatten) :
    fieldTexts f = texts.map carried := by
  refine fieldTexts_of_payload h ?_
  rw [hf, chunkPayload_flatten hm]

/-- What is put together from all the frames of a message. -/
theorem fields_put_together {texts : List Text} (h : texts ≠ []) {cfg : SessionConfig} {kind : Kind}
    (hk : kind ≠ .ack) (hh : kind ≠ .hello) (seq : UInt16) (reliable : Bool)
    (piggy : Option UInt16)
    (hfew : (chunkPayload (textFields texts) cfg.maxPayload piggy.isSome).length ≤ 255)
    (hw : 1 ≤ cfg.dedupWindow) {s : Sessions} (hc : s.config = cfg) {src : Callsign}
    (hfresh : Fresh s src seq) (hroom : HasRoom s src) (addressedToUs : Bool)
    {arrivals : List (AircFrame × ℕ)}
    (honly : ∀ a ∈ arrivals, a.1 ∈ produced cfg kind seq (textFields texts) reliable piggy)
    (hall : ∀ f ∈ produced cfg kind seq (textFields texts) reliable piggy,
      f ∈ arrivals.map Prod.fst) :
    ∃ d, (hearAll src addressedToUs s arrivals).2.filterMap id = [d] ∧ d.kind = kind ∧
      d.seq = seq ∧ fieldTexts d = texts.map carried := by
  have hv := @message_valid cfg kind seq (textFields texts) reliable piggy hk hfew
  obtain ⟨⟨earlier, a, later, d, -, -, -, hlist, hkind, hseq, hpayload⟩, -⟩ :=
    hearAll_waiting hk hh hv hw honly ⟨0, List.length_pos_of_ne_nil hv.parts, id⟩
      (by
        intro j hj
        obtain ⟨f, hf, rfl⟩ := frame_at hv hj
        obtain ⟨b, hb, rfl⟩ := List.mem_map.mp (hall f hf)
        exact .inr ⟨b, hb, rfl⟩) hc hroom (hfresh.waiting ..)
  refine ⟨d, ?_, hkind, hseq, fieldTexts_of_payload h hpayload⟩
  rw [hlist]
  simp

/-- In a run of a reception, whatever else arrives and however the messages were cut. -/
theorem fields_handed_over {cfg : SessionConfig} {src : Callsign} {r : AtMostOnce.Reception}
    (h : Reachable (system cfg src) (NumberNotReused src) r) {said : Message → List Text}
    (hsaid : ∀ m ∈ r.sent, said m ≠ [] ∧ m.payload = textFields (said m)) {d : AircFrame}
    (hd : .delivered d ∈ r.log) :
    ∃ m ∈ r.sent, d.kind = m.kind ∧ d.seq = m.seq ∧ fieldTexts d = (said m).map carried := by
  have hinvariant := (invariant_reachable cfg src).reachable h
  obtain ⟨m, hm, hkind, hseq, hpayload⟩ := hinvariant.sound.whole d hd
  obtain ⟨hne, hfields⟩ := hsaid m hm
  rw [(hinvariant.valid m hm).whole, hfields] at hpayload
  exact ⟨m, hm, hkind, hseq, fieldTexts_of_payload hne hpayload⟩

/-- A list of fields is split into as many fields as were joined, each without separators, line
breaks and NUL: at once, after it was cut at any length, when its frames arrive in any order and
repeatedly, and in every run in which no number is used again too early. -/
theorem field_lists_untampered :
    (∀ texts : List Text, texts ≠ [] → ∀ f : AircFrame, f.payload = textFields texts →
      fieldTexts f = texts.map carried) ∧
    (∀ texts : List Text, texts ≠ [] → ∀ max, 0 < max → ∀ (piggy : Bool) (f : AircFrame),
      f.payload = (chunkPayload (textFields texts) max piggy).flatten →
      fieldTexts f = texts.map carried) ∧
    (∀ texts : List Text, texts ≠ [] → ∀ (cfg : SessionConfig) (kind : Kind) (seq : UInt16)
      (reliable : Bool) (piggy : Option UInt16), kind ≠ .ack → kind ≠ .hello →
      (chunkPayload (textFields texts) cfg.maxPayload piggy.isSome).length ≤ 255 →
      1 ≤ cfg.dedupWindow → ∀ (s : Sessions) (src : Callsign), s.config = cfg → Fresh s src seq →
      HasRoom s src → ∀ (addressedToUs : Bool) (arrivals : List (AircFrame × ℕ)),
      (∀ a ∈ arrivals, a.1 ∈ produced cfg kind seq (textFields texts) reliable piggy) →
      (∀ f ∈ produced cfg kind seq (textFields texts) reliable piggy,
        f ∈ arrivals.map Prod.fst) →
      ∃ d, (hearAll src addressedToUs s arrivals).2.filterMap id = [d] ∧ d.kind = kind ∧
        d.seq = seq ∧ fieldTexts d = texts.map carried) ∧
    (∀ (cfg : SessionConfig) (src : Callsign) (r : AtMostOnce.Reception),
      Reachable (system cfg src) (NumberNotReused src) r → ∀ said : Message → List Text,
      (∀ m ∈ r.sent, said m ≠ [] ∧ m.payload = textFields (said m)) → ∀ d : AircFrame,
      .delivered d ∈ r.log →
      ∃ m ∈ r.sent, d.kind = m.kind ∧ d.seq = m.seq ∧ fieldTexts d = (said m).map carried) := by
  refine ⟨?_, ?_, ?_, ?_⟩
  · intro texts hne f hf
    exact fieldTexts_of_payload hne hf
  · intro texts hne max hm piggy f hf
    exact fields_of_chunks hne hm piggy hf
  · intro texts hne cfg kind seq reliable piggy hk hh hfew hw s src hc hfresh hroom addressedToUs
      arrivals honly hall
    exact fields_put_together hne hk hh seq reliable piggy hfew hw hc hfresh hroom addressedToUs
      honly hall
  · intro cfg src r hr said hsaid d hd
    exact fields_handed_over hr hsaid hd

/-- A nick with a separator in it, and a text with a line break. -/
def hostile : List Text := ["#a".toList, "an\x1fna".toList, [], "x\r\ny\x00".toList]

def hostileArrivals : List (AircFrame × ℕ) :=
  [5, 2, 0, 3, 1, 2, 4, 0].filterMap fun i =>
    (produced tiny .msg 5 (textFields hostile) true none)[i]?.map (·, i)

theorem field_lists_untampered_hostile :
    ∃ d, (hearAll sender true (.new tiny) hostileArrivals).2.filterMap id = [d] ∧
      fieldTexts d = ["#a".toList, "anna".toList, [], "xy".toList] := by
  obtain ⟨d, hd, -, -, hfields⟩ := field_lists_untampered.2.2.1 hostile (by decide) tiny .msg 5 true
    none (by decide) (by decide) (by decide +kernel) (by decide) (.new tiny) sender rfl
    (by decide +kernel) (by decide +kernel) true hostileArrivals (by decide +kernel)
    (by decide +kernel)
  exact ⟨d, hd, hfields.trans (by decide)⟩

end FieldLists
