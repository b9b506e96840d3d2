import Rfircd.MessageText
import Mathlib.Data.UInt

/-! A text is read back from its octets. -/
namespace Utf8Text

open Basics MessageText

/-! ### One character -/

/-- An octet behind the first of a character. -/
def Follows (b : UInt8) : Prop := 0x80 ≤ b.toNat ∧ b.toNat ≤ 0xBF

variable {a b c d : UInt8}

theorem prefix_one (ha : a.toNat < 0x80) (rest : List UInt8) : utf8Prefix (a :: rest) = (1, true) := by
  have hfirst : a < 0x80 := UInt8.lt_iff_toNat_lt.mpr ha
  unfold utf8Prefix
  dsimp only
  rw [if_pos hfirst]

theorem prefix_two (ha : 0xC2 ≤ a.toNat ∧ a.toNat ≤ 0xDF) (hb : Follows b) (rest : List UInt8) :
    utf8Prefix (a :: b :: rest) = (2, true) := by
  obtain ⟨hb₁, hb₂⟩ := hb
  unfold utf8Prefix
  simp only [UInt8.lt_iff_toNat_lt, UInt8.le_iff_toNat_le, List.head?_cons, Option.any_some,
    UInt8.reduceToNat]
  rw [if_neg (by omega), if_pos ha, if_pos (by simp [hb₁, hb₂])]

/-- The second octet of three or four may not be any. -/
theorem second_octet (hb : Follows b) (hlow : a.toNat = 0xE0 → 0xA0 ≤ b.toNat)
    (hhigh : a.toNat = 0xED → b.toNat ≤ 0x9F) (hlow' : a.toNat = 0xF0 → 0x90 ≤ b.toNat)
    (hhigh' : a.toNat = 0xF4 → b.toNat ≤ 0x8F) :
    (if a.toNat = 224 then (160 : UInt8) else if a.toNat = 240 then 144 else 128).toNat ≤ b.toNat ∧
      b.toNat ≤ (if a.toNat = 237 then (159 : UInt8) else if a.toNat = 244 then 143 else 191).toNat := by
  obtain ⟨hb₁, hb₂⟩ := hb
  constructor
  · split_ifs
    · exact hlow ‹_›
    · exact hlow' ‹_›
    · exact hb₁
  · split_ifs
    · exact hhigh ‹_›
    · exact hhigh' ‹_›
    · exact hb₂

theorem prefix_three (ha : 0xE0 ≤ a.toNat ∧ a.toNat ≤ 0xEF) (hb : Follows b) (hc : Follows c)
    (hlow : a.toNat = 0xE0 → 0xA0 ≤ b.toNat) (hhigh : a.toNat = 0xED → b.toNat ≤ 0x9F)
    (rest : List UInt8) : utf8Prefix (a :: b :: c :: rest) = (3, true) := by
  have hsecond := second_octet hb hlow hhigh (fun h => by omega) (fun h => by omega)
  obtain ⟨hc₁, hc₂⟩ := hc
  unfold utf8Prefix
  simp only [UInt8.lt_iff_toNat_lt, UInt8.le_iff_toNat_le, ← UInt8.toNat_inj, List.head?_cons,
    List.getElem?_cons_succ, List.getElem?_cons_zero, Option.any_some, UInt8.reduceToNat]
  rw [if_neg (by omega), if_neg (by omega), if_pos ha, if_neg (by simp [hsecond]),
    if_pos (by simp [hc₁, hc₂])]

theorem prefix_four (ha : 0xF0 ≤ a.toNat ∧ a.toNat ≤ 0xF4) (hb : Follows b) (hc : Follows c)
    (hd : Follows d) (hlow : a.toNat = 0xF0 → 0x90 ≤ b.toNat) (hhigh : a.toNat = 0xF4 → b.toNat ≤ 0x8F)
    (rest : List UInt8) : utf8Prefix (a :: b :: c :: d :: rest) = (4, true) := by
  have hsecond := second_octet hb (fun h => by omega) (fun h => by omega) hlow hhigh
  obtain ⟨hc₁, hc₂⟩ := hc
  obtain ⟨hd₁, hd₂⟩ := hd
  unfold utf8Prefix
  simp only [UInt8.lt_iff_toNat_lt, UInt8.le_iff_toNat_le, ← UInt8.toNat_inj, List.head?_cons,
    List.getElem?_cons_succ, List.getElem?_cons_zero, Option.any_some, UInt8.reduceToNat]
  rw [if_neg (by omega), if_neg (by omega), if_neg (by omega), if_pos ha, if_neg (by simp [hsecond]),
    if_neg (by simp [hc₁, hc₂]), if_pos (by simp [hd₁, hd₂])]

/-- The octets of a character stand for it, whatever is behind them. -/
theorem encoded_char (c : Char) (rest : List UInt8) :
    utf8Prefix (String.utf8EncodeChar c ++ rest) = ((String.utf8EncodeChar c).length, true) ∧
      utf8Char (String.utf8EncodeChar c) = c := by
  have hvalid : c.toNat < 0xD800 ∨ 0xDFFF < c.toNat ∧ c.toNat < 0x110000 := c.valid
  have hback : Char.ofNat c.toNat = c := Char.ofNat_toNat c
  have hval : c.val.toNat = c.toNat := rfl
  have hoctet : ∀ n < 256, (UInt8.ofNat n).toNat = n := fun n hn => UInt8.toNat_ofNat_of_lt' hn
  unfold String.utf8EncodeChar
  dsimp only
  rw [hval]
  generalize c.toNat = n at hvalid hback
  split_ifs with hone htwo hthree
  · refine ⟨prefix_one (by rw [hoctet _ (by omega)]; omega) rest, ?_⟩
    rw [utf8Char, hoctet _ (by omega), hback]
  · have ha : (UInt8.ofNat (n / 64 % 32 + 192)).toNat = n / 64 % 32 + 192 := hoctet _ (by omega)
    have hb : (UInt8.ofNat (n % 64 + 128)).toNat = n % 64 + 128 := hoctet _ (by omega)
    refine ⟨prefix_two (by omega) (by unfold Follows; omega) rest, ?_⟩
    rw [utf8Char, ha, hb]
    have hsum : (n / 64 % 32 + 192) % 32 * 64 + (n % 64 + 128) % 64 = n := by omega
    rw [hsum, hback]
  · have ha : (UInt8.ofNat (n / 4096 % 16 + 224)).toNat = n / 4096 % 16 + 224 := hoctet _ (by omega)
    have hb : (UInt8.ofNat (n / 64 % 64 + 128)).toNat = n / 64 % 64 + 128 := hoctet _ (by omega)
    have hc : (UInt8.ofNat (n % 64 + 128)).toNat = n % 64 + 128 := hoctet _ (by omega)
    refine ⟨prefix_three (by omega) (by unfold Follows; omega) (by unfold Follows; omega) (by omega)
      (by omega) rest, ?_⟩
    rw [utf8Char, ha, hb, hc]
    have hsum : (n / 4096 % 16 + 224) % 16 * 4096 + (n / 64 % 64 + 128) % 64 * 64 +
        (n % 64 + 128) % 64 = n := by omega
    rw [hsum, hback]
  · have ha : (UInt8.ofNat (n / 262144 % 8 + 240)).toNat = n / 262144 % 8 + 240 := hoctet _ (by omega)
    have hb : (UInt8.ofNat (n / 4096 % 64 + 128)).toNat = n / 4096 % 64 + 128 := hoctet _ (by omega)
    have hc : (UInt8.ofNat (n / 64 % 64 + 128)).toNat = n / 64 % 64 + 128 := hoctet _ (by omega)
    have hd : (UInt8.ofNat (n % 64 + 128)).toNat = n % 64 + 128 := hoctet _ (by omega)
    refine ⟨prefix_four (by omega) (by unfold Follows; omega) (by unfold Follows; omega)
      (by unfold Follows; omega) (by omega) (by omega) rest, ?_⟩
    rw [utf8Char, ha, hb, hc, hd]
    have hsum : (n / 262144 % 8 + 240) % 8 * 262144 + (n / 4096 % 64 + 128) % 64 * 4096 +
        (n / 64 % 64 + 128) % 64 * 64 + (n % 64 + 128) % 64 = n := by omega
    rw [hsum, hback]

theorem high_octet {k n : ℕ} (hk : 128 ≤ k) (hn : n + k < 256) : 128 ≤ (UInt8.ofNat (n + k)).toNat := by
  rw [UInt8.toNat_ofNat']
  omega

/-- The octets of a character are itself, or none below 128. -/
theorem of_mem_utf8EncodeChar {c : Char} {b : UInt8} (h : b ∈ String.utf8EncodeChar c) :
    b.toNat = c.toNat ∨ 128 ≤ b.toNat := by
  have hval : c.val.toNat = c.toNat := rfl
  unfold String.utf8EncodeChar at h
  simp only [hval] at h
  split_ifs at h with hone htwo hthree
  · obtain rfl := List.mem_singleton.mp h
    refine .inl ?_
    rw [UInt8.toNat_ofNat']
    omega
  all_goals
    refine .inr ?_
    simp only [List.mem_cons, List.not_mem_nil, or_false] at h
  · rcases h with rfl | rfl
    · exact high_octet (by omega) (by omega)
    · exact high_octet (by omega) (by omega)
  · rcases h with rfl | rfl | rfl
    · exact high_octet (by omega) (by omega)
    · exact high_octet (by omega) (by omega)
    · exact high_octet (by omega) (by omega)
  · rcases h with rfl | rfl | rfl | rfl
    · exact high_octet (by omega) (by omega)
    · exact high_octet (by omega) (by omega)
    · exact high_octet (by omega) (by omega)
    · exact high_octet (by omega) (by omega)

/-! ### Texts -/

theorem fromUtf8LossyWith_utf8 (t : Text) {fuel : ℕ} (h : (utf8 t).length ≤ fuel) :
    fromUtf8LossyWith fuel (utf8 t) = t := by
  induction t generalizing fuel with
  | nil => cases fuel <;> rfl
  | cons c t ih =>
    obtain ⟨hvalid, hchar⟩ := encoded_char c (utf8 t)
    have hsplit : utf8 (c :: t) = String.utf8EncodeChar c ++ utf8 t := List.flatMap_cons
    have hpos : 0 < (String.utf8EncodeChar c).length := by
      rw [String.length_utf8EncodeChar]
      exact Char.utf8Size_pos c
    rw [hsplit, List.length_append] at h
    cases fuel with
    | zero => omega
    | succ fuel =>
      have hsome : String.utf8EncodeChar c ++ utf8 t ≠ [] := by
        intro hnil
        rw [(List.append_eq_nil_iff.mp hnil).1] at hpos
        cases hpos
      rw [hsplit, fromUtf8LossyWith, if_neg hsome, hvalid]
      dsimp only
      rw [if_pos rfl, List.take_left, List.drop_left, hchar, ih (by omega)]

/-- Nothing of a text is damaged on the way. -/
theorem fromUtf8Lossy_utf8 (t : Text) : fromUtf8Lossy (utf8 t) = t :=
  fromUtf8LossyWith_utf8 t le_rfl

/-! ### Any octets -/

theorem utf8_append (t u : Text) : utf8 (t ++ u) = utf8 t ++ utf8 u := List.flatMap_append

theorem octets_append (t u : Text) : octets (t ++ u) = octets t + octets u := by
  rw [octets, utf8_append, List.length_append]
  rfl

theorem octets_cons (c : Char) (t : Text) : octets (c :: t) = octets [c] + octets t :=
  octets_append [c] t

/-- What counts as valid at the front is one octet of ASCII, or at least two octets. -/
theorem utf8Prefix_spec (b : UInt8) (rest : List UInt8) : 1 ≤ (utf8Prefix (b :: rest)).1 ∧
    ((utf8Prefix (b :: rest)).2 = true → b < 0x80 ∧ (utf8Prefix (b :: rest)).1 = 1 ∨
      2 ≤ (utf8Prefix (b :: rest)).1 ∧ rest ≠ []) := by
  have hmore : ∀ {p : UInt8 → Bool}, rest.head?.any p = true → rest ≠ [] := by
    rintro p h rfl
    cases h
  generalize hp : utf8Prefix (b :: rest) = p
  unfold utf8Prefix at hp
  dsimp -zeta only at hp
  extract_lets second follows lo2 hi2 at hp
  -- what is damaged has at least one octet, and a sequence is of one octet or goes on
  have hbad : ∀ n, 1 ≤ n → (n, false) = p → 1 ≤ p.1 ∧ (p.2 = true → b < 0x80 ∧ p.1 = 1 ∨
      2 ≤ p.1 ∧ rest ≠ []) := by
    rintro n hn rfl
    exact ⟨hn, fun h => by cases h⟩
  have hgood : ∀ n, 2 ≤ n → rest ≠ [] → (n, true) = p → 1 ≤ p.1 ∧ (p.2 = true → b < 0x80 ∧ p.1 = 1 ∨
      2 ≤ p.1 ∧ rest ≠ []) := by
    rintro n hn hrest rfl
    exact ⟨Nat.le_of_succ_le hn, fun _ => .inr ⟨hn, hrest⟩⟩
  split_ifs at hp with hone hlead htwo hlead hno hthree hlead hno hno' hfour
  · subst hp
    exact ⟨le_rfl, fun _ => .inl ⟨hone, rfl⟩⟩
  · exact hgood 2 le_rfl (hmore htwo) hp
  · exact hbad 1 le_rfl hp
  · exact hbad 1 le_rfl hp
  · exact hgood 3 (by omega) (hmore (by simpa using hno)) hp
  · exact hbad 2 (by omega) hp
  · exact hbad 1 le_rfl hp
  · exact hbad 2 (by omega) hp
  · exact hgood 4 (by omega) (hmore (by simpa using hno)) hp
  · exact hbad 3 (by omega) hp
  · exact hbad 1 le_rfl hp

theorem length_encoded_le (c : Char) : (String.utf8EncodeChar c).length ≤ 4 := by
  rw [String.length_utf8EncodeChar]
  exact c.utf8Size_le_four

theorem octets_single (c : Char) : octets [c] = (String.utf8EncodeChar c).length := by
  rw [octets, utf8, List.flatMap_singleton]

/-- A character of ASCII is one octet. -/
theorem utf8_ascii {t : Text} (h : ∀ c ∈ t, c.toNat < 0x80) :
    utf8 t = t.map fun c => UInt8.ofNat c.toNat := by
  induction t with
  | nil => rfl
  | cons c t ih =>
    obtain ⟨hc, ht⟩ := List.forall_mem_cons.mp h
    have hone : String.utf8EncodeChar c = [UInt8.ofNat c.toNat] := by
      have hval : c.val.toNat = c.toNat := rfl
      unfold String.utf8EncodeChar
      simp only [hval]
      rw [if_pos (Nat.le_of_lt_succ hc)]
    rw [← List.singleton_append, utf8_append, ih ht, utf8, List.flatMap_singleton, hone]
    rfl

theorem octets_ascii {t : Text} (h : ∀ c ∈ t, c.toNat < 0x80) : octets t = t.length := by
  rw [octets, utf8_ascii h, List.length_map]

/-- The replacement character is the longest text that one octet can become. -/
theorem octets_lossyWith (fuel : ℕ) (bs : List UInt8) :
    octets (fromUtf8LossyWith fuel bs) ≤ 3 * bs.length := by
  induction fuel generalizing bs with
  | zero => exact Nat.zero_le _
  | succ fuel ih =>
    unfold fromUtf8LossyWith
    cases bs with
    | nil => exact Nat.zero_le _
    | cons b rest =>
      obtain ⟨hsome, hvalid⟩ := utf8Prefix_spec b rest
      have hrest := ih ((b :: rest).drop (utf8Prefix (b :: rest)).1)
      rw [if_neg (List.cons_ne_nil b rest)]
      dsimp only
      rw [octets_cons]
      rw [List.length_drop, List.length_cons] at hrest
      rw [List.length_cons]
      by_cases hok : (utf8Prefix (b :: rest)).2 = true
      · rw [if_pos hok]
        rcases hvalid hok with ⟨hascii, hone⟩ | ⟨htwo, hmore⟩
        · have hchar : octets [utf8Char ((b :: rest).take (utf8Prefix (b :: rest)).1)] ≤ 3 := by
            have hall : ∀ n : Fin 128, octets [utf8Char [UInt8.ofNat n]] ≤ 3 := by decide +kernel
            have hb := hall ⟨b.toNat, UInt8.lt_iff_toNat_lt.mp hascii⟩
            rw [UInt8.ofNat_toNat] at hb
            rw [hone]
            exact hb
          omega
        · have hchar : octets [utf8Char ((b :: rest).take (utf8Prefix (b :: rest)).1)] ≤ 4 := by
            rw [octets_single]
            exact length_encoded_le _
          have := List.length_pos_iff.mpr hmore
          omega
      · have hchar : octets ['\uFFFD'] = 3 := by decide
        rw [if_neg hok, hchar]
        omega

theorem octets_lossy (bs : List UInt8) : octets (fromUtf8Lossy bs) ≤ 3 * bs.length :=
  octets_lossyWith bs.length bs

end Utf8Text
