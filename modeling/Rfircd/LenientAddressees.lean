import Rfircd.AprsCodec
import Rfircd.TextPieces

/-! The addressee of an APRS message, padded to nine characters or not.
A colon in the tenth place ends a padded one, whatever stands before it. -/
namespace LenientAddressees

open Basics MessageText IrcMessage AprsCodec AddressText TextPieces

variable {addr body rest : List UInt8}

/-! ### The end of the line -/

/-- Only what is behind the last octet of another kind is taken off. -/
theorem trimTrailing_append (front : List UInt8) {b : UInt8} (hb : ¬ (b = 13 ∨ b = 10 ∨ b = 0))
    (body : List UInt8) :
    trimTrailingCrlf (front ++ b :: body) = front ++ b :: trimTrailingCrlf body := by
  unfold trimTrailingCrlf
  have hkept : ¬ (decide (b = 13) || decide (b = 10) || decide (b = 0)) = true := by
    simpa [or_assoc] using hb
  rw [List.reverse_append, List.reverse_cons, List.append_assoc, List.singleton_append,
    List.dropWhile_append]
  split_ifs with hall
  · rw [List.dropWhile_cons, if_neg hkept, List.reverse_cons, List.reverse_reverse,
      List.isEmpty_iff.mp hall, List.reverse_nil]
  · rw [List.reverse_append, List.reverse_cons, List.reverse_reverse, List.append_assoc,
      List.singleton_append]

/-- What is taken off has no colon in it. -/
theorem getElem?_trimTrailing (body : List UInt8) (i : ℕ) :
    (trimTrailingCrlf body)[i]? = some 0x3A ↔ body[i]? = some 0x3A := by
  have hsplit : trimTrailingCrlf body ++
      (body.reverse.takeWhile fun b => b = 13 || b = 10 || b = 0).reverse = body := by
    unfold trimTrailingCrlf
    rw [← List.reverse_append, List.takeWhile_append_dropWhile, List.reverse_reverse]
  have hends : (0x3A : UInt8) ∉
      (body.reverse.takeWhile fun b => b = 13 || b = 10 || b = 0).reverse := by
    intro hmem
    have hcolon := List.mem_takeWhile_imp (List.mem_reverse.mp hmem)
    revert hcolon
    decide
  conv_rhs => rw [← hsplit]
  rw [List.getElem?_append]
  split_ifs with hi
  · rfl
  · refine iff_of_false (fun h => ?_) fun h => hends (List.mem_of_getElem? h)
    rw [List.getElem?_eq_none (not_lt.mp hi)] at h
    cases h

/-! ### The addressee -/

/-- What may stand in an addressee. -/
def legal (b : UInt8) : Bool := isAlphanumericOctet b || b = 0x2D || b = 0x20

/-- An addressee, up to nine characters long. The blanks at its ends are padding. -/
structure Addressee (addr : List UInt8) : Prop where
  nonempty : addr ≠ []
  length : addr.length ≤ 9
  legal : ∀ b ∈ addr, legal b = true
  first : addr.head? ≠ some 0x20
  last : addr.getLast? ≠ some 0x20

def padded (addr : List UInt8) : List UInt8 := addr ++ List.replicate (9 - addr.length) 0x20

theorem length_padded (h : addr.length ≤ 9) : (padded addr).length = 9 := by
  rw [padded, List.length_append, List.length_replicate]
  omega

/-- Legal octets are ASCII, the blank is the only blank among them, and none is a colon. -/
theorem legal_spec {b : UInt8} (h : legal b = true) :
    (isWhitespace (Char.ofNat b.toNat) = true ↔ b = 0x20) ∧ b ≠ 0x3A := by
  have hall : ∀ n : Fin 256, legal (UInt8.ofNat n) = true →
      (isWhitespace (Char.ofNat (UInt8.ofNat n).toNat) = true ↔ UInt8.ofNat n = 0x20) ∧
        UInt8.ofNat n ≠ 0x3A := by decide +kernel
  have hb := hall ⟨b.toNat, b.toNat_lt⟩
  dsimp only at hb
  rw [UInt8.ofNat_toNat] at hb
  exact hb h

theorem legal_padded (h : ∀ b ∈ addr, legal b = true) : ∀ b ∈ padded addr, legal b = true := by
  intro b hb
  rcases List.mem_append.mp hb with hb | hb
  · exact h b hb
  · rw [List.eq_of_mem_replicate hb]
    decide

/-- The padding is taken off. -/
theorem trim_padded (h : Addressee addr) : trim (asciiText (padded addr)) = asciiText addr := by
  have hblank : ∀ n, trim (asciiText addr ++ List.replicate n ' ') = asciiText addr := by
    intro n
    have hfirst : ∀ c, (asciiText addr).head? = some c → isWhitespace c = false := by
      intro c hc
      rw [asciiText, List.head?_map, Option.map_eq_some_iff] at hc
      obtain ⟨b, hb, rfl⟩ := hc
      have hmem := List.mem_of_mem_head? hb
      refine Bool.eq_false_iff.mpr fun hspace => h.first ?_
      rw [hb, (legal_spec (h.legal b hmem)).1.mp hspace]
    have hlast : ∀ c, (asciiText addr).getLast? = some c → isWhitespace c = false := by
      intro c hc
      rw [asciiText, List.getLast?_map, Option.map_eq_some_iff] at hc
      obtain ⟨b, hb, rfl⟩ := hc
      have hmem := List.mem_of_getLast? hb
      refine Bool.eq_false_iff.mpr fun hspace => h.last ?_
      rw [hb, (legal_spec (h.legal b hmem)).1.mp hspace]
    exact trim_padding ⟨hfirst, hlast⟩ n
  have hsplit : asciiText (padded addr) =
      asciiText addr ++ List.replicate (9 - addr.length) ' ' := by
    rw [asciiText, padded, List.map_append, List.map_replicate]
    rfl
  rw [hsplit]
  exact hblank _

/-! ### Where the addressee ends -/

/-- With nine characters the colon is where it should be. -/
theorem splitAddressee_nine (h : addr.length = 9) (body : List UInt8) :
    splitAddressee (addr ++ 0x3A :: body) = some (addr, body) := by
  have hcolon : (addr ++ 0x3A :: body)[9]? = some 0x3A := by
    rw [List.getElem?_append_right (by omega), h]
    rfl
  have htake : (addr ++ 0x3A :: body).take 9 = addr := by rw [← h, List.take_left]
  have hdrop : (addr ++ 0x3A :: body).drop 10 = body := by
    rw [← List.singleton_append, ← List.append_assoc, List.drop_left' (by simp [h])]
  rw [splitAddressee, if_pos hcolon, htake, hdrop]

/-- Without the padding the tenth octet is one of the body. -/
theorem tenth_octet (h : addr.length < 9) (body : List UInt8) :
    (addr ++ 0x3A :: body)[9]? = body[8 - addr.length]? := by
  rw [List.getElem?_append_right (by omega)]
  have hindex : 9 - addr.length = 8 - addr.length + 1 := by omega
  rw [hindex, List.getElem?_cons_succ]

theorem splitAddressee_short (h : Addressee addr) (hshort : addr.length < 9)
    (hbody : body[8 - addr.length]? ≠ some 0x3A) :
    splitAddressee (addr ++ 0x3A :: body) = some (addr, body) := by
  have hnone : ∀ b ∈ addr, decide (b = 0x3A) = false := by
    intro b hb
    exact decide_eq_false (legal_spec (h.legal b hb)).2
  have hcolon : (addr ++ 0x3A :: body).findIdx (· = 0x3A) = addr.length := by
    have hidx : addr.findIdx (· = 0x3A) = addr.length := by
      rw [List.findIdx_eq_length]
      exact hnone
    rw [List.findIdx_append, hidx, if_neg (lt_irrefl _), List.findIdx_cons]
    exact Nat.zero_add _
  have hpos : addr.length ≠ 0 := fun hzero => h.nonempty (List.eq_nil_of_length_eq_zero hzero)
  have hin : ¬ (addr.length = 0 ∨ 9 < addr.length ∨
      (addr ++ 0x3A :: body).length ≤ addr.length) := by
    rw [List.length_append, List.length_cons]
    omega
  have hdrop : (addr ++ 0x3A :: body).drop (addr.length + 1) = body := by
    rw [← List.singleton_append, ← List.append_assoc, List.drop_left' (by simp)]
  unfold splitAddressee
  rw [tenth_octet hshort, if_neg hbody]
  dsimp only
  rw [hcolon, if_neg hin, List.take_left, hdrop]

/-- A colon of the body in the tenth place makes the addressee end there. -/
theorem splitAddressee_taken (hshort : addr.length < 9)
    (hbody : body[8 - addr.length]? = some 0x3A) :
    ∃ front rest, splitAddressee (addr ++ 0x3A :: body) = some (front, rest) ∧ 0x3A ∈ front := by
  refine ⟨_, _, by rw [splitAddressee, tenth_octet hshort, if_pos hbody], ?_⟩
  have hmem : (addr ++ 0x3A :: body)[addr.length]? = some 0x3A := by
    rw [List.getElem?_append_right le_rfl, Nat.sub_self]
    rfl
  have htake := List.getElem?_take_of_lt (l := addr ++ 0x3A :: body) hshort
  rw [hmem] at htake
  exact List.mem_of_getElem? htake

/-! ### The message -/

/-- An information field with this addressee, or with what stands for one. -/
def field (front body : List UInt8) : List UInt8 := 0x3A :: front ++ 0x3A :: body

theorem trimTrailing_field (front body : List UInt8) :
    trimTrailingCrlf (field front body) = 0x3A :: (front ++ 0x3A :: trimTrailingCrlf body) :=
  trimTrailing_append (0x3A :: front) (by decide) body

/-- What a body says. -/
def said (body : List UInt8) : Text × Option Text :=
  splitMsgid (trimEnd (fromUtf8Lossy (trimTrailingCrlf body)))

/-- Once the addressee is found the message is read. -/
theorem decode_split {front : List UInt8} (h : Addressee addr)
    (hfront : ∀ b ∈ front, legal b = true) (htrim : trim (asciiText front) = asciiText addr)
    (hsplit : splitAddressee (front ++ 0x3A :: trimTrailingCrlf body) =
      some (front, trimTrailingCrlf body)) :
    AprsMessage.decode (field front body) = some ⟨(asciiText addr).map toAsciiUpper, (said body).1,
      (said body).2, classify (said body).1⟩ := by
  have hall : front.all (fun b => isAlphanumericOctet b || decide (b = 0x2D) || decide (b = 0x20)) =
      true := List.all_eq_true.mpr hfront
  have hsome : (asciiText addr).map toAsciiUpper ≠ [] := by
    simpa [asciiText] using h.nonempty
  unfold AprsMessage.decode
  rw [trimTrailing_field]
  change Option.bind (splitAddressee _) _ = _
  rw [hsplit, Option.bind_some]
  dsimp only
  rw [hall, Bool.not_true, if_neg Bool.false_ne_true, htrim, if_neg hsome]
  rfl

theorem decode_padded (h : Addressee addr) (body : List UInt8) :
    AprsMessage.decode (field (padded addr) body) = some ⟨(asciiText addr).map toAsciiUpper,
      (said body).1, (said body).2, classify (said body).1⟩ :=
  decode_split h (legal_padded h.legal) (trim_padded h)
    (splitAddressee_nine (length_padded h.length) _)

/-- Without padding the message is read if no colon of the body is in the tenth place. -/
theorem decode_short (h : Addressee addr) (hshort : addr.length < 9)
    (hbody : body[8 - addr.length]? ≠ some 0x3A) :
    AprsMessage.decode (field addr body) = some ⟨(asciiText addr).map toAsciiUpper,
      (said body).1, (said body).2, classify (said body).1⟩ := by
  have htrim := trim_padded h
  have hends : trim (asciiText addr) = asciiText addr := by
    rw [← htrim]
    exact trim_trim _
  refine decode_split h h.legal hends (splitAddressee_short h hshort ?_)
  rwa [Ne, getElem?_trimTrailing]

/-- A colon in the tenth place makes it no message. -/
theorem decode_taken (hshort : addr.length < 9) (hbody : body[8 - addr.length]? = some 0x3A) :
    AprsMessage.decode (field addr body) = none := by
  obtain ⟨front, rest, hsplit, hcolon⟩ :=
    splitAddressee_taken hshort ((getElem?_trimTrailing body _).mpr hbody)
  have hbad : front.all (fun b => isAlphanumericOctet b || decide (b = 0x2D) || decide (b = 0x20)) =
      false := List.all_eq_false.mpr ⟨0x3A, hcolon, by decide⟩
  unfold AprsMessage.decode
  rw [trimTrailing_field]
  change Option.bind (splitAddressee _) _ = _
  rw [hsplit, Option.bind_some]
  dsimp only
  rw [hbad, Bool.not_false, if_pos rfl]

/-- The field is read with the addressee that was meant, and says what it says in the padded form. -/
def ReadAs (addr front body : List UInt8) : Prop :=
  ∃ m p, AprsMessage.decode (field front body) = some m ∧
    AprsMessage.decode (field (padded addr) body) = some p ∧
    m.addressee = (asciiText addr).map toAsciiUpper ∧ m.text = p.text ∧ m.msgid = p.msgid

/-- Padded or not, the addressee is read, except that without padding a body with a colon in the tenth
place of the whole is taken for another form. -/
theorem lenient_addressee (h : Addressee addr) {front : List UInt8}
    (hform : front = padded addr ∨ front = addr) (body : List UInt8) :
    ReadAs addr front body ↔ front = padded addr ∨ body[8 - addr.length]? ≠ some 0x3A := by
  have hpadded := decode_padded h body
  by_cases hfull : front = padded addr
  · refine iff_of_true ⟨_, _, ?_, hpadded, rfl, rfl, rfl⟩ (.inl hfull)
    rw [hfull, hpadded]
  have hbare : front = addr := hform.resolve_left hfull
  have hshort : addr.length < 9 := by
    refine lt_of_le_of_ne h.length fun hnine => hfull ?_
    rw [hbare, padded, hnine]
    exact (List.append_nil _).symm
  constructor
  · rintro ⟨m, p, hm, -, -, -, -⟩
    refine .inr fun hbody => ?_
    rw [hbare, decode_taken hshort hbody] at hm
    cases hm
  · rintro (hpad | hbody)
    · exact absurd hpad hfull
    · rw [hbare]
      exact ⟨_, _, decode_short h hshort hbody, hpadded, rfl, rfl, rfl⟩

/-! ### A gateway that is written to -/

def gateway : List UInt8 := utf8 "SK0MT-1"

theorem gateway_addressee : Addressee gateway :=
  ⟨by decide +kernel, by decide +kernel, by decide +kernel, by decide +kernel, by decide +kernel⟩

/-- Colons elsewhere do no harm. -/
theorem lenient_addressee_colons : ReadAs gateway gateway (utf8 "#rf a: b: c\x7b01") :=
  (lenient_addressee gateway_addressee (.inr rfl) _).mpr (.inr (by decide +kernel))

/-- A message that starts with one letter and a colon is no message without the padding. -/
theorem colon_in_tenth_place :
    AprsMessage.decode (utf8 ":SK0MT-1:a:hello") = none ∧
    AprsMessage.decode (utf8 ":SK0MT-1  :a:hello") = some ⟨"SK0MT-1", "a:hello", none, .message⟩ ∧
    ¬ ReadAs gateway gateway (utf8 "a:hello") := by
  have hnone : AprsMessage.decode (utf8 ":SK0MT-1:a:hello") = none := by decide +kernel
  have hfield : field gateway (utf8 "a:hello") = utf8 ":SK0MT-1:a:hello" := by decide +kernel
  refine ⟨hnone, by decide +kernel, ?_⟩
  rintro ⟨m, p, hm, -⟩
  rw [hfield, hnone] at hm
  cases hm

end LenientAddressees
