import Rfircd.BridgeSteps
import Rfircd.ServerRuns
import Rfircd.TextPieces

/-! The screen on its own results.
A sanitised text is not changed by being sanitised again. What is shortened gets an ellipsis, and the
ciphertext test comes before that. -/
namespace StableScreening

open Basics MessageText AirPolicy ServerSteps TextPieces

variable {t : Text} {p : Policy}

/-! ### Clean texts -/

/-- No two spaces follow each other. -/
def Single (t : Text) : Prop := t.IsChain fun c d => ¬ (c = ' ' ∧ d = ' ')

theorem Single.no_double (h : Single t) : ¬ [' ', ' '] <:+: t := by
  intro hdouble
  have hpair := List.IsChain.infix h hdouble
  exact (List.isChain_cons_cons.mp hpair).1 ⟨rfl, rfl⟩

/-- What sanitising leaves: no control characters, single spaces, nothing blank at the ends. -/
structure Clean (t : Text) : Prop where
  printable : ∀ c ∈ t, isControl c = false
  single : Single t
  bounded : Bounded t

theorem single_snoc {out : Text} {c : Char} (h : Single out.reverse)
    (hc : ¬ (out.head? = some ' ' ∧ c = ' ')) : Single (c :: out).reverse := by
  rw [List.reverse_cons]
  refine List.IsChain.append h (List.isChain_singleton c) ?_
  intro d hd e he
  rw [List.getLast?_reverse] at hd
  obtain rfl := Option.some.inj he
  rintro ⟨rfl, rfl⟩
  exact hc ⟨hd, rfl⟩

theorem sanitizeFrom_single (n : ℕ) (out t : Text) (h : Single out.reverse) :
    Single (sanitizeFrom n out t) := by
  induction n generalizing out t with
  | zero => exact h
  | succ n ih =>
    cases t with
    | nil => exact h
    | cons c rest =>
      unfold sanitizeFrom
      split_ifs with hcolour hformat hblank hrepeat hcontrol
      · exact ih _ _ h
      · exact ih _ _ h
      · exact ih _ _ h
      · exact ih _ _ (single_snoc h fun hdouble => hrepeat hdouble.1)
      · exact ih _ _ h
      · refine ih _ _ (single_snoc h fun hdouble => hblank ?_)
        rw [hdouble.2]
        decide

theorem clean_sanitize (t : Text) : Clean (sanitize t) where
  printable := sanitize_printable t
  single := by
    have hchain := sanitizeFrom_single t.length [] t List.isChain_nil
    refine hchain.infix ?_
    have hleft : trim (sanitizeFrom t.length [] t) <+:
        (sanitizeFrom t.length [] t).dropWhile isWhitespace :=
      List.rdropWhile_prefix _ _
    exact hleft.isInfix.trans (List.dropWhile_suffix _).isInfix
  bounded := bounded_trim _

/-- What is printable and has single spaces is taken over as it is. -/
theorem sanitizeFrom_clean (n : ℕ) (out t : Text) (hn : t.length ≤ n)
    (hprintable : ∀ c ∈ t, isControl c = false) (hsingle : Single (out.reverse ++ t)) :
    sanitizeFrom n out t = out.reverse ++ t := by
  induction n generalizing out t with
  | zero =>
    obtain rfl := List.eq_nil_of_length_eq_zero (Nat.le_zero.mp hn)
    exact (List.append_nil _).symm
  | succ n ih =>
    cases t with
    | nil => exact (List.append_nil _).symm
    | cons c rest =>
      have hc := hprintable c List.mem_cons_self
      have hmark : ∀ d, isControl d = true → c ≠ d := by
        rintro d hd rfl
        exact Bool.false_ne_true (hc.symm.trans hd)
      have hformat : isFormatting c = false := by
        refine Bool.eq_false_iff.mpr fun hf => ?_
        simp only [isFormatting, Bool.or_eq_true, decide_eq_true_eq] at hf
        rcases hf with ((((rfl | rfl) | rfl) | rfl) | rfl) | rfl <;> exact absurd hc (by decide)
      have hnext : sanitizeFrom n (c :: out) rest = out.reverse ++ c :: rest := by
        have hsplit : (c :: out).reverse ++ rest = out.reverse ++ c :: rest := by
          rw [List.reverse_cons, List.append_assoc, List.singleton_append]
        rw [← hsplit]
        refine ih (c :: out) rest ?_ (fun d hd => hprintable d (List.mem_cons_of_mem _ hd)) ?_
        · exact Nat.le_of_succ_le_succ hn
        · rwa [hsplit]
      unfold sanitizeFrom
      rw [if_neg (hmark '\x03' (by decide)), if_neg (by rw [hformat]; exact Bool.false_ne_true)]
      by_cases hspace : c = ' '
      · subst hspace
        have hlast : out.head? ≠ some ' ' := by
          intro hlast
          have hjoint := (List.isChain_append.mp hsingle).2.2 ' '
            (by rw [List.getLast?_reverse]; exact hlast) ' ' rfl
          exact hjoint ⟨rfl, rfl⟩
        rw [if_pos (by decide), if_neg hlast]
        exact hnext
      · have hblank : ¬ (decide (c = '\r') || decide (c = '\n') || decide (c = '\t') ||
            decide (c = ' ')) = true := by
          simp [hmark '\r' (by decide), hmark '\n' (by decide), hmark '\t' (by decide), hspace]
        rw [if_neg hblank, if_neg (by rw [hc]; exact Bool.false_ne_true)]
        exact hnext

theorem sanitize_clean (h : Clean t) : sanitize t = t := by
  have hkept := sanitizeFrom_clean t.length [] t le_rfl h.printable h.single
  rw [List.reverse_nil, List.nil_append] at hkept
  rw [sanitize, hkept, trim_bounded h.bounded]

/-! ### The screen -/

/-- The text that is let through. -/
def radiated : Verdict → Option Text
  | .allow t | .truncated t => some t
  | .deny _ => none

/-- What is left of a text over the limit. -/
def shortened (p : Policy) (text : Text) : Text :=
  (sanitize text).take (p.config.maxRfTextLen - 1) ++ ['\u2026']

/-- What is let through is within the limit, and the screen lets it through as it is. -/
def Settled (p : Policy) (text : Text) : Prop :=
  ∀ t, radiated (p.screenOutbound text) = some t →
    t.length ≤ p.config.maxRfTextLen ∧ p.screenOutbound t = .allow t

/-- A piece of a clean text with an ellipsis behind it is clean. -/
theorem clean_shortened (h : Clean t) (n : ℕ) : Clean (t.take n ++ ['\u2026']) where
  printable := by
    intro c hc
    rcases List.mem_append.mp hc with hc | hc
    · exact h.printable c (List.mem_of_mem_take hc)
    · rw [List.mem_singleton.mp hc]
      decide
  single := by
    refine List.IsChain.append (h.single.take n) (List.isChain_singleton _) ?_
    intro c hc d hd
    obtain rfl := Option.some.inj hd
    rintro ⟨-, hd⟩
    revert hd
    decide
  bounded := by
    constructor
    · intro c hc
      cases htake : t.take n with
      | nil =>
        rw [htake] at hc
        obtain rfl := Option.some.inj hc
        decide
      | cons d rest =>
        rw [htake] at hc
        refine h.bounded.1 c ?_
        have hfront : (t.take n).head? = t.head? := by
          rw [List.head?_take, if_neg]
          rintro rfl
          cases htake
        rw [← hfront, htake]
        exact hc
    · intro c hc
      rw [List.getLast?_append, List.getLast?_singleton, Option.some_or] at hc
      obtain rfl := Option.some.inj hc
      decide

/-- A clean text meets the rest of the screen only. -/
theorem screen_clean (h : Clean t) (hsome : t ≠ []) : p.screenOutbound t =
    if p.config.blockApparentCiphertext && looksLikeCiphertext t then
      .deny ("refusing to transmit: the message looks like ciphertext or an armoured blob, " ++
        "and amateur transmissions must not obscure their meaning")
    else if p.config.maxRfTextLen < t.length then
      .truncated (t.take (p.config.maxRfTextLen - 1) ++ ['\u2026'])
    else .allow t := by
  unfold Policy.screenOutbound
  rw [sanitize_clean h]
  dsimp only
  rw [trim_bounded h.bounded, if_neg hsome]

/-- The verdict on a text, with what it was reached on. -/
theorem screen_cases (p : Policy) (text : Text) :
    radiated (p.screenOutbound text) = none ∧
      (sanitize text = [] ∨
        p.config.blockApparentCiphertext = true ∧ looksLikeCiphertext (sanitize text) = true) ∨
    (sanitize text ≠ [] ∧
      (p.config.blockApparentCiphertext && looksLikeCiphertext (sanitize text)) = false ∧
      ((p.config.maxRfTextLen < (sanitize text).length ∧
          radiated (p.screenOutbound text) = some (shortened p text)) ∨
        ((sanitize text).length ≤ p.config.maxRfTextLen ∧
          radiated (p.screenOutbound text) = some (sanitize text)))) := by
  have hclean := clean_sanitize text
  unfold Policy.screenOutbound
  dsimp only
  rw [trim_bounded hclean.bounded]
  by_cases hsome : sanitize text = []
  · rw [if_pos hsome]
    exact .inl ⟨rfl, .inl hsome⟩
  rw [if_neg hsome]
  cases hcipher : p.config.blockApparentCiphertext && looksLikeCiphertext (sanitize text) with
  | true =>
    obtain ⟨hblock, hlooks⟩ := Bool.and_eq_true .. |>.mp hcipher
    exact .inl ⟨rfl, .inr ⟨hblock, hlooks⟩⟩
  | false =>
    rw [if_neg Bool.false_ne_true]
    by_cases hlong : p.config.maxRfTextLen < (sanitize text).length
    · rw [if_pos hlong]
      exact .inr ⟨hsome, rfl, .inl ⟨hlong, rfl⟩⟩
    · rw [if_neg hlong]
      exact .inr ⟨hsome, rfl, .inr ⟨not_lt.mp hlong, rfl⟩⟩

theorem length_shortened (hlimit : 1 ≤ p.config.maxRfTextLen) (text : Text) :
    (shortened p text).length ≤ p.config.maxRfTextLen := by
  rw [shortened, List.length_append, List.length_take, List.length_singleton]
  omega

/-- Sanitising is for good. What the screen lets through it lets through again, unless the text was
over the limit and what is left of it looks like ciphertext. -/
theorem screening_settled (p : Policy) (hlimit : 1 ≤ p.config.maxRfTextLen) (text : Text) :
    ((∀ c ∈ sanitize text, isControl c = false) ∧ (sanitize text).head? ≠ some ' ' ∧
      (sanitize text).getLast? ≠ some ' ' ∧ ¬ [' ', ' '] <:+: sanitize text ∧
      sanitize (sanitize text) = sanitize text) ∧
    (Settled p text ↔
      (p.config.blockApparentCiphertext = true → looksLikeCiphertext (sanitize text) = false →
        p.config.maxRfTextLen < (sanitize text).length →
        looksLikeCiphertext (shortened p text) = false)) := by
  have hclean := clean_sanitize text
  refine ⟨⟨hclean.printable, fun h => ?_, fun h => ?_, hclean.single.no_double,
    sanitize_clean hclean⟩, ?_⟩
  · exact absurd (hclean.bounded.1 _ h) (by decide)
  · exact absurd (hclean.bounded.2 _ h) (by decide)
  have hshort : Clean (shortened p text) := clean_shortened hclean _
  have hpiece : shortened p text ≠ [] := by
    intro hnil
    have hlength := congrArg List.length hnil
    rw [shortened, List.length_append, List.length_singleton] at hlength
    cases hlength
  rcases screen_cases p text with ⟨hnone, hwhy⟩ | ⟨hsome, hplain, ⟨hlong, hpassed⟩ | ⟨hfits, hpassed⟩⟩
  · refine iff_of_true (fun t ht => ?_) fun hblock hlooks hlong => ?_
    · cases hnone.symm.trans ht
    · rcases hwhy with hempty | ⟨-, hcipher⟩
      · rw [hempty] at hlong
        cases hlong
      · cases hcipher.symm.trans hlooks
  · have hagain := screen_clean (p := p) hshort hpiece
    constructor
    · intro hsettled hblock _ _
      have hallow := (hsettled _ hpassed).2
      rw [hagain, hblock, Bool.true_and] at hallow
      cases hlooks : looksLikeCiphertext (shortened p text) with
      | false => rfl
      | true =>
        rw [hlooks, if_pos rfl] at hallow
        cases hallow
    · intro hcondition t ht
      obtain rfl := Option.some.inj (hpassed.symm.trans ht)
      refine ⟨length_shortened hlimit text, ?_⟩
      have hquiet : (p.config.blockApparentCiphertext &&
          looksLikeCiphertext (shortened p text)) = false := by
        cases hblock : p.config.blockApparentCiphertext with
        | false => rfl
        | true =>
          rw [hblock, Bool.true_and] at hplain
          rw [hcondition hblock hplain hlong]
          rfl
      rw [hagain, hquiet, if_neg Bool.false_ne_true,
        if_neg (not_lt.mpr (length_shortened hlimit text))]
  · refine iff_of_true (fun t ht => ?_) fun _ _ hlong => absurd hlong (not_lt.mpr hfits)
    obtain rfl := Option.some.inj (hpassed.symm.trans ht)
    refine ⟨hfits, ?_⟩
    rw [screen_clean hclean hsome, hplain, if_neg Bool.false_ne_true, if_neg (not_lt.mpr hfits)]

/-! ### Text at the limit -/

def terse : Policy := .new { ServerRuns.Small.policy with maxRfTextLen := 42, blockApparentCiphertext := true }

/-- A long word of letters and digits that ends in dots. -/
def dotted : Text := "Ab1Cd2Ef3Gh4Ij5Kl6Mn7Op8Qr9St0Uv1Wx2Yz3Ab4Cd5.........." ++ " over"

/-- A text of ordinary words is shortened and stays as it is. -/
theorem screening_settled_words :
    Settled terse "good morning from Stockholm, running five watts into a dipole" :=
  (screening_settled terse (by decide) _).2.mpr fun _ _ _ => by decide +kernel

/-- The dots are cut off, and what is left is what the screen refuses. -/
theorem shortened_looks_like_ciphertext :
    radiated (terse.screenOutbound dotted) = some (shortened terse dotted) ∧
    radiated (terse.screenOutbound (shortened terse dotted)) = none ∧ ¬ Settled terse dotted := by
  have hfirst : radiated (terse.screenOutbound dotted) = some (shortened terse dotted) := by
    decide +kernel
  have hsecond : radiated (terse.screenOutbound (shortened terse dotted)) = none := by decide +kernel
  refine ⟨hfirst, hsecond, fun h => ?_⟩
  rw [(h _ hfirst).2] at hsecond
  cases hsecond

end StableScreening
