import Rfircd.IrcMessage
import Rfircd.TextPieces

/-! The lines of the audit log, and which values are told apart by them. -/
namespace AuditRecords

open AddressText Basics HostKey IrcMessage MessageText

/-! ### Lines -/

/-- What a character becomes in a line. -/
def lineChar (c : Char) : Char :=
  if isControl c then ' '
  else if c = '\u0085' ∨ c = '\u2028' ∨ c = '\u2029' then ' '
  -- U+009B is a control sequence of its own
  else if 0x80 ≤ c.toNat ∧ c.toNat ≤ 0x9F then ' '
  else c

def oneLine (t : Text) : Text := t.map lineChar

/-- A quote inside of quotes becomes an apostrophe. -/
def requote (c : Char) : Char := if c = '"' then '\'' else c

def formatField (e : Text × Text) : Text :=
  let k := oneLine e.1
  let v := oneLine e.2
  if v.any isWhitespace then ' ' :: k ++ '=' :: '"' :: v.map requote ++ ['"']
  else ' ' :: k ++ '=' :: v

/-- `unix_ms event k=v k=v ...`. -/
def formatEvent (ts : ℕ) (kind : Text) (fields : List (Text × Text)) : Text :=
  fields.foldl (fun line e => line ++ formatField e) (natText ts ++ ' ' :: oneLine kind)

example : formatEvent 1 "kick" [("reason", "foo\nbar"), ("n", "3")] = "1 kick reason=\"foo bar\" n=3" := by
  decide +kernel

/-! ### One physical line -/

/-- The character stays on its line and moves nothing on a terminal. -/
def Inline (c : Char) : Prop :=
  isControl c = false ∧ c ≠ '\u0085' ∧ c ≠ '\u2028' ∧ c ≠ '\u2029'

instance (c : Char) : Decidable (Inline c) := inferInstanceAs (Decidable (_ ∧ _))

theorem inline_lineChar (c : Char) : Inline (lineChar c) := by
  rw [lineChar]
  split_ifs with hcontrol hbreak hhigh
  · decide
  · decide
  · decide
  · rw [not_or, not_or] at hbreak
    exact ⟨by simpa using hcontrol, hbreak⟩

theorem inline_digit {c : Char} (h : isAsciiDigit c = true) : Inline c := by
  simp only [isAsciiDigit, Bool.and_eq_true, decide_eq_true_eq, Char.le_def,
    UInt32.le_iff_toNat_le] at h
  change 48 ≤ c.toNat ∧ c.toNat ≤ 57 at h
  refine ⟨?_, ?_, ?_, ?_⟩
  · simp only [isControl, Bool.or_eq_false_iff, Bool.and_eq_false_iff, decide_eq_false_iff_not]
    omega
  all_goals
    rintro rfl
    exact absurd h (by decide)

theorem inline_oneLine (t : Text) : ∀ c ∈ oneLine t, Inline c := by
  intro c hc
  obtain ⟨d, -, rfl⟩ := List.mem_map.mp hc
  exact inline_lineChar d

theorem lineChar_inline {c : Char} (h : Inline c) : lineChar c = c := by
  obtain ⟨hcontrol, hbreaks⟩ := h
  have hhigh : ¬ (0x80 ≤ c.toNat ∧ c.toNat ≤ 0x9F) := by
    simp only [isControl, Bool.or_eq_false_iff, Bool.and_eq_false_iff, decide_eq_false_iff_not] at hcontrol
    omega
  rw [lineChar, hcontrol, if_neg Bool.false_ne_true, if_neg (by simp [hbreaks]), if_neg hhigh]

theorem oneLine_inline {t : Text} (h : ∀ c ∈ t, Inline c) : oneLine t = t :=
  (List.map_congr_left fun c hc => lineChar_inline (h c hc)).trans (List.map_id t)

theorem inline_requote {c : Char} (h : Inline c) : Inline (requote c) := by
  rw [requote]
  split_ifs
  · decide
  · exact h

theorem inline_formatField (e : Text × Text) : ∀ c ∈ formatField e, Inline c := by
  have hmarks : Inline ' ' ∧ Inline '=' ∧ Inline '"' := by decide
  obtain ⟨hspace, hequals, hquote⟩ := hmarks
  have hkey := inline_oneLine e.1
  have hvalue := inline_oneLine e.2
  intro c hc
  rw [formatField] at hc
  split_ifs at hc
  · simp only [List.cons_append, List.append_assoc, List.mem_cons, List.mem_append, List.mem_map,
      List.not_mem_nil, or_false] at hc
    rcases hc with rfl | hc | rfl | rfl | ⟨d, hd, rfl⟩ | rfl
    · exact hspace
    · exact hkey c hc
    · exact hequals
    · exact hquote
    · exact inline_requote (hvalue d hd)
    · exact hquote
  · simp only [List.cons_append, List.mem_cons, List.mem_append] at hc
    rcases hc with rfl | hc | rfl | hc
    · exact hspace
    · exact hkey c hc
    · exact hequals
    · exact hvalue c hc

/-- The text of some fields, one after the other. -/
def fieldsText (fields : List (Text × Text)) : Text := fields.flatMap formatField

theorem formatEvent_eq (ts : ℕ) (kind : Text) (fields : List (Text × Text)) :
    formatEvent ts kind fields = (natText ts ++ ' ' :: oneLine kind) ++ fieldsText fields := by
  rw [formatEvent, List.foldl_append_eq_append, fieldsText, List.flatMap_def]

/-! ### What is kept of a value -/

/-- A value as the log has it, without its marks. -/
def recorded (v : Text) : Text :=
  if (oneLine v).any isWhitespace then (oneLine v).map requote else oneLine v

/-- The marks are put around a value with spaces. -/
def shown (r : Text) : Text := if r.any isWhitespace then '"' :: r ++ ['"'] else r

theorem any_requote (t : Text) : (t.map requote).any isWhitespace = t.any isWhitespace := by
  have hsame : ∀ c, isWhitespace (requote c) = isWhitespace c := by
    intro c
    rw [requote]
    split_ifs with hc
    · rw [hc]
      decide
    · rfl
  rw [List.any_map]
  exact List.any_congr rfl fun c => hsame c

theorem formatField_eq (k v : Text) :
    formatField (k, v) = ' ' :: (oneLine k ++ '=' :: shown (recorded v)) := by
  rw [formatField, recorded, shown]
  by_cases hspaced : (oneLine v).any isWhitespace = true
  · rw [if_pos hspaced, if_pos hspaced, any_requote, if_pos hspaced]
    simp
  · rw [if_neg hspaced, if_neg hspaced, if_neg hspaced]
    rfl

/-- Between the marks there are no quotes. -/
theorem quote_not_recorded {v : Text} (h : (recorded v).any isWhitespace = true) :
    '"' ∉ recorded v := by
  rw [recorded] at h ⊢
  split_ifs at h ⊢ with hspaced
  · rintro hmem
    obtain ⟨c, -, hc⟩ := List.mem_map.mp hmem
    rw [requote] at hc
    split_ifs at hc with hquote
    · exact absurd hc (by decide)
    · exact hquote hc
  · exact absurd h hspaced

theorem inline_recorded (v : Text) : ∀ c ∈ recorded v, Inline c := by
  intro c hc
  rw [recorded] at hc
  split_ifs at hc
  · obtain ⟨d, hd, rfl⟩ := List.mem_map.mp hc
    exact inline_requote (inline_oneLine v d hd)
  · exact inline_oneLine v c hc

/-- What the log has of a value is what it has of it again. -/
theorem recorded_id {t : Text} (h : ∀ c ∈ t, Inline c)
    (hquote : t.any isWhitespace = true → '"' ∉ t) : recorded t = t := by
  rw [recorded, oneLine_inline h]
  split_ifs with hspaced
  · refine (List.map_congr_left fun c hc => ?_).trans (List.map_id t)
    have hne : c ≠ '"' := by
      rintro rfl
      exact hquote hspaced hc
    exact if_neg hne
  · rfl

/-! ### Where a value ends -/

/-- A value is over: the line is, or a space follows. -/
def Ended (t : Text) : Prop := t = [] ∨ ∃ u, t = ' ' :: u

theorem ended_fieldsText (fields : List (Text × Text)) : Ended (fieldsText fields) := by
  cases fields with
  | nil => exact .inl rfl
  | cons e fields => exact .inr ⟨_, by rw [fieldsText, List.flatMap_cons, formatField_eq]; rfl⟩

variable {a b d p r s t u x y : Text}

theorem not_whitespace (h : t.any isWhitespace = false) : ' ' ∉ t := by
  intro hmem
  exact absurd (List.any_eq_false.mp h _ hmem) (by decide)

/-- Two words before a space or the end are one. -/
theorem word_unique (ha : a.any isWhitespace = false) (hb : b.any isWhitespace = false)
    (ht : Ended t) (hu : Ended u) (h : a ++ t = b ++ u) : a = b ∧ t = u := by
  have hnil : ∀ {c w w' : Text}, w'.any isWhitespace = false → Ended w → (∃ l, w' = l ++ c) →
      (∃ l, w = c ++ l) → c = [] := by
    rintro c w w' hw' hw ⟨l, rfl⟩ ⟨l', rfl⟩
    cases c with
    | nil => rfl
    | cons d c =>
      rcases hw with hw | ⟨v, hw⟩
      · cases hw
      · obtain rfl : d = ' ' := (List.cons.inj hw).1
        exact absurd (List.mem_append_right l List.mem_cons_self) (not_whitespace hw')
  rcases List.append_eq_append_iff.mp h with ⟨c, rfl, rfl⟩ | ⟨c, rfl, rfl⟩
  · obtain rfl := hnil hb ht ⟨a, rfl⟩ ⟨u, rfl⟩
    simp
  · obtain rfl := hnil ha hu ⟨b, rfl⟩ ⟨t, rfl⟩
    simp

/-- Two texts before the closing mark are one. -/
theorem quoted_unique (ha : '"' ∉ a) (hb : '"' ∉ b) (h : a ++ '"' :: t = b ++ '"' :: u) :
    a = b ∧ t = u := by
  rcases List.append_eq_append_iff.mp h with ⟨c, rfl, hc⟩ | ⟨c, rfl, hc⟩
  · cases c with
    | nil => exact ⟨by simp, (List.cons.inj hc).2⟩
    | cons d c =>
      obtain rfl : '"' = d := (List.cons.inj hc).1
      exact absurd (List.mem_append_right a List.mem_cons_self) hb
  · cases c with
    | nil => exact ⟨by simp, (List.cons.inj hc).2.symm⟩
    | cons d c =>
      obtain rfl : '"' = d := (List.cons.inj hc).1
      exact absurd (List.mem_append_right b List.mem_cons_self) ha

/-! ### A value that looks like several -/

/-- Behind a space there is something like a name, an equals sign and a word that is over. -/
structure Continues (r x word rest : Text) : Prop where
  layout : r = ' ' :: (x ++ '=' :: (word ++ rest))
  whole : word.any isWhitespace = false
  ended : Ended rest

/-- The first value begins with a mark of its own and has no spaces. The second one goes on behind
the same letters as if there were another field. -/
structure Imitation (a b p x word rest : Text) : Prop where
  mark : recorded a = '"' :: p
  bare : (recorded a).any isWhitespace = false
  continued : ∃ r, recorded b = p ++ r ∧ Continues r x word rest

def Imitates (a b : Text) : Prop := ∃ p x word rest, Imitation a b p x word rest

/-- A text without quotes that fills the front of a value. -/
theorem value_front {v : Text} (hd : '"' ∉ d) (ht : Ended t)
    (h : shown (recorded v) ++ t = d ++ '"' :: u) :
    ∃ word rest, d = word ++ rest ∧ word.any isWhitespace = false ∧ Ended rest := by
  rw [shown] at h
  split_ifs at h with hspaced
  · cases d with
    | nil => exact ⟨[], [], rfl, rfl, .inl rfl⟩
    | cons c d =>
      obtain rfl : '"' = c := (List.cons.inj h).1
      exact absurd List.mem_cons_self hd
  · rw [Bool.not_eq_true] at hspaced
    rcases List.append_eq_append_iff.mp h with ⟨c, rfl, hc⟩ | ⟨c, hc, -⟩
    · refine ⟨recorded v, c, rfl, hspaced, ?_⟩
      rcases ht with ht | ⟨w, ht⟩
      · rw [ht] at hc
        exact .inl (List.append_eq_nil_iff.mp hc.symm).1
      · cases c with
        | nil => exact .inl rfl
        | cons e c =>
          rw [ht] at hc
          exact .inr ⟨c, by rw [(List.cons.inj hc).1]⟩
    · rw [hc, List.any_append, Bool.or_eq_false_iff] at hspaced
      exact ⟨d, [], by simp, hspaced.1, .inl rfl⟩

/-- A name with a quote in it, read over and over, has an equals sign before the quote. -/
theorem equals_before_quote (n : ℕ) : ∀ y : Text, y.length ≤ n →
    y ++ '=' :: r = ' ' :: (s ++ '"' :: (y ++ t)) →
    ∃ x d z, s = x ++ '=' :: d ∧ r = d ++ '"' :: z := by
  induction n with
  | zero =>
    intro y hy h
    rw [List.length_eq_zero_iff.mp (Nat.le_zero.mp hy)] at h
    exact absurd (List.cons.inj h).1 (by decide)
  | succ n ih =>
    intro y hy h
    cases y with
    | nil => exact absurd (List.cons.inj h).1 (by decide)
    | cons c y =>
      obtain ⟨rfl, htail⟩ := List.cons.inj h
      rcases List.append_eq_append_iff.mp htail with ⟨d, hs, hd⟩ | ⟨d, hy', hd⟩
      · cases d with
        | nil => exact absurd (List.cons.inj hd).1 (by decide)
        | cons e d =>
          obtain ⟨rfl, hr⟩ := List.cons.inj hd
          exact ⟨y, d, _, hs, hr⟩
      · cases d with
        | nil => exact absurd (List.cons.inj hd).1 (by decide)
        | cons e d =>
          -- what is left of the name is shorter, and stands where the name stood
          obtain ⟨rfl, hrest⟩ := List.cons.inj hd
          have hshort : d.length ≤ n := by
            have hlen := congrArg List.length hy'
            simp only [List.length_append, List.length_cons] at hlen hy
            omega
          have hagain : d ++ '=' :: r = ' ' :: (y ++ t) := hrest.symm
          refine ih d hshort ?_
          rw [hagain, hy', List.append_assoc, List.cons_append]

/-- The later fields of two records that began differently. -/
theorem continues_of_same {later later' : List (Text × Text)}
    (hnames : later.map Prod.fst = later'.map Prod.fst) (hr : '"' ∉ r) (hne : r ≠ [])
    (h : fieldsText later = r ++ '"' :: fieldsText later') :
    ∃ x word rest, Continues r x word rest := by
  cases later with
  | nil => exact absurd (List.append_eq_nil_iff.mp h.symm).1 hne
  | cons e later =>
    cases later' with
    | nil => cases hnames
    | cons e' later' =>
      obtain ⟨k, v⟩ := e
      obtain ⟨k', v'⟩ := e'
      obtain rfl : k = k' := (List.cons.inj hnames).1
      cases r with
      | nil => exact absurd rfl hne
      | cons c s =>
        simp only [fieldsText, List.flatMap_cons, formatField_eq, List.cons_append,
          List.append_assoc] at h
        obtain ⟨rfl, hfields⟩ := List.cons.inj h
        have hs : '"' ∉ s := fun hmem => hr (List.mem_cons_of_mem _ hmem)
        -- either way an equals sign stands before the quote, and a value behind it
        have hvalue : ∃ x d z, s = x ++ '=' :: d ∧
            shown (recorded v) ++ fieldsText later = d ++ '"' :: z := by
          rcases List.append_eq_append_iff.mp hfields with ⟨d, hd, hq⟩ | ⟨d, hd, hq⟩
          · cases d with
            | nil => exact absurd (List.cons.inj hq).1 (by decide)
            | cons f d =>
              obtain ⟨rfl, hrest⟩ := List.cons.inj hq
              exact ⟨_, d, _, hd, hrest⟩
          · cases d with
            | nil => exact absurd (List.cons.inj hq).1 (by decide)
            | cons f y =>
              obtain ⟨rfl, hrest⟩ := List.cons.inj hq
              rw [hd, List.append_assoc, List.cons_append] at hrest
              exact equals_before_quote y.length y le_rfl hrest.symm
        obtain ⟨x, d, z, hx, hd⟩ := hvalue
        have hdquote : '"' ∉ d := fun hmem => hs (by rw [hx]; simp [hmem])
        obtain ⟨word, rest, rfl, hwhole, hended⟩ := value_front hdquote (ended_fieldsText later) hd
        exact ⟨x, word, rest, by rw [hx], hwhole, hended⟩

/-! ### Two records -/

/-- Two lists of fields with the same names, and the values of the first field in which they
differ. -/
inductive DiffersFirst : List (Text × Text) → List (Text × Text) → Text → Text → Prop
  | here {k a b : Text} {l l' : List (Text × Text)} (hne : recorded a ≠ recorded b)
      (hnames : l.map Prod.fst = l'.map Prod.fst) : DiffersFirst ((k, a) :: l) ((k, b) :: l') a b
  | later {k c d a b : Text} {l l' : List (Text × Text)} (hsame : recorded c = recorded d)
      (hrest : DiffersFirst l l' a b) : DiffersFirst ((k, c) :: l) ((k, d) :: l') a b

/-- Two lists of values that differ do so first in some field. -/
theorem differsFirst_of_ne {l : List (Text × Text)} : ∀ {l' : List (Text × Text)},
    l.map Prod.fst = l'.map Prod.fst →
    l.map (fun e => recorded e.2) ≠ l'.map (fun e => recorded e.2) →
    ∃ a b, DiffersFirst l l' a b := by
  induction l with
  | nil =>
    intro l' hnames hne
    exact absurd (by rw [List.map_eq_nil_iff.mp hnames.symm]) hne
  | cons e l ih =>
    intro l' hnames hne
    cases l' with
    | nil => cases hnames
    | cons e' l' =>
      obtain ⟨k, a⟩ := e
      obtain ⟨k', b⟩ := e'
      simp only [List.map_cons, List.cons.injEq] at hnames
      obtain ⟨rfl, hrest⟩ := hnames
      by_cases hsame : recorded a = recorded b
      · obtain ⟨c, d, hcd⟩ := ih hrest fun h => hne (by simp [hsame, h])
        exact ⟨c, d, .later hsame hcd⟩
      · exact ⟨a, b, .here hsame hrest⟩

/-- The value with a mark of its own, against the one that has its marks from the log. -/
theorem imitates_of_mixed {later later' : List (Text × Text)}
    (hnames : later.map Prod.fst = later'.map Prod.fst)
    (ha : (recorded a).any isWhitespace = false) (hb : (recorded b).any isWhitespace = true)
    (h : recorded a ++ fieldsText later = '"' :: (recorded b ++ '"' :: fieldsText later')) :
    Imitates a b := by
  have hquote := quote_not_recorded hb
  cases hmark : recorded a with
  | nil =>
    rw [hmark, List.nil_append] at h
    rcases ended_fieldsText later with hend | ⟨w, hend⟩
    · rw [hend] at h
      cases h
    · rw [hend] at h
      exact absurd (List.cons.inj h).1 (by decide)
  | cons c p =>
    rw [hmark, List.cons_append] at h
    obtain ⟨rfl, htail⟩ := List.cons.inj h
    have hp : p.any isWhitespace = false := by
      rw [hmark, List.any_cons, Bool.or_eq_false_iff] at ha
      exact ha.2
    rcases List.append_eq_append_iff.mp htail with ⟨r, hr, hlater⟩ | ⟨r, hr, -⟩
    · have hrquote : '"' ∉ r := fun hmem => hquote (by rw [hr]; exact List.mem_append_right p hmem)
      have hne : r ≠ [] := by
        rintro rfl
        rw [hr, List.append_nil, hp] at hb
        cases hb
      obtain ⟨x, word, rest, hcontinues⟩ := continues_of_same hnames hrquote hne hlater
      exact ⟨p, x, word, rest, hmark, ha, r, hr, hcontinues⟩
    · rw [hr, List.any_append, hb] at hp
      cases hp

/-- Records that are one line although their values differ. -/
theorem imitates_of_same {l l' : List (Text × Text)} (h : DiffersFirst l l' a b)
    (hsame : fieldsText l = fieldsText l') : Imitates a b ∨ Imitates b a := by
  induction h with
  | later hvalue hrest ih =>
    refine ih ?_
    simp only [fieldsText, List.flatMap_cons, formatField_eq, hvalue] at hsame
    exact List.append_cancel_left hsame
  | @here k a b l l' hne hnames =>
    simp only [fieldsText, List.flatMap_cons, formatField_eq, List.cons_append,
      List.append_assoc] at hsame
    have hvalues : shown (recorded a) ++ fieldsText l = shown (recorded b) ++ fieldsText l' :=
      (List.cons.inj (List.append_cancel_left (List.cons.inj hsame).2)).2
    rw [shown, shown] at hvalues
    by_cases ha : (recorded a).any isWhitespace = true <;>
      by_cases hb : (recorded b).any isWhitespace = true
    · rw [if_pos ha, if_pos hb] at hvalues
      simp only [List.cons_append, List.append_assoc, List.cons.injEq, true_and] at hvalues
      exact absurd (quoted_unique (quote_not_recorded ha) (quote_not_recorded hb) hvalues).1 hne
    · rw [Bool.not_eq_true] at hb
      rw [if_pos ha, if_neg (by simp [hb])] at hvalues
      exact .inr (imitates_of_mixed hnames.symm hb ha (by simpa using hvalues.symm))
    · rw [Bool.not_eq_true] at ha
      rw [if_neg (by simp [ha]), if_pos hb] at hvalues
      exact .inl (imitates_of_mixed hnames ha hb (by simpa using hvalues))
    · rw [Bool.not_eq_true] at ha hb
      rw [if_neg (by simp [ha]), if_neg (by simp [hb])] at hvalues
      exact absurd (word_unique ha hb (ended_fieldsText l) (ended_fieldsText l') hvalues).1 hne

/-! ### Records that collide -/

theorem shown_word (h : ∀ c ∈ t, Inline c) (hword : t.any isWhitespace = false) :
    shown (recorded t) = t := by
  rw [recorded_id h fun hspaced => absurd (hword.symm.trans hspaced) Bool.false_ne_true, shown, hword]
  rfl

theorem shown_spaced (h : ∀ c ∈ t, Inline c) (hspaced : t.any isWhitespace = true)
    (hquote : '"' ∉ t) : shown (recorded t) = '"' :: t ++ ['"'] := by
  rw [recorded_id h fun _ => hquote, shown, if_pos hspaced]

/-- The fields behind the two values that make one text of both. -/
def behind (x word : Text) : Text → List (Text × Text) × List (Text × Text)
  | [] => ([(x, word ++ ['"']), (x, ' ' :: x ++ ['='])], [(x, ['"']), (x, ['"'])])
  | _ :: more =>
    ([(x, word), (more ++ '"' :: ' ' :: x, ' ' :: more), (x, ' ' :: x ++ ['='])],
      [(x, ['"']), (more ++ '"' :: ' ' :: x, ['"']), (x, ['"'])])

theorem behind_names (x word rest : Text) :
    (behind x word rest).1.map Prod.fst = (behind x word rest).2.map Prod.fst := by
  cases rest <;> rfl

theorem fieldsText_behind {word rest : Text} (h : Continues r x word rest)
    (hinline : ∀ c ∈ r, Inline c) (hquote : '"' ∉ r) :
    fieldsText (behind x word rest).1 = r ++ '"' :: fieldsText (behind x word rest).2 := by
  obtain ⟨rfl, hword, hended⟩ := h
  have hx : ∀ c ∈ x, Inline c := fun c hc => hinline c (by simp [hc])
  have hw : ∀ c ∈ word, Inline c := fun c hc => hinline c (by simp [hc])
  have hxquote : '"' ∉ x := fun hmem => hquote (by simp [hmem])
  have hone : shown (recorded ['"']) = ['"'] := by decide
  have hlast : shown (recorded (' ' :: x ++ ['='])) = '"' :: (' ' :: x ++ ['=']) ++ ['"'] :=
    shown_spaced (List.forall_mem_append.mpr ⟨List.forall_mem_cons.mpr ⟨by decide, hx⟩, by decide⟩)
      (by simp [isWhitespace]) (by simp [hxquote])
  rcases hended with rfl | ⟨more, rfl⟩
  · have hend : shown (recorded (word ++ ['"'])) = word ++ ['"'] :=
      shown_word (List.forall_mem_append.mpr ⟨hw, by decide⟩)
        (by rw [List.any_append, hword]; decide)
    simp only [behind, fieldsText, List.flatMap_cons, List.flatMap_nil, formatField_eq,
      oneLine_inline hx, hone, hlast, hend]
    simp
  · have hmore : ∀ c ∈ more, Inline c := fun c hc => hinline c (by simp [hc])
    have hmorequote : '"' ∉ more := fun hmem => hquote (by simp [hmem])
    have hname : oneLine (more ++ '"' :: ' ' :: x) = more ++ '"' :: ' ' :: x :=
      oneLine_inline (List.forall_mem_append.mpr
        ⟨hmore, List.forall_mem_cons.mpr ⟨by decide, List.forall_mem_cons.mpr ⟨by decide, hx⟩⟩⟩)
    have hmiddle : shown (recorded (' ' :: more)) = '"' :: (' ' :: more) ++ ['"'] :=
      shown_spaced (List.forall_mem_cons.mpr ⟨by decide, hmore⟩) (by simp [isWhitespace])
        (by simp [hmorequote])
    simp only [behind, fieldsText, List.flatMap_cons, List.flatMap_nil, formatField_eq,
      oneLine_inline hx, hname, hone, hlast, hmiddle, shown_word hw hword]
    simp

/-- Whoever imitates gets the same line, with the right fields behind. -/
theorem collision (h : Imitates a b) (k : Text) :
    ∃ l l', DiffersFirst l l' a b ∧ fieldsText l = fieldsText l' := by
  obtain ⟨p, x, word, rest, hmark, hbare, r, hr, hcontinues⟩ := h
  have hspaced : (recorded b).any isWhitespace = true := by
    rw [hr, hcontinues.layout]
    simp [isWhitespace]
  have hquote : '"' ∉ r := fun hmem =>
    quote_not_recorded hspaced (by rw [hr]; exact List.mem_append_right p hmem)
  have hinline : ∀ c ∈ r, Inline c := fun c hc =>
    inline_recorded b c (by rw [hr]; exact List.mem_append_right p hc)
  have hne : recorded a ≠ recorded b := by
    intro hsame
    rw [hsame, hspaced] at hbare
    cases hbare
  refine ⟨(k, a) :: (behind x word rest).1, (k, b) :: (behind x word rest).2,
    .here hne (behind_names x word rest), ?_⟩
  have htext := fieldsText_behind hcontinues hinline hquote
  rw [fieldsText, fieldsText, List.flatMap_cons, List.flatMap_cons, formatField_eq, formatField_eq,
    shown, shown, if_pos hspaced, hbare, if_neg Bool.false_ne_true, hmark, hr]
  rw [fieldsText, fieldsText] at htext
  rw [htext]
  simp

theorem DiffersFirst.symm {l l' : List (Text × Text)} (h : DiffersFirst l l' a b) :
    DiffersFirst l' l b a := by
  induction h with
  | here hne hnames => exact .here hne.symm hnames.symm
  | later hsame _ ih => exact .later hsame.symm ih

theorem formatEvent_inj (ts : ℕ) (kind : Text) {l l' : List (Text × Text)} :
    formatEvent ts kind l = formatEvent ts kind l' ↔ fieldsText l = fieldsText l' := by
  rw [formatEvent_eq, formatEvent_eq, List.append_cancel_left_eq]

/-- Every event is one line. Two lists of values that differ do so first in some field; and all the
lines for two values there, whatever the event, the names and the other values, are different if
and only if neither value imitates the other. -/
theorem audit_lines_distinct_iff (a b : Text) :
    (∀ ts kind fields, formatEvent ts kind fields ≠ [] ∧
      ∀ c ∈ formatEvent ts kind fields, Inline c) ∧
    (∀ l l' : List (Text × Text), l.map Prod.fst = l'.map Prod.fst →
      l.map (fun e => recorded e.2) ≠ l'.map (fun e => recorded e.2) →
      ∃ first second, DiffersFirst l l' first second) ∧
    ((∀ ts kind l l', DiffersFirst l l' a b → formatEvent ts kind l ≠ formatEvent ts kind l') ↔
      ¬ Imitates a b ∧ ¬ Imitates b a) := by
  refine ⟨fun ts kind fields => ⟨?_, ?_⟩, fun l l' => differsFirst_of_ne, ?_, ?_⟩
  · rw [formatEvent_eq]
    simp
  · rw [formatEvent_eq]
    refine List.forall_mem_append.mpr ⟨List.forall_mem_append.mpr ⟨fun c hc => ?_,
      List.forall_mem_cons.mpr ⟨by decide, inline_oneLine kind⟩⟩, fun c hc => ?_⟩
    · exact inline_digit (isAsciiDigit_natText hc)
    · obtain ⟨e, -, hc⟩ := List.mem_flatMap.mp hc
      exact inline_formatField e c hc
  · intro hall
    constructor
    · intro h
      obtain ⟨l, l', hfirst, htext⟩ := collision h []
      exact hall 0 [] l l' hfirst ((formatEvent_inj 0 []).mpr htext)
    · intro h
      obtain ⟨l, l', hfirst, htext⟩ := collision h []
      exact hall 0 [] l' l hfirst.symm ((formatEvent_inj 0 []).mpr htext.symm)
  · rintro ⟨ha, hb⟩ ts kind l l' hfirst hsame
    rcases imitates_of_same hfirst ((formatEvent_inj ts kind).mp hsame) with h | h
    · exact ha h
    · exact hb h

/-- A ban of one host for two reasons, or of two hosts. -/
theorem two_bans_one_line :
    recorded "\"p" ≠ recorded "p reason=" ∧ recorded " reason=y" ≠ recorded "y\"" ∧
    formatEvent 1 "kline" [("host", "\"p"), ("reason", " reason=y")] =
      formatEvent 1 "kline" [("host", "p reason="), ("reason", "y\"")] := by
  decide +kernel

end AuditRecords
