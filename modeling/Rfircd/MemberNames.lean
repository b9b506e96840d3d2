import Mathlib.Algebra.Order.BigOperators.Group.List
import Rfircd.GreedyLines
import Rfircd.MessageLines
import Rfircd.ServerRuns
import Rfircd.Utf8Text

/-! Who is in a channel, as a client reads it from the lines that its writer has cut. -/
namespace MemberNames

open Basics KeyedTable MessageText IrcMessage IrcMessage.Message IrcState ServerOutput ServerOutput.Outlet
  HostKey AddressText Ax25Codec TextPieces Utf8Text MessageLines GreedyLines

variable {t u token word origin nick chan : Text} {c : Char} {names chunk : List Text}

/-! ### The writer -/

/-- A cut inside a character moves back to where the character begins. -/
def takeOctets : ℕ → Text → Text
  | _, [] => []
  | max, c :: t => if octets [c] ≤ max then c :: takeOctets (max - octets [c]) t else []

def truncateUtf8 (line : Text) (max : ℕ) : Text :=
  if octets line ≤ max then line else takeOctets max line

theorem takeOctets_front (max : ℕ) (t : Text) : takeOctets max t <+: t := by
  induction t generalizing max with
  | nil => exact List.prefix_rfl
  | cons c t ih =>
    rw [takeOctets]
    split_ifs
    · exact List.cons_prefix_cons.mpr ⟨rfl, ih _⟩
    · exact List.nil_prefix

theorem octets_takeOctets (max : ℕ) (t : Text) : octets (takeOctets max t) ≤ max := by
  induction t generalizing max with
  | nil => exact Nat.zero_le max
  | cons c t ih =>
    rw [takeOctets]
    split_ifs with hfits
    · have := ih (max - octets [c])
      rw [octets_cons]
      omega
    · exact Nat.zero_le max

theorem truncateUtf8_front (line : Text) (max : ℕ) : truncateUtf8 line max <+: line := by
  unfold truncateUtf8
  split_ifs
  · exact List.prefix_rfl
  · exact takeOctets_front max line

/-- A line is left whole or gets shorter. -/
theorem truncateUtf8_eq_iff (line : Text) (max : ℕ) : truncateUtf8 line max = line ↔ octets line ≤ max := by
  constructor
  · intro h
    by_contra hlong
    rw [truncateUtf8, if_neg hlong] at h
    exact hlong (h ▸ octets_takeOctets max line)
  · exact fun h => if_pos h

/-! ### Words that are read -/

/-- A name can be read: it has no blanks in it, and nothing that is taken out of a line. -/
def Legible (name : Text) : Prop := name ≠ [] ∧ ∀ c ∈ name, isWhitespace c = false ∧ isBreak c = false

instance (name : Text) : Decidable (Legible name) := inferInstanceAs (Decidable (_ ∧ _))

theorem wordsFrom_flatten (token t : Text) :
    (wordsFrom token t).flatten = token.reverse ++ t.filter fun c => !isWhitespace c := by
  induction t generalizing token with
  | nil =>
    rw [wordsFrom]
    split_ifs with htoken
    · rw [htoken]
      rfl
    · simp
  | cons c t ih =>
    rw [wordsFrom]
    split_ifs with hblank htoken
    · rw [ih, htoken, List.filter_cons_of_neg (by simpa using hblank)]
    · rw [List.flatten_cons, ih, List.filter_cons_of_neg (by simpa using hblank)]
      rfl
    · rw [ih, List.filter_cons_of_pos (by simpa using hblank), List.reverse_cons, List.append_assoc,
        List.singleton_append]

/-- A word ends at a blank. -/
theorem wordsFrom_word (hword : ∀ c ∈ word, isWhitespace c = false) (hne : token ≠ [] ∨ word ≠ [])
    (t : Text) : wordsFrom token (word ++ ' ' :: t) = (token.reverse ++ word) :: wordsFrom [] t := by
  induction word generalizing token with
  | nil =>
    have htoken : token ≠ [] := hne.resolve_right fun h => h rfl
    rw [List.nil_append, wordsFrom, if_pos (by decide), if_neg htoken, List.append_nil]
  | cons c word ih =>
    obtain ⟨hc, hrest⟩ := List.forall_mem_cons.mp hword
    rw [List.cons_append, wordsFrom, if_neg (by rw [hc]; exact Bool.false_ne_true),
      ih hrest (.inl (List.cons_ne_nil c token)), List.reverse_cons, List.append_assoc,
      List.singleton_append]

theorem words_joinWith (h : ∀ name ∈ names, Legible name) : words (joinWith [' '] names) = names := by
  induction names with
  | nil => rfl
  | cons name names ih =>
    obtain ⟨⟨hne, hname⟩, hrest⟩ := List.forall_mem_cons.mp h
    have hvisible : ∀ c ∈ name, isWhitespace c = false := fun c hc => (hname c hc).1
    by_cases hlast : names = []
    · subst hlast
      exact wordsFrom_visible hvisible (.inr hne)
    · rw [joinWith_cons name hlast, List.append_assoc, List.singleton_append, words,
        wordsFrom_word hvisible (.inr hne)]
      exact congrArg (name :: ·) (ih hrest)

/-- What is visible of a text. -/
def letters (t : Text) : ℕ := (t.filter fun c => !isWhitespace c).length

theorem letters_words (t : Text) : (words t).flatten.length = letters t := by
  rw [words, wordsFrom_flatten]
  rfl

theorem letters_append (t u : Text) : letters (t ++ u) = letters t + letters u := by
  rw [letters, List.filter_append, List.length_append]
  rfl

theorem letters_joinWith (h : ∀ name ∈ names, Legible name) :
    letters (joinWith [' '] names) = names.flatten.length := by
  rw [← letters_words, words_joinWith h]

theorem last_visible (h : ∀ name ∈ names, Legible name) :
    ∀ c, (joinWith [' '] names).getLast? = some c → isWhitespace c = false := by
  induction names with
  | nil => exact fun c hc => by cases hc
  | cons name names ih =>
    obtain ⟨⟨hne, hname⟩, hrest⟩ := List.forall_mem_cons.mp h
    intro c hc
    by_cases hlast : names = []
    · subst hlast
      exact (hname c (List.mem_of_getLast? hc)).1
    · rw [joinWith_cons name hlast] at hc
      have hjoined : joinWith [' '] names ≠ [] := by
        intro hnil
        have hwords := words_joinWith hrest
        rw [hnil] at hwords
        exact hlast hwords.symm
      rw [List.getLast?_append_of_ne_nil _ hjoined] at hc
      exact ih hrest c hc

/-- Whoever loses the end of a text of names loses letters. -/
theorem letters_lt (h : ∀ name ∈ names, Legible name) (hpre : t <+: joinWith [' '] names)
    (hne : t ≠ joinWith [' '] names) : letters t < names.flatten.length := by
  obtain ⟨rest, hrest⟩ := hpre
  rw [← letters_joinWith h, ← hrest, letters_append]
  have hsome : rest ≠ [] := by
    rintro rfl
    exact hne ((List.append_nil t).symm.trans hrest)
  have hlast := last_visible h (rest.getLast hsome) (by
    rw [← hrest, List.getLast?_append_of_ne_nil _ hsome, List.getLast?_eq_some_getLast hsome])
  have hmem : rest.getLast hsome ∈ rest.filter fun c => !isWhitespace c :=
    List.mem_filter.mpr ⟨List.getLast_mem hsome, by rw [hlast]; rfl⟩
  have := List.length_pos_of_mem hmem
  unfold letters
  omega

/-! ### What is left of a line -/

/-- Spaces separate the parameters, so there is one more of these at most. -/
theorem parseParams_length (fuel : ℕ) (t : Text) : (parseParams fuel t).length ≤ t.count ' ' + 1 := by
  fun_induction parseParams fuel t with
  | case1 => exact Nat.zero_le _
  | case2 => exact Nat.zero_le _
  | case3 =>
    rw [List.length_singleton]
    omega
  | case4 fuel rest hne hcolon p r hsplit ih =>
    obtain ⟨hrest, -⟩ := splitOnce_spec hsplit
    have hspaces : rest.count ' ' = p.count ' ' + (r.count ' ' + 1) := by
      rw [hrest, List.count_append, List.count_cons_self]
    have htrim : (trimSpaces r).count ' ' ≤ r.count ' ' := (List.dropWhile_sublist _).count_le _
    have hfield : (if p = [] then [] else [p]).length ≤ 1 := by split_ifs <;> simp
    rw [List.length_append]
    omega
  | case5 =>
    rw [List.length_singleton]
    omega

theorem mem_parseParams {fuel : ℕ} {p : Text} (hp : p ∈ parseParams fuel t) (hc : c ∈ p) : c ∈ t := by
  fun_induction parseParams fuel t with
  | case1 => cases hp
  | case2 => cases hp
  | case3 =>
    obtain rfl := List.mem_singleton.mp hp
    exact List.mem_cons_of_mem _ hc
  | case4 fuel rest hne hcolon q r hsplit ih =>
    obtain ⟨hrest, -⟩ := splitOnce_spec hsplit
    rw [hrest]
    rcases List.mem_append.mp hp with hp | hp
    · split_ifs at hp
      · cases hp
      · obtain rfl := List.mem_singleton.mp hp
        exact List.mem_append_left _ hc
    · have hmem := (List.dropWhile_sublist _).subset (ih hp)
      exact List.mem_append_right _ (List.mem_cons_of_mem _ hmem)
  | case5 =>
    obtain rfl := List.mem_singleton.mp hp
    exact hc

/-- A line with an origin: what follows the first space is the command and the parameters. -/
theorem parse_origin (h : ∀ c ∈ t, isBreak c = false) : parse (':' :: t) =
    (splitOnce ' ' t).bind fun p => parseBody (some p.1) (trimStart p.2) := by
  have hwhole : ∀ c ∈ ':' :: t, isBreak c = false := List.forall_mem_cons.mpr ⟨by decide, h⟩
  have hmark : trimStart (':' :: t) = ':' :: t := by
    refine trimStart_id fun d hd => ?_
    obtain rfl := Option.some.inj hd
    decide
  rw [parse_eq hwhole, hmark, skipTags_colon, Option.bind_some, takePrefix_colon]
  cases splitOnce ' ' t <;> rfl

theorem parseBody_spec {rest : Text} {msg : Message} {origin : Option Text}
    (h : parseBody origin rest = some msg) :
    (msg.params.length ≤ rest.count ' ') ∧ (∀ p ∈ msg.params, ∀ c ∈ p, c ∈ rest) ∧
      ∃ command, command <+: rest ∧ ' ' ∉ command ∧ msg.command = command.map toAsciiUpper := by
  unfold parseBody at h
  cases hsplit : splitOnce ' ' rest with
  | none =>
    rw [hsplit] at h
    dsimp only [Option.getD_none] at h
    split_ifs at h
    obtain rfl := Option.some.inj h
    exact ⟨Nat.zero_le _, fun p hp => absurd hp List.not_mem_nil, rest, List.prefix_rfl,
      not_mem_of_splitOnce hsplit, rfl⟩
  | some p =>
    rw [hsplit] at h
    dsimp only [Option.getD_some] at h
    split_ifs at h
    obtain rfl := Option.some.inj h
    obtain ⟨hrest, hno⟩ := splitOnce_spec hsplit
    have hsub := List.dropWhile_sublist (l := p.2) fun c => decide (c = ' ')
    refine ⟨?_, fun q hq c hc => ?_, p.1, ⟨_, hrest.symm⟩, hno, rfl⟩
    · have hlength := parseParams_length p.2.length (trimSpaces p.2)
      have hcount : (trimSpaces p.2).count ' ' ≤ p.2.count ' ' := hsub.count_le _
      rw [hrest, List.count_append, List.count_cons_self]
      dsimp only
      omega
    · rw [hrest]
      exact List.mem_append_right _ (List.mem_cons_of_mem _ (hsub.subset (mem_parseParams hq hc)))

/-- A front that ends before the separator is a front of the first part. -/
theorem prefix_cases {d : Char} (h : u <+: word ++ d :: t) :
    u <+: word ∨ ∃ rest, u = word ++ d :: rest ∧ rest <+: t := by
  rcases List.prefix_or_prefix_of_prefix h (List.prefix_append word _) with hshort | hlong
  · exact .inl hshort
  · obtain ⟨rest, rfl⟩ := hlong
    rw [List.prefix_append_right_inj] at h
    cases rest with
    | nil => exact .inl (by rw [List.append_nil])
    | cons e rest =>
      obtain ⟨rfl, hrest⟩ := List.cons_prefix_cons.mp h
      exact .inr ⟨rest, rfl, hrest⟩

/-- The code of a reply. -/
structure Code (word : Text) : Prop where
  nonempty : word ≠ []
  digits : ∀ c ∈ word, isAsciiDigit c = true

theorem Code.plain (h : Code word) : ∀ c ∈ word, plain c = true := by
  intro c hc
  rw [Ax25Codec.plain, h.digits c hc]
  rfl

theorem Code.capitals (h : Code word) : word.map toAsciiUpper = word :=
  (List.map_congr_left fun c hc => (plain_spec (h.plain c hc)).2.1).trans (List.map_id word)

theorem Code.scrub (h : Code word) : scrubIrc word = word :=
  scrub_word h.nonempty fun c hc => (plain_spec (h.plain c hc)).1

theorem Code.space (h : Code word) : ' ' ∉ word := by
  intro hmem
  exact absurd (h.digits ' ' hmem) (by decide)

/-- A front of a code and more starts without blanks. -/
theorem Code.trimStart (h : Code word) (ht : t <+: word ++ u) : trimStart t = t := by
  obtain ⟨d, word, rfl⟩ := List.exists_cons_of_ne_nil h.nonempty
  cases t with
  | nil => rfl
  | cons e t =>
    obtain ⟨rfl, -⟩ := List.cons_prefix_cons.mp ht
    refine trimStart_id fun f hf => ?_
    obtain rfl := Option.some.inj hf
    exact (alphanumeric_spec (plain_spec (h.plain e List.mem_cons_self)).1).1

/-- Of a line that was cut, what is behind its origin is the front of what was behind it. -/
theorem parse_cut {params : List Text} {msg : Message} (hword : Code word)
    (hcut : t <+: (made (some origin) word params).toText) (h : parse t = some msg) :
    ∃ rest, t = ':' :: (scrubIrc origin ++ ' ' :: rest) ∧ rest <+: word ++ writeParams params ∧
      parseBody (some (scrubIrc origin)) rest = some msg := by
  have hwhole := toText_whole (made (some origin) word params)
  have hline : (made (some origin) word params).toText =
      ':' :: (scrubIrc origin ++ ' ' :: (word ++ writeParams params)) := by
    refine Eq.trans (b := ((':' :: scrubIrc origin ++ [' ']) ++ scrubIrc (word.map toAsciiUpper)) ++
      writeParams params) rfl ?_
    rw [hword.capitals, hword.scrub]
    simp only [List.append_assoc, List.cons_append, List.nil_append]
  cases t with
  | nil => cases h
  | cons d t =>
    have hclean : ∀ c ∈ t, isBreak c = false :=
      fun c hc => hwhole c (hcut.subset (List.mem_cons_of_mem d hc))
    rw [hline] at hcut
    obtain ⟨rfl, hfront⟩ := List.cons_prefix_cons.mp hcut
    have hspace : ' ' ∉ scrubIrc origin := by
      intro hmem
      exact absurd (scrub_spec hmem).1 (by decide)
    rw [parse_origin hclean] at h
    rcases prefix_cases hfront with hshort | ⟨rest, rfl, hrest⟩
    · rw [splitOnce_of_not_mem fun hmem => hspace (hshort.subset hmem)] at h
      cases h
    · rw [splitOnce_append hspace, Option.bind_some, hword.trimStart hrest] at h
      exact ⟨rest, rfl, hrest, h⟩

/-! ### The names in a line -/

/-- What a client takes for names. -/
def namesIn (line : Text) : List Text :=
  match parse line with
  | none => []
  | some msg => if msg.command = "353" then words ((msg.param 3).getD []) else []

theorem writeParams_cases (params : List Text) : writeParams params = [] ∨
    ∃ rest, writeParams params = ' ' :: rest := by
  cases params with
  | nil => exact .inl rfl
  | cons p params =>
    obtain ⟨rest, hrest, -⟩ := parseParams_writeParams (List.cons_ne_nil p params)
    exact .inr ⟨rest, hrest⟩

/-- A reply with another code has no names, cut or not. -/
theorem namesIn_other {params : List Text} (hword : Code word) (hother : ¬ ("353" : Text) <+: word)
    (hcut : t <+: (made (some origin) word params).toText) : namesIn t = [] := by
  unfold namesIn
  cases hparse : parse t with
  | none => rfl
  | some msg =>
    obtain ⟨rest, -, hrest, hbody⟩ := parse_cut hword hcut hparse
    obtain ⟨-, -, command, hcommand, hspace, hname⟩ := parseBody_spec hbody
    have hshort : command <+: word := by
      have hfront := hcommand.trans hrest
      rcases writeParams_cases params with hnil | ⟨tail, htail⟩
      · rwa [hnil, List.append_nil] at hfront
      · rw [htail] at hfront
        rcases prefix_cases hfront with hshort | ⟨more, rfl, -⟩
        · exact hshort
        · exact absurd (List.mem_append_right _ List.mem_cons_self) hspace
    have hne : msg.command ≠ "353" := by
      rw [hname]
      intro heq
      have hmap := hshort.map toAsciiUpper
      rw [heq, hword.capitals] at hmap
      exact hother hmap
    exact if_neg hne

/-! ### A line of names -/

theorem code_names : Code "353" := ⟨by decide, by decide⟩

def middleFields (nick chan : Text) : Text :=
  "353" ++ ' ' :: (middleParam nick ++ ' ' :: ('=' :: ' ' :: middleParam chan))

/-- A line of the reply that lists the members. -/
def nameLine (server nick chan : Text) (chunk : List Text) : Text :=
  (made (some server) "353" [nick, "=", chan, joinWith [' '] chunk]).toText

theorem fields_eq (nick chan u : Text) : "353" ++ writeParams [nick, "=", chan, u] =
    middleFields nick chan ++ ' ' :: trailingParam u := by
  have hequals : middleParam "=" = "=" := by decide
  unfold middleFields
  simp only [writeParams, hequals, List.append_assoc, List.cons_append]
  rfl

theorem space_not_mem_middle (u : Text) : ' ' ∉ middleParam u := by
  intro hmem
  exact absurd ((middle_spec u).2.2 ' ' hmem).1 (by decide)

/-- The fields before the names have three spaces between them. -/
theorem count_middleFields (nick chan : Text) : (middleFields nick chan).count ' ' = 3 := by
  have hno : ∀ u, (middleParam u).count ' ' = 0 := fun u =>
    List.count_eq_zero.mpr (space_not_mem_middle u)
  unfold middleFields
  rw [List.count_append, List.count_cons_self, List.count_append, List.count_cons_self, List.count_cons,
    List.count_cons_self, hno, hno]
  decide

/-- What is read of a list of names that was cut. -/
theorem parseParams_trailing {fuel : ℕ} (ht : t <+: trailingParam u) (hfuel : t.length ≤ fuel) :
    ∃ front, ((parseParams fuel (trimSpaces t))[0]?).getD [] = front ∧ front <+: stripLineBreaks u ∧
      (front = stripLineBreaks u → stripLineBreaks u ≠ [] → t = trailingParam u) := by
  unfold trailingParam at ht ⊢
  dsimp only at ht ⊢
  split_ifs at ht ⊢ with hmark
  · cases t with
    | nil =>
      refine ⟨[], ?_, List.nil_prefix, fun hnil hne => absurd hnil.symm hne⟩
      cases fuel <;> rfl
    | cons d t =>
      obtain ⟨rfl, hrest⟩ := List.cons_prefix_cons.mp ht
      refine ⟨t, ?_, hrest, fun heq _ => congrArg _ heq⟩
      have hhead : trimSpaces (':' :: t) = ':' :: t :=
        trimSpaces_id fun h => absurd (Option.some.inj h) (by decide)
      rw [hhead, parseParams_colon t (lt_of_lt_of_le (Nat.succ_pos _) hfuel)]
      rfl
  · rw [not_or, not_or, Bool.not_eq_true] at hmark
    obtain ⟨-, hcolon, hblank⟩ := hmark
    refine ⟨t, ?_, ht, fun heq _ => heq⟩
    have hspace : ' ' ∉ t := by
      intro hmem
      exact absurd (List.any_eq_false.mp hblank ' ' (ht.subset hmem)) (by decide)
    rw [trimSpaces_id fun h => hspace (List.mem_of_head? h)]
    cases t with
    | nil => cases fuel <;> rfl
    | cons d t =>
      obtain ⟨fuel, rfl⟩ : ∃ n, fuel = n + 1 := ⟨fuel - 1, by rw [List.length_cons] at hfuel; omega⟩
      have hhead : (d :: t).head? ≠ some ':' := by
        obtain ⟨rest, hrest⟩ := ht
        rw [← hrest] at hcolon
        exact hcolon
      rw [parseParams_word (List.cons_ne_nil d t) hhead, splitOnce_of_not_mem hspace]
      rfl

/-- Behind the fields there are the names. -/
theorem parseBody_names (origin : Option Text) (nick chan t : Text) : ∃ fuel, t.length ≤ fuel ∧
    parseBody origin (middleFields nick chan ++ ' ' :: t) = some ⟨origin, "353",
      middleParam nick :: "=" :: middleParam chan :: parseParams fuel (trimSpaces t)⟩ := by
  obtain ⟨hnick, hnickcolon, -⟩ := middle_spec nick
  obtain ⟨hchan, hchancolon, -⟩ := middle_spec chan
  have hnickspace := space_not_mem_middle nick
  have hchanspace := space_not_mem_middle chan
  have hfields : middleFields nick chan ++ ' ' :: t = "353" ++ ' ' ::
      (middleParam nick ++ ' ' :: (['='] ++ ' ' :: (middleParam chan ++ ' ' :: t))) := by
    unfold middleFields
    simp only [List.append_assoc, List.cons_append, List.nil_append]
  have hstart : ∀ {u v : Text}, u ≠ [] → ' ' ∉ u → trimSpaces (u ++ v) = u ++ v := by
    intro u v hu hspace
    refine trimSpaces_id fun h => hspace (List.mem_of_head? ?_)
    rwa [List.head?_append_of_ne_nil _ hu] at h
  obtain ⟨fuel, hfuel⟩ : ∃ fuel, (middleParam nick ++ ' ' ::
      (['='] ++ ' ' :: (middleParam chan ++ ' ' :: t))).length = fuel + 3 ∧ t.length ≤ fuel := by
    simp only [List.length_append, List.length_cons]
    exact ⟨(middleParam nick).length + 1 + (middleParam chan).length + t.length,
      by rw [List.length_nil]; omega, by omega⟩
  refine ⟨fuel, hfuel.2, ?_⟩
  unfold parseBody
  rw [hfields, splitOnce_append code_names.space]
  dsimp only [Option.getD_some]
  rw [if_neg code_names.nonempty, hfuel.1, hstart hnick hnickspace,
    parseParams_field hnick hnickcolon hnickspace, hstart (List.cons_ne_nil _ _) (by decide),
    parseParams_field (List.cons_ne_nil _ _) (by decide) (by decide), hstart hchan hchanspace,
    parseParams_field hchan hchancolon hchanspace]
  rfl

variable {server : Text}

/-- A client reads the front of the names that the writer has left. -/
theorem namesIn_cut (hcut : t <+: nameLine server nick chan chunk) : ∃ front, namesIn t = words front ∧
    front <+: stripLineBreaks (joinWith [' '] chunk) ∧
    (front = stripLineBreaks (joinWith [' '] chunk) → stripLineBreaks (joinWith [' '] chunk) ≠ [] →
      t = nameLine server nick chan chunk) := by
  have hempty : namesIn t = [] → ∃ front, namesIn t = words front ∧
      front <+: stripLineBreaks (joinWith [' '] chunk) ∧
      (front = stripLineBreaks (joinWith [' '] chunk) → stripLineBreaks (joinWith [' '] chunk) ≠ [] →
        t = nameLine server nick chan chunk) :=
    fun h => ⟨[], h, List.nil_prefix, fun hnil hne => absurd hnil.symm hne⟩
  cases hparse : parse t with
  | none =>
    refine hempty ?_
    rw [namesIn, hparse]
  | some msg =>
    obtain ⟨rest, ht, hrest, hbody⟩ := parse_cut code_names hcut hparse
    rw [fields_eq] at hrest
    rcases prefix_cases hrest with hshort | ⟨q, rfl, hq⟩
    · -- the line ends before the names
      refine hempty ?_
      have hfew := (parseBody_spec hbody).1
      have hspaces := hshort.sublist.count_le ' '
      rw [count_middleFields] at hspaces
      have hnone : msg.param 3 = none := List.getElem?_eq_none (by omega)
      rw [namesIn, hparse]
      dsimp only
      rw [hnone]
      split_ifs <;> rfl
    · obtain ⟨fuel, hfuel, hread⟩ := parseBody_names (some (scrubIrc server)) nick chan q
      obtain ⟨front, hfront, hpre, hwhole⟩ := parseParams_trailing hq hfuel
      obtain rfl := Option.some.inj (hread.symm.trans hbody)
      refine ⟨front, ?_, hpre, fun heq hne => ?_⟩
      · rw [namesIn, hparse, ← hfront]
        exact if_pos rfl
      · rw [ht, hwhole heq hne]
        refine Eq.trans ?_ (b := ((':' :: scrubIrc server ++ [' ']) ++
          scrubIrc (List.map toAsciiUpper "353")) ++
          writeParams [nick, "=", chan, joinWith [' '] chunk]) rfl
        rw [code_names.capitals, code_names.scrub, List.append_assoc _ _ (writeParams _), fields_eq]
        simp only [List.append_assoc, List.cons_append, List.nil_append]

theorem namesIn_whole (server nick chan : Text) (chunk : List Text) :
    namesIn (nameLine server nick chan chunk) = words (stripLineBreaks (joinWith [' '] chunk)) := by
  have hread := parse_toText (m := made (some server) "353" [nick, "=", chan, joinWith [' '] chunk])
    (show List.map toAsciiUpper "353" ≠ [] by decide)
    (show ∀ d ∈ List.map toAsciiUpper "353", isAsciiAlphanumeric d = true by decide)
  unfold namesIn nameLine
  rw [hread]
  rfl

/-- Nothing is taken out of legible names. -/
theorem strip_joined (h : ∀ name ∈ chunk, Legible name) :
    stripLineBreaks (joinWith [' '] chunk) = joinWith [' '] chunk := by
  refine List.filter_eq_self.mpr fun c hc => ?_
  rw [Bool.not_eq_true']
  rcases mem_joinWith hc with hsep | ⟨name, hname, hmem⟩
  · obtain rfl := List.mem_singleton.mp hsep
    decide
  · exact ((h name hname).2 c hmem).2

theorem joined_ne_nil (h : ∀ name ∈ chunk, Legible name) (hne : chunk ≠ []) :
    joinWith [' '] chunk ≠ [] := by
  intro hnil
  have hwords := words_joinWith h
  rw [hnil] at hwords
  exact hne hwords.symm

theorem namesIn_exact (h : ∀ name ∈ chunk, Legible name) :
    namesIn (nameLine server nick chan chunk) = chunk := by
  rw [namesIn_whole, strip_joined h, words_joinWith h]

/-- Whatever the writer cuts off is missed. -/
theorem namesIn_lt (h : ∀ name ∈ chunk, Legible name) (hne : chunk ≠ [])
    (hcut : t <+: nameLine server nick chan chunk) (hshort : t ≠ nameLine server nick chan chunk) :
    (namesIn t).flatten.length < chunk.flatten.length := by
  obtain ⟨front, hnames, hpre, hwhole⟩ := namesIn_cut hcut
  rw [strip_joined h] at hpre hwhole
  rw [hnames, letters_words]
  exact letters_lt h hpre fun heq => hshort (hwhole heq (joined_ne_nil h hne))

theorem wordsFrom_nonempty (token t : Text) : ∀ w ∈ wordsFrom token t, w ≠ [] := by
  induction t generalizing token with
  | nil =>
    rw [wordsFrom]
    split_ifs with htoken
    · exact fun w hw => absurd hw List.not_mem_nil
    · intro w hw
      rw [List.mem_singleton.mp hw]
      exact fun hnil => htoken (List.reverse_eq_nil_iff.mp hnil)
  | cons c t ih =>
    rw [wordsFrom]
    split_ifs with hblank htoken
    · exact ih []
    · refine List.forall_mem_cons.mpr ⟨fun hnil => htoken (List.reverse_eq_nil_iff.mp hnil), ih []⟩
    · exact ih (c :: token)

/-- What is read as a name is legible. -/
theorem namesIn_legible (hcut : t <+: nameLine server nick chan chunk) :
    ∀ name ∈ namesIn t, Legible name := by
  obtain ⟨front, hnames, hpre, -⟩ := namesIn_cut hcut
  rw [hnames]
  intro name hname
  refine ⟨wordsFrom_nonempty [] front name hname, fun c hc => ?_⟩
  obtain ⟨hblank, hmem⟩ := mem_wordsFrom (fun d hd => absurd hd List.not_mem_nil) hname hc
  exact ⟨hblank, mem_strip (hpre.subset (hmem.resolve_left List.not_mem_nil))⟩

/-! ### Lines of names -/

/-- The writer's limit, without the line's end. -/
def lineLimit : ℕ := 510

/-- What a client reads of the names when the writer has cut the lines. -/
def readNames (lines : List Text) : List Text :=
  lines.flatMap fun line => namesIn (truncateUtf8 line lineLimit)

theorem flatten_flatten_length (chunks : List (List Text)) :
    chunks.flatten.flatten.length = (chunks.map fun chunk => chunk.flatten.length).sum := by
  induction chunks with
  | nil => rfl
  | cons chunk chunks ih =>
    rw [List.flatten_cons, List.flatten_append, List.length_append, ih, List.map_cons, List.sum_cons]

def readLine (server nick chan : Text) (chunk : List Text) : List Text :=
  namesIn (truncateUtf8 (nameLine server nick chan chunk) lineLimit)

/-- The names arrive if and only if they are legible and no line is too long. -/
theorem readNames_eq_iff {chunks : List (List Text)} (hne : ∀ chunk ∈ chunks, chunk ≠ []) :
    readNames (chunks.map (nameLine server nick chan)) = chunks.flatten ↔
      (∀ name ∈ chunks.flatten, Legible name) ∧
      ∀ chunk ∈ chunks, octets (nameLine server nick chan chunk) ≤ lineLimit := by
  have hread : readNames (chunks.map (nameLine server nick chan)) =
      chunks.flatMap (readLine server nick chan) := List.flatMap_map ..
  rw [hread]
  constructor
  · intro h
    have hlegible : ∀ name ∈ chunks.flatten, Legible name := by
      intro name hname
      rw [← h] at hname
      obtain ⟨chunk, -, hmem⟩ := List.mem_flatMap.mp hname
      exact namesIn_legible (truncateUtf8_front _ _) name hmem
    refine ⟨hlegible, fun chunk hchunk => ?_⟩
    have hin : ∀ chunk ∈ chunks, ∀ name ∈ chunk, Legible name :=
      fun chunk hchunk name hname => hlegible name (List.mem_flatten.mpr ⟨chunk, hchunk, hname⟩)
    by_contra hlong
    have hcut := fun chunk => truncateUtf8_front (nameLine server nick chan chunk) lineLimit
    have hle : ∀ chunk ∈ chunks, (readLine server nick chan chunk).flatten.length ≤
        chunk.flatten.length := by
      intro chunk hchunk
      unfold readLine
      by_cases heq : truncateUtf8 (nameLine server nick chan chunk) lineLimit =
          nameLine server nick chan chunk
      · rw [heq, namesIn_exact (hin chunk hchunk)]
      · exact (namesIn_lt (hin chunk hchunk) (hne chunk hchunk) (hcut chunk) heq).le
    have hlt : (readLine server nick chan chunk).flatten.length < chunk.flatten.length :=
      namesIn_lt (hin chunk hchunk) (hne chunk hchunk) (hcut chunk)
        fun heq => hlong ((truncateUtf8_eq_iff _ _).mp heq)
    have hsum := List.sum_lt_sum (fun chunk => (readLine server nick chan chunk).flatten.length)
      (fun chunk => chunk.flatten.length) hle ⟨chunk, hchunk, hlt⟩
    have htotal := congrArg (fun names : List Text => names.flatten.length) h
    rw [List.flatMap_def, flatten_flatten_length, flatten_flatten_length, List.map_map,
      Function.comp_def] at htotal
    exact absurd htotal hsum.ne
  · rintro ⟨hlegible, hshort⟩
    rw [← List.flatMap_id]
    refine List.flatMap_congr fun chunk hchunk => ?_
    rw [readLine, (truncateUtf8_eq_iff _ _).mpr (hshort chunk hchunk)]
    exact namesIn_exact fun name hname => hlegible name (List.mem_flatten.mpr ⟨chunk, hchunk, hname⟩)

/-! ### How the names are divided -/

/-- A name takes its octets and a separator. -/
def nameSize (name : Text) : ℕ := octets name + 1

/-- Four hundred octets of names make a line. -/
abbrev Divided (names : List Text) (chunks : List (List Text)) : Prop :=
  Filled nameSize 400 names chunks

theorem chunkNames_spec (names chunk : List Text)
    (hwithin : chunk.length ≤ 1 ∨ load nameSize chunk ≤ 400) :
    Divided (chunk ++ names) (chunkNames names chunk (load nameSize chunk)) ∧
      (chunk ≠ [] → ∃ more rest, chunkNames names chunk (load nameSize chunk) = (chunk ++ more) :: rest) := by
  induction names generalizing chunk with
  | nil =>
    cases chunk with
    | nil =>
      refine ⟨⟨rfl, ?_, ?_, List.IsChain.nil⟩, fun hne => absurd rfl hne⟩
      · exact fun line hline => absurd hline List.not_mem_nil
      · exact fun line hline => absurd hline List.not_mem_nil
    | cons name chunk =>
      refine ⟨⟨rfl, ?_, ?_, List.isChain_singleton _⟩, fun _ => ⟨[], [], by rw [List.append_nil]; rfl⟩⟩
      · intro line hline
        rw [List.mem_singleton.mp hline]
        exact List.cons_ne_nil name chunk
      · intro line hline
        rw [List.mem_singleton.mp hline]
        exact hwithin
  | cons name names ih =>
    have hmore : load nameSize (chunk ++ [name]) = load nameSize chunk + octets name + 1 :=
      load_append chunk [name]
    rw [chunkNames]
    split_ifs with hover
    · obtain ⟨hdivided, hfirst⟩ := ih [name] (.inl le_rfl)
      have hsingle : load nameSize [name] = octets name + 1 := rfl
      rw [hsingle] at hdivided hfirst
      obtain ⟨more, rest, hrest⟩ := hfirst (List.cons_ne_nil name [])
      refine ⟨⟨?_, ?_, ?_, ?_⟩, fun _ => ⟨[], _, by rw [List.append_nil]⟩⟩
      · rw [List.flatten_cons, hdivided.whole]
        rfl
      · exact List.forall_mem_cons.mpr ⟨hover.1, hdivided.nonempty⟩
      · exact List.forall_mem_cons.mpr ⟨hwithin, hdivided.within⟩
      · have hfull := hdivided.full
        rw [hrest] at hfull ⊢
        refine List.isChain_cons_cons.mpr ⟨fun x hx => ?_, hfull⟩
        obtain rfl := Option.some.inj hx
        rw [hmore]
        exact hover.2
    · have hfits : (chunk ++ [name]).length ≤ 1 ∨ load nameSize (chunk ++ [name]) ≤ 400 := by
        rw [not_and_or, not_not, not_lt] at hover
        rcases hover with rfl | hover
        · exact .inl le_rfl
        · exact .inr (hmore.trans_le hover)
      obtain ⟨hdivided, hfirst⟩ := ih (chunk ++ [name]) hfits
      rw [← hmore]
      refine ⟨?_, fun _ => ?_⟩
      · rwa [List.append_assoc] at hdivided
      · obtain ⟨more, rest, hrest⟩ := hfirst (by simp)
        exact ⟨name :: more, rest, by rw [hrest, List.append_assoc]; rfl⟩

theorem chunkNames_divided (names : List Text) : Divided names (chunkNames names [] 0) :=
  (chunkNames_spec names [] (.inl (Nat.zero_le 1))).1

theorem octets_joinWith {chunk : List Text} (hne : chunk ≠ []) :
    octets (joinWith [' '] chunk) + 1 = load nameSize chunk := by
  induction chunk with
  | nil => exact absurd rfl hne
  | cons name chunk ih =>
    by_cases hlast : chunk = []
    · subst hlast
      rfl
    · rw [joinWith_cons name hlast, octets_append, octets_append, Nat.add_assoc, ih hlast]
      rfl

/-- The mark of a last field: one name needs none, unless it starts with one. -/
def mark : List Text → ℕ
  | [name] => if name.head? = some ':' then 1 else 0
  | _ => 1

theorem octets_trailing (h : ∀ name ∈ chunk, Legible name) (hne : chunk ≠ []) :
    octets (trailingParam (joinWith [' '] chunk)) + 1 = mark chunk + load nameSize chunk := by
  have hcolon : octets [':'] = 1 := by decide
  rw [← octets_joinWith hne]
  unfold trailingParam
  rw [strip_joined h]
  dsimp only
  cases chunk with
  | nil => exact absurd rfl hne
  | cons name chunk =>
    obtain ⟨⟨hname, hvisible⟩, -⟩ := List.forall_mem_cons.mp h
    cases chunk with
    | nil =>
      have hone : joinWith [' '] [name] = name := rfl
      have hblank : name.any isWhitespace = false :=
        List.any_eq_false.mpr fun c hc => by rw [(hvisible c hc).1]; exact Bool.false_ne_true
      rw [hone, hblank, mark]
      by_cases hmark : name.head? = some ':'
      · rw [if_pos (.inr (.inl hmark)), if_pos hmark, octets_cons, hcolon, Nat.add_assoc]
      · rw [if_neg (by simp [hname, hmark]), if_neg hmark, Nat.zero_add]
    | cons next chunk =>
      have hblank : (joinWith [' '] (name :: next :: chunk)).any isWhitespace = true := by
        refine List.any_eq_true.mpr ⟨' ', ?_, by decide⟩
        rw [joinWith_cons name (List.cons_ne_nil next chunk)]
        simp
      rw [if_pos (.inr (.inr hblank)), octets_cons, hcolon, mark, Nat.add_assoc]
      exact fun single heq => by cases heq

/-- What a line of names takes. -/
theorem octets_nameLine (h : ∀ name ∈ chunk, Legible name) (hne : chunk ≠ []) :
    octets (nameLine server nick chan chunk) = octets (scrubIrc server) + octets (middleParam nick) +
      octets (middleParam chan) + mark chunk + load nameSize chunk + 9 := by
  have hline : nameLine server nick chan chunk = ':' :: (scrubIrc server ++ ' ' ::
      (middleFields nick chan ++ ' ' :: trailingParam (joinWith [' '] chunk))) := by
    refine Eq.trans (b := ((':' :: scrubIrc server ++ [' ']) ++
      scrubIrc (List.map toAsciiUpper "353")) ++
      writeParams [nick, "=", chan, joinWith [' '] chunk]) rfl ?_
    rw [code_names.capitals, code_names.scrub, List.append_assoc _ _ (writeParams _), fields_eq]
    simp only [List.append_assoc, List.cons_append, List.nil_append]
  have htrailing := octets_trailing h hne
  have hcode : octets "353" = 3 := by decide
  have hspace : octets [' '] = 1 := by decide
  have hcolon : octets [':'] = 1 := by decide
  have hequals : octets ['='] = 1 := by decide
  have hfields : octets (middleFields nick chan) =
      octets (middleParam nick) + octets (middleParam chan) + 7 := by
    unfold middleFields
    rw [octets_append, octets_cons, octets_append, octets_cons ' ' ('=' :: _), octets_cons '=',
      octets_cons ' ' (middleParam chan), hcode, hspace, hequals]
    omega
  rw [hline, octets_cons, octets_append, octets_cons ' ' (middleFields nick chan ++ _), octets_append,
    octets_cons ' ' (trailingParam _), hfields, hcolon, hspace]
  omega

/-! ### What the server sends -/

variable {o : Outlet} {st : State} {id : ℕ} {channel : Text}

def requestor (st : State) (id : ℕ) : Text := (st.user (.ip id)).elim ['*'] User.nick

def reply (o : Outlet) (st : State) (id : ℕ) (code : Text) (params : List Text) : Text :=
  (made (some o.cfg.name) code (requestor st id :: params)).toText

/-- The lines that a client is sent when it asks for the names. -/
def namesReplies (o : Outlet) (st : State) (id : ℕ) (channel : Text) : List Text :=
  match st.channel channel with
  | none => [reply o st id "403" [channel, "No such channel"]]
  | some chan =>
    (chunkNames (st.namesOf channel) [] 0).map (nameLine o.cfg.name (requestor st id) chan.name) ++
      [reply o st id "366" [chan.name, "End of /NAMES list"]]

theorem numerics_lines (o : Outlet) (st : State) (id : ℕ) (code : Text) (rows : List (List Text)) :
    o.numerics st (.ip id) code rows =
      (rows.map (reply o st id code)).foldl (fun o line => o.sendRaw id line) o := by
  unfold numerics
  induction rows generalizing o with
  | nil => rfl
  | cons row rows ih => exact ih (o.numeric st (.ip id) code row)

theorem sendNames_lines (o : Outlet) (st : State) (id : ℕ) (channel : Text) :
    o.sendNames st (.ip id) channel =
      (namesReplies o st id channel).foldl (fun o line => o.sendRaw id line) o := by
  unfold sendNames namesReplies
  cases st.channel channel with
  | none => rfl
  | some chan =>
    dsimp only
    rw [numerics_lines, List.map_map, List.foldl_append]
    have hcfg : ∀ (lines : List Text) (o : Outlet),
        (lines.foldl (fun o line => o.sendRaw id line) o).cfg = o.cfg := fun lines o =>
      List.foldlRecOn (motive := fun o' : Outlet => o'.cfg = o.cfg) lines _ rfl
        fun o' hsame line _ => hsame
    have hreply : ∀ o' : Outlet, o'.cfg = o.cfg →
        o'.numeric st (.ip id) "366" [chan.name, "End of /NAMES list"] =
          o'.sendRaw id (reply o st id "366" [chan.name, "End of /NAMES list"]) := by
      intro o' h
      have hown : o'.numeric st (.ip id) "366" [chan.name, "End of /NAMES list"] =
        o'.sendRaw id (reply o' st id "366" [chan.name, "End of /NAMES list"]) := rfl
      rw [hown, reply, reply, h]
    exact hreply _ (hcfg _ o)

/-- What stands in a line besides the names leaves room for as many as the line is filled with. -/
def Fits (server nick chan : Text) (names : List Text) : Prop :=
  ∀ chunks, Divided names chunks → ∀ chunk ∈ chunks,
    octets (scrubIrc server) + octets (middleParam nick) + octets (middleParam chan) + mark chunk +
      load nameSize chunk + 9 ≤ lineLimit

theorem readNames_append (lines lines' : List Text) :
    readNames (lines ++ lines') = readNames lines ++ readNames lines' := List.flatMap_append

theorem readNames_reply {code : Text} (hcode : Code code) (hother : ¬ ("353" : Text) <+: code)
    (params : List Text) : readNames [reply o st id code params] = [] := by
  rw [readNames, List.flatMap_singleton]
  exact namesIn_other hcode hother (truncateUtf8_front _ _)

/-- A client that asks for the names of a channel gets every member once and whole if and only if the names
can be read and the lines are not too long with what stands before them. -/
theorem names_listed (o : Outlet) (st : State) (id : ℕ) (channel : Text) :
    o.sendNames st (.ip id) channel =
      (namesReplies o st id channel).foldl (fun o line => o.sendRaw id line) o ∧
    (readNames (namesReplies o st id channel) = st.namesOf channel ↔
      (∀ name ∈ st.namesOf channel, Legible name) ∧
      Fits o.cfg.name (requestor st id) ((st.channel channel).elim [] Channel.name)
        (st.namesOf channel)) := by
  refine ⟨sendNames_lines o st id channel, ?_⟩
  have hdivided := chunkNames_divided (st.namesOf channel)
  cases hchan : st.channel channel with
  | none =>
    have hnone : st.namesOf channel = [] := by rw [State.namesOf, hchan]
    have hread : readNames (namesReplies o st id channel) = [] := by
      rw [namesReplies, hchan]
      exact readNames_reply ⟨by decide, by decide⟩ (by decide) _
    rw [hread, hnone]
    rw [hnone] at hdivided
    refine iff_of_true rfl ⟨fun name hname => absurd hname List.not_mem_nil, fun chunks hchunks => ?_⟩
    rw [hchunks.unique hdivided]
    exact fun chunk hchunk => absurd hchunk List.not_mem_nil
  | some chan =>
    have hread : readNames (namesReplies o st id channel) =
        readNames ((chunkNames (st.namesOf channel) [] 0).map
          (nameLine o.cfg.name (requestor st id) chan.name)) := by
      rw [namesReplies, hchan]
      dsimp only
      rw [readNames_append, readNames_reply ⟨by decide, by decide⟩ (by decide), List.append_nil]
    have hexact : readNames ((chunkNames (st.namesOf channel) [] 0).map
        (nameLine o.cfg.name (requestor st id) chan.name)) =
          (chunkNames (st.namesOf channel) [] 0).flatten ↔ _ := readNames_eq_iff hdivided.nonempty
    rw [hdivided.whole] at hexact
    rw [hread, hexact]
    refine and_congr_right fun hlegible => ?_
    have hin : ∀ chunk ∈ chunkNames (st.namesOf channel) [] 0, ∀ name ∈ chunk, Legible name := by
      intro chunk hchunk name hname
      refine hlegible name ?_
      rw [← hdivided.whole]
      exact List.mem_flatten.mpr ⟨chunk, hchunk, hname⟩
    constructor
    · intro h chunks hchunks chunk hchunk
      rw [hchunks.unique hdivided] at hchunk
      rw [Option.elim_some, ← octets_nameLine (hin chunk hchunk) (hdivided.nonempty chunk hchunk)]
      exact h chunk hchunk
    · intro h chunk hchunk
      rw [octets_nameLine (hin chunk hchunk) (hdivided.nonempty chunk hchunk)]
      exact h _ hdivided chunk hchunk

/-! ### A gateway with a long name -/

def member (i : ℕ) : User :=
  { User.new (.ip i) "host" 0 with nick := Char.ofNat (97 + i) :: List.replicate 28 'x' }

def emergency : Text := "#northern-uppland-emergency"

def crowded : State :=
  (List.range 13).foldl
    (fun st i => ((st.insertUser (member i)).join (.ip i) emergency).elim st Prod.snd)
    (State.empty.ensureChannel emergency false)

def crowdedNames : List Text :=
  ('@' :: (member 0).nick) :: ((List.range 12).map fun i => (member (i + 1)).nick)

/-- The members stand in the order of their names. -/
theorem crowded_names : crowded.namesOf emergency = crowdedNames := by
  have hmembers : (crowded.channel emergency).elim [] (fun c => c.members.entries.filterMap fun e =>
      (crowded.users.get e.1).map fun u => e.2.sigil ++ u.nick) = crowdedNames := by decide +kernel
  have hsorted : crowdedNames.Pairwise fun a b => decide (a ≤ b) = true := by decide +kernel
  have hnames : crowded.namesOf emergency = ((crowded.channel emergency).elim [] (fun c =>
      c.members.entries.filterMap fun e =>
        (crowded.users.get e.1).map fun u => e.2.sigil ++ u.nick)).mergeSort
          fun a b => decide (a ≤ b) := by
    unfold State.namesOf
    cases crowded.channel emergency with
    | none => exact List.mergeSort_nil.symm
    | some c => rfl
  rw [hnames, hmembers]
  exact List.mergeSort_of_pairwise hsorted

def longName : Outlet :=
  { (ServerRuns.Small.run []).outlet with
    cfg := { ServerRuns.Small.config with
      name := "gateway.amateur-radio-club-of-northern-uppland.example.org" } }

/-- Thirteen names fill a line, and the writer cuts the last of them. -/
theorem last_name_cut :
    (readNames (namesReplies longName crowded 0 emergency)).getLast? =
      some ('m' :: List.replicate 23 'x') ∧
    (crowded.namesOf emergency).getLast? = some ('m' :: List.replicate 28 'x') ∧
    readNames (namesReplies longName crowded 0 emergency) ≠ crowded.namesOf emergency := by
  have hread : (readNames (namesReplies longName crowded 0 emergency)).getLast? =
      some ('m' :: List.replicate 23 'x') := by
    have hreplies : namesReplies longName crowded 0 emergency =
        (crowded.channel emergency).elim [reply longName crowded 0 "403" [emergency, "No such channel"]]
          fun chan => (chunkNames crowdedNames [] 0).map
            (nameLine longName.cfg.name (requestor crowded 0) chan.name) ++
              [reply longName crowded 0 "366" [chan.name, "End of /NAMES list"]] := by
      unfold namesReplies
      rw [crowded_names]
      cases crowded.channel emergency <;> rfl
    rw [hreplies]
    decide +kernel
  have hnames : crowdedNames.getLast? = some ('m' :: List.replicate 28 'x') := by decide +kernel
  rw [crowded_names]
  refine ⟨hread, hnames, fun heq => ?_⟩
  rw [heq, hnames] at hread
  exact absurd hread (by decide)

end MemberNames
