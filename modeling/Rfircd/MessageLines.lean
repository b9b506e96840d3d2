import Rfircd.IrcMessage
import Rfircd.Ax25Codec
import Rfircd.TextPieces

/-! A message is read back from its line, whatever its parameters are. -/
namespace MessageLines

open Basics MessageText IrcMessage IrcMessage.Message AddressText Ax25Codec TextPieces

variable {t token word : Text} {c : Char} {params : List Text}

/-! ### Words -/

theorem mem_wordsFrom (h : ∀ d ∈ token, isWhitespace d = false) {w : Text}
    (hw : w ∈ wordsFrom token t) (hc : c ∈ w) : isWhitespace c = false ∧ (c ∈ token ∨ c ∈ t) := by
  induction t generalizing token with
  | nil =>
    unfold wordsFrom at hw
    split_ifs at hw with htoken
    · cases hw
    · obtain rfl := List.mem_singleton.mp hw
      have hmem := List.mem_reverse.mp hc
      exact ⟨h c hmem, .inl hmem⟩
  | cons d t ih =>
    have hrest : w ∈ wordsFrom [] t → isWhitespace c = false ∧ (c ∈ token ∨ c ∈ d :: t) := by
      intro hw
      obtain ⟨hblank, hmem⟩ := ih (fun e he => absurd he List.not_mem_nil) hw
      exact ⟨hblank, .inr (List.mem_cons_of_mem d (hmem.resolve_left List.not_mem_nil))⟩
    unfold wordsFrom at hw
    split_ifs at hw with hd htoken
    · exact hrest hw
    · rcases List.mem_cons.mp hw with rfl | hw
      · have hmem := List.mem_reverse.mp hc
        exact ⟨h c hmem, .inl hmem⟩
      · exact hrest hw
    · rw [Bool.not_eq_true] at hd
      obtain ⟨hblank, hmem⟩ := ih (List.forall_mem_cons.mpr ⟨hd, h⟩) hw
      refine ⟨hblank, ?_⟩
      rcases hmem with hmem | hmem
      · rcases List.mem_cons.mp hmem with rfl | hmem
        · exact .inr List.mem_cons_self
        · exact .inl hmem
      · exact .inr (List.mem_cons_of_mem d hmem)

/-- Without blanks there is one word. -/
theorem wordsFrom_visible (h : ∀ d ∈ t, isWhitespace d = false) (hne : token ≠ [] ∨ t ≠ []) :
    wordsFrom token t = [token.reverse ++ t] := by
  induction t generalizing token with
  | nil =>
    rw [wordsFrom, if_neg (hne.resolve_right fun hne => hne rfl), List.append_nil]
  | cons d t ih =>
    obtain ⟨hd, ht⟩ := List.forall_mem_cons.mp h
    rw [wordsFrom, hd, if_neg Bool.false_ne_true, ih ht (.inl (List.cons_ne_nil d token)),
      List.reverse_cons, List.append_assoc, List.singleton_append]

/-! ### What is written -/

theorem scrub_spec (h : c ∈ scrubIrc t) : isWhitespace c = false ∧ isBreak c = false := by
  rcases mem_joinWith h with hsep | ⟨w, hw, hc⟩
  · obtain rfl := List.mem_singleton.mp hsep
    decide
  · obtain ⟨hblank, hmem⟩ := mem_wordsFrom (fun d hd => absurd hd List.not_mem_nil) hw hc
    obtain ⟨d, -, hd⟩ := List.mem_map.mp (hmem.resolve_left List.not_mem_nil)
    refine ⟨hblank, ?_⟩
    split_ifs at hd with hbreak
    · rw [← hd] at hblank
      exact absurd hblank (by decide)
    · rw [← hd]
      exact Bool.eq_false_iff.mpr hbreak

theorem alphanumeric_whole (h : isAsciiAlphanumeric c = true) :
    isBreak c = false ∧ c ≠ '@' ∧ c ≠ ':' := by
  refine forall_ascii (P := fun c => isAsciiAlphanumeric c = true → isBreak c = false ∧ c ≠ '@' ∧
    c ≠ ':') ?_ c (alphanumeric_ascii h) h
  decide +kernel

/-- A command is written as it is. -/
theorem scrub_word (hne : word ≠ []) (h : ∀ d ∈ word, isAsciiAlphanumeric d = true) :
    scrubIrc word = word := by
  have hkept : (word.map fun c => if isBreak c then ' ' else c) = word := by
    refine (List.map_congr_left fun d hd => ?_).trans (List.map_id word)
    rw [(alphanumeric_whole (h d hd)).1]
    rfl
  rw [scrubIrc, hkept, words,
    wordsFrom_visible (fun d hd => (alphanumeric_spec (h d hd)).1) (.inr hne)]
  rfl

theorem middle_spec (t : Text) : middleParam t ≠ [] ∧ (middleParam t).head? ≠ some ':' ∧
    ∀ c ∈ middleParam t, isWhitespace c = false ∧ isBreak c = false := by
  have hscrub : ∀ c ∈ scrubIrc t, isWhitespace c = false ∧ isBreak c = false :=
    fun c hc => scrub_spec hc
  unfold middleParam
  cases hcase : scrubIrc t with
  | nil => decide
  | cons d rest =>
    rw [hcase] at hscrub
    by_cases hd : d = ':'
    · subst hd
      refine ⟨List.cons_ne_nil _ _, ?_, List.forall_mem_cons.mpr ⟨by decide, hscrub⟩⟩
      exact fun h => absurd (Option.some.inj h) (by decide)
    · split
      · rename_i heq
        cases heq
      · rename_i heq
        exact absurd (List.cons.inj heq).1 hd
      · exact ⟨List.cons_ne_nil _ _, fun h => hd (Option.some.inj h), hscrub⟩

theorem mem_strip (h : c ∈ stripLineBreaks t) : isBreak c = false := by
  have hkept := (List.mem_filter.mp h).2
  rwa [Bool.not_eq_true'] at hkept

theorem mem_trailing (h : c ∈ trailingParam t) : isBreak c = false := by
  unfold trailingParam at h
  dsimp only at h
  split_ifs at h
  · rcases List.mem_cons.mp h with rfl | h
    · decide
    · exact mem_strip h
  · exact mem_strip h

theorem mem_writeParams (h : c ∈ writeParams params) : isBreak c = false := by
  induction params with
  | nil => cases h
  | cons p params ih =>
    cases params with
    | nil =>
      rcases List.mem_cons.mp h with rfl | h
      · decide
      · exact mem_trailing h
    | cons q params =>
      rcases List.mem_append.mp h with h | h
      · rcases List.mem_cons.mp h with rfl | h
        · decide
        · exact ((middle_spec p).2.2 c h).2
      · exact ih h

/-! ### What is read -/

/-- The parameters as they arrive. -/
def received : List Text → List Text
  | [] => []
  | [p] => [stripLineBreaks p]
  | p :: ps => middleParam p :: received ps

theorem received_length (params : List Text) : (received params).length = params.length := by
  induction params with
  | nil => rfl
  | cons p params ih =>
    cases params with
    | nil => rfl
    | cons q params => exact congrArg (· + 1) ih

theorem received_get {i : ℕ} {p : Text} (h : params[i]? = some p) : (received params)[i]? =
    some (if i + 1 = params.length then stripLineBreaks p else middleParam p) := by
  induction params generalizing i with
  | nil => cases h
  | cons q params ih =>
    cases params with
    | nil =>
      cases i with
      | zero =>
        obtain rfl := Option.some.inj h
        rfl
      | succ i => cases h
    | cons r params =>
      cases i with
      | zero =>
        obtain rfl := Option.some.inj h
        rw [if_neg (by simp only [List.length_cons]; omega)]
        rfl
      | succ i =>
        have hlast : i + 1 + 1 = (q :: r :: params).length ↔ i + 1 = (r :: params).length :=
          Nat.add_left_inj
        rw [if_congr hlast rfl rfl]
        exact ih h

theorem parseParams_colon {fuel : ℕ} (rest : Text) (hfuel : 0 < fuel) :
    parseParams fuel (':' :: rest) = [rest] := by
  cases fuel with
  | zero => omega
  | succ fuel => rfl

/-- A field that no colon introduces ends at the next space. -/
theorem parseParams_word {fuel : ℕ} (hne : t ≠ []) (hcolon : t.head? ≠ some ':') :
    parseParams (fuel + 1) t = match splitOnce ' ' t with
      | some (p, r) => (if p = [] then [] else [p]) ++ parseParams fuel (trimSpaces r)
      | none => [t] := by
  cases t with
  | nil => exact absurd rfl hne
  | cons d t =>
    have hother : ∀ rest, d :: t = ':' :: rest → False := by
      rintro rest heq
      rw [heq] at hcolon
      exact hcolon rfl
    exact parseParams.eq_4 (d :: t) fuel hne hother

theorem parseParams_field {fuel : ℕ} (hne : t ≠ []) (hcolon : t.head? ≠ some ':') (hspace : ' ' ∉ t)
    (rest : Text) : parseParams (fuel + 1) (t ++ ' ' :: rest) = t :: parseParams fuel (trimSpaces rest) := by
  have hhead : (t ++ ' ' :: rest).head? ≠ some ':' := by
    rwa [List.head?_append_of_ne_nil _ hne]
  rw [parseParams_word (by simp) hhead, splitOnce_append hspace]
  dsimp only
  rw [if_neg hne]
  rfl

theorem trimSpaces_id (h : t.head? ≠ some ' ') : trimSpaces t = t := by
  refine dropWhile_id fun d hd => ?_
  rw [decide_eq_false_iff_not]
  rintro rfl
  exact h hd

/-- Every field is read as one field, the last with its blanks. -/
theorem parseParams_writeParams (hne : params ≠ []) :
    ∃ rest, writeParams params = ' ' :: rest ∧ rest ≠ [] ∧ rest.head? ≠ some ' ' ∧
      ∀ fuel, rest.length ≤ fuel → parseParams fuel rest = received params := by
  induction params with
  | nil => exact absurd rfl hne
  | cons p params ih =>
    cases params with
    | nil =>
      refine ⟨trailingParam p, rfl, ?_⟩
      unfold trailingParam
      dsimp only
      split_ifs with hmark
      · refine ⟨List.cons_ne_nil _ _, fun h => absurd (Option.some.inj h) (by decide),
          fun fuel hfuel => ?_⟩
        exact parseParams_colon _ (lt_of_lt_of_le (Nat.succ_pos _) hfuel)
      · rw [not_or, not_or, Bool.not_eq_true] at hmark
        obtain ⟨hsome, hcolon, hblank⟩ := hmark
        have hspace : ' ' ∉ stripLineBreaks p := by
          intro hmem
          exact absurd (List.any_eq_false.mp hblank ' ' hmem) (by decide)
        refine ⟨hsome, fun hhead => hspace (List.mem_of_head? hhead), fun fuel hfuel => ?_⟩
        have hlength := List.length_pos_iff.mpr hsome
        obtain ⟨fuel, rfl⟩ := Nat.exists_eq_add_of_lt (lt_of_lt_of_le hlength hfuel)
        rw [Nat.zero_add, parseParams_word hsome hcolon, splitOnce_of_not_mem hspace]
        rfl
    | cons q params =>
      obtain ⟨rest, hwrite, hrest, hhead, hread⟩ := ih (List.cons_ne_nil q params)
      obtain ⟨hmiddle, hcolon, hvisible⟩ := middle_spec p
      have hspace : ' ' ∉ middleParam p := by
        intro hmem
        exact absurd (hvisible ' ' hmem).1 (by decide)
      refine ⟨middleParam p ++ ' ' :: rest, ?_, by simp, ?_, fun fuel hfuel => ?_⟩
      · rw [writeParams, hwrite]
        · rfl
        · exact List.cons_ne_nil q params
      · rw [List.head?_append_of_ne_nil _ hmiddle]
        exact fun h => hspace (List.mem_of_head? h)
      · rw [List.length_append, List.length_cons] at hfuel
        obtain ⟨fuel, rfl⟩ : ∃ n, fuel = n + 1 := ⟨fuel - 1, by omega⟩
        rw [parseParams_field hmiddle hcolon hspace, trimSpaces_id hhead, hread fuel (by omega)]
        rfl

/-! ### The line -/

/-- Nothing ends the line early. -/
theorem toText_whole (m : Message) : ∀ c ∈ m.toText, isBreak c = false := by
  intro c hc
  unfold Message.toText at hc
  rcases List.mem_append.mp hc with hc | hc
  · rcases List.mem_append.mp hc with hc | hc
    · cases horigin : m.origin with
      | none =>
        rw [horigin] at hc
        cases hc
      | some origin =>
        rw [horigin] at hc
        rcases List.mem_append.mp hc with hc | hc
        · rcases List.mem_cons.mp hc with rfl | hc
          · decide
          · exact (scrub_spec hc).2
        · obtain rfl := List.mem_singleton.mp hc
          decide
    · exact (scrub_spec hc).2
  · exact mem_writeParams hc

theorem trimStart_id (h : ∀ d, t.head? = some d → isWhitespace d = false) : trimStart t = t :=
  dropWhile_id h

/-- A line without breaks is read to its end. -/
theorem ended_id (h : ∀ c ∈ t, isBreak c = false) :
    (t.reverse.dropWhile fun c => c = '\r' || c = '\n').reverse = t := by
  rw [dropWhile_id, List.reverse_reverse]
  intro d hd
  have hbreak := h d (List.mem_reverse.mp (List.mem_of_head? hd))
  unfold isBreak at hbreak
  exact (Bool.or_eq_false_iff.mp hbreak).1

/-- After its origin a line has a command and the parameters. -/
def parseBody (origin : Option Text) (rest : Text) : Option Message :=
  let (command, rest) := (splitOnce ' ' rest).getD (rest, [])
  if command = [] then none
  else some ⟨origin, command.map toAsciiUpper, parseParams rest.length (trimSpaces rest)⟩

theorem parseBody_written (hne : word ≠ []) (h : ∀ d ∈ word, isAsciiAlphanumeric d = true)
    (origin : Option Text) (params : List Text) : parseBody origin (word ++ writeParams params) =
      some ⟨origin, word.map toAsciiUpper, received params⟩ := by
  have hspace : ' ' ∉ word := by
    intro hmem
    exact absurd (h ' ' hmem) (by decide)
  unfold parseBody
  cases params with
  | nil =>
    rw [show writeParams [] = [] from rfl, List.append_nil, splitOnce_of_not_mem hspace]
    exact if_neg hne
  | cons p params =>
    obtain ⟨rest, hwrite, -, hhead, hread⟩ := parseParams_writeParams (List.cons_ne_nil p params)
    rw [hwrite, splitOnce_append hspace]
    dsimp only [Option.getD_some]
    rw [if_neg hne, trimSpaces_id hhead, hread rest.length le_rfl]

theorem skipTags_colon (rest : Text) : skipTags (':' :: rest) = some (':' :: rest) := rfl

theorem takePrefix_colon (rest : Text) : takePrefix (':' :: rest) =
    (splitOnce ' ' rest).map fun p => (some p.1, trimStart p.2) := rfl

/-- Letters and digits are neither tags nor an origin. -/
theorem takePrefix_word (hne : word ≠ []) (h : ∀ d ∈ word, isAsciiAlphanumeric d = true) (rest : Text) :
    trimStart (word ++ rest) = word ++ rest ∧ skipTags (word ++ rest) = some (word ++ rest) ∧
      takePrefix (word ++ rest) = some (none, word ++ rest) := by
  obtain ⟨d, word, rfl⟩ := List.exists_cons_of_ne_nil hne
  have hd := h d List.mem_cons_self
  obtain ⟨-, htag, hcolon⟩ := alphanumeric_whole hd
  refine ⟨trimStart_id fun e he => ?_, ?_, ?_⟩
  · obtain rfl := Option.some.inj he
    exact (alphanumeric_spec hd).1
  · unfold skipTags
    split
    · rename_i heq
      exact absurd (List.cons.inj heq).1 htag
    · rfl
  · unfold takePrefix
    split
    · rename_i heq
      exact absurd (List.cons.inj heq).1 hcolon
    · rfl

theorem parse_eq (h : ∀ c ∈ t, isBreak c = false) : parse t =
    (skipTags (trimStart t)).bind fun rest => (takePrefix rest).bind fun p => parseBody p.1 p.2 := by
  unfold parse
  rw [ended_id h]
  rfl

/-- The line of a message reads as the message with its origin and its parameters made fit. -/
theorem parse_toText {m : Message} (hne : m.command ≠ [])
    (h : ∀ d ∈ m.command, isAsciiAlphanumeric d = true) : parse m.toText =
      some ⟨m.origin.map scrubIrc, m.command.map toAsciiUpper, received m.params⟩ := by
  obtain ⟨hstart, htags, hprefix⟩ := takePrefix_word hne h (writeParams m.params)
  rw [parse_eq (toText_whole m), Message.toText, scrub_word hne h]
  cases horigin : m.origin with
  | none =>
    dsimp only
    rw [List.nil_append, hstart, htags, Option.bind_some, hprefix, Option.bind_some]
    exact parseBody_written hne h none m.params
  | some origin =>
    have hspace : ' ' ∉ scrubIrc origin := by
      intro hmem
      exact absurd (scrub_spec hmem).1 (by decide)
    have hline : ((':' :: scrubIrc origin ++ [' ']) ++ m.command) ++ writeParams m.params =
        ':' :: (scrubIrc origin ++ ' ' :: (m.command ++ writeParams m.params)) := by
      simp only [List.append_assoc, List.cons_append, List.nil_append]
    have hmark : trimStart (':' :: (scrubIrc origin ++ ' ' :: (m.command ++ writeParams m.params))) =
        ':' :: (scrubIrc origin ++ ' ' :: (m.command ++ writeParams m.params)) := by
      refine trimStart_id fun d hd => ?_
      obtain rfl := Option.some.inj hd
      decide
    dsimp only
    rw [hline, hmark, skipTags_colon, Option.bind_some]
    rw [takePrefix_colon, splitOnce_append hspace, Option.map_some, Option.bind_some, hstart]
    exact parseBody_written hne h _ m.params

/-- A message as the server makes it, with an origin or without. -/
def made (origin : Option Text) (word : Text) (params : List Text) : Message :=
  { Message.new word params with origin := origin }

/-- What a message is made of, as the one who reads its line gets it. -/
structure Delivered (m back : Message) : Prop where
  command : back.command = m.command
  origin : back.origin = m.origin.map scrubIrc
  count : back.params.length = m.params.length
  params : ∀ i p, m.params[i]? = some p → back.params[i]? =
    some (if i + 1 = m.params.length then stripLineBreaks p else middleParam p)

/-- Nobody can end a line early or move the fields of a message, whatever is put into it. -/
theorem injection_proof (hne : word ≠ []) (h : ∀ d ∈ word, isAsciiAlphanumeric d = true)
    (origin : Option Text) (params : List Text) :
    (∀ c ∈ (made origin word params).toText, c ≠ '\r' ∧ c ≠ '\n' ∧ c ≠ '\x00') ∧
    ∃ back, parse (made origin word params).toText = some back ∧
      Delivered (made origin word params) back := by
  have hupper : ∀ d ∈ word.map toAsciiUpper, plain d = true := by
    intro d hd
    obtain ⟨e, he, rfl⟩ := List.mem_map.mp hd
    exact (alphanumeric_spec (h e he)).2
  have hcapitals : (word.map toAsciiUpper).map toAsciiUpper = word.map toAsciiUpper :=
    (List.map_congr_left fun d hd => (plain_spec (hupper d hd)).2.1).trans (List.map_id _)
  refine ⟨fun c hc => ?_, _, parse_toText (fun hnil => hne (List.map_eq_nil_iff.mp hnil))
    fun d hd => (plain_spec (hupper d hd)).1, ?_⟩
  · have hbreak := toText_whole _ c hc
    simp only [isBreak, Bool.or_eq_false_iff, decide_eq_false_iff_not] at hbreak
    exact ⟨hbreak.1.1, hbreak.1.2, hbreak.2⟩
  · exact ⟨hcapitals, rfl, received_length params, fun i p hp => received_get hp⟩

/-- A topic setter with a space, an empty field and one with a colon, before a text of two lines. -/
theorem injection_proof_fields : Delivered
    (made (some "irc.example.org") "333" ["anna", "a b", "", ":x", "one\r\ntwo  three"])
    ⟨some "irc.example.org", "333", ["anna", "a_b", "*", "_:x", "onetwo  three"]⟩ := by
  obtain ⟨-, back, hback, hdelivered⟩ := injection_proof
    (show ("333" : Text) ≠ [] by decide) (by decide)
    (some "irc.example.org") ["anna", "a b", "", ":x", "one\r\ntwo  three"]
  have hread : parse (made (some "irc.example.org") "333"
      ["anna", "a b", "", ":x", "one\r\ntwo  three"]).toText =
        some ⟨some "irc.example.org", "333", ["anna", "a_b", "*", "_:x", "onetwo  three"]⟩ := by
    decide +kernel
  rw [hread] at hback
  rw [Option.some.inj hback]
  exact hdelivered

end MessageLines
