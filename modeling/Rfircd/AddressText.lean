import Mathlib.Algebra.Group.Nat.Defs
import Mathlib.Data.List.DropRight
import Rfircd.HostKey

/-! The text of an address is read back as that address. -/
namespace AddressText

open Basics MessageText HostKey

/-! ### Parts between separators -/

theorem splitOn_ne_nil (c : Char) (t : Text) : splitOn c t ≠ [] := by
  induction t with
  | nil => exact List.cons_ne_nil _ _
  | cons d t ih =>
    rw [splitOn]
    cases splitOn c t with
    | nil => exact List.cons_ne_nil _ _
    | cons part parts =>
      simp only
      split_ifs <;> exact List.cons_ne_nil _ _

theorem splitOn_cons_self (c : Char) (t : Text) : splitOn c (c :: t) = [] :: splitOn c t := by
  rw [splitOn]
  cases h : splitOn c t with
  | nil => exact absurd h (splitOn_ne_nil c t)
  | cons part parts => simp

theorem splitOn_of_not_mem {c : Char} {t : Text} (h : c ∉ t) : splitOn c t = [t] := by
  induction t with
  | nil => rfl
  | cons d t ih =>
    have hd : d ≠ c := fun hd => h (hd ▸ List.mem_cons_self)
    rw [splitOn, ih fun hc => h (List.mem_cons_of_mem d hc)]
    exact if_neg hd

theorem splitOn_append {c : Char} {part : Text} (h : c ∉ part) (t : Text) :
    splitOn c (part ++ c :: t) = part :: splitOn c t := by
  induction part with
  | nil => exact splitOn_cons_self c t
  | cons d part ih =>
    have hd : d ≠ c := fun hd => h (hd ▸ List.mem_cons_self)
    rw [List.cons_append, splitOn, ih fun hc => h (List.mem_cons_of_mem d hc)]
    exact if_neg hd

theorem joinWith_cons {sep : Text} (part : Text) {parts : List Text} (h : parts ≠ []) :
    joinWith sep (part :: parts) = part ++ sep ++ joinWith sep parts := by
  cases parts with
  | nil => exact absurd rfl h
  | cons next parts => rfl

theorem splitOn_joinWith {c : Char} {parts : List Text} (hne : parts ≠ [])
    (h : ∀ part ∈ parts, c ∉ part) : splitOn c (joinWith [c] parts) = parts := by
  induction parts with
  | nil => exact absurd rfl hne
  | cons part parts ih =>
    have hpart := h part List.mem_cons_self
    by_cases hlast : parts = []
    · subst hlast
      exact splitOn_of_not_mem hpart
    · rw [joinWith_cons part hlast, List.append_assoc, List.singleton_append, splitOn_append hpart,
        ih hlast fun p hp => h p (List.mem_cons_of_mem part hp)]

theorem mem_joinWith {sep : Text} {parts : List Text} {c : Char} (h : c ∈ joinWith sep parts) :
    c ∈ sep ∨ ∃ part ∈ parts, c ∈ part := by
  induction parts with
  | nil => exact absurd h List.not_mem_nil
  | cons part parts ih =>
    by_cases hlast : parts = []
    · subst hlast
      exact .inr ⟨part, List.mem_cons_self, h⟩
    · rw [joinWith_cons part hlast, List.append_assoc, List.mem_append, List.mem_append] at h
      rcases h with h | h | h
      · exact .inr ⟨part, List.mem_cons_self, h⟩
      · exact .inl h
      · refine (ih h).imp_right ?_
        rintro ⟨p, hp, hc⟩
        exact ⟨p, List.mem_cons_of_mem part hp, hc⟩

/-! ### Lists that are read part by part -/

theorem mapM_eq_some {α β : Type*} {f : α → Option β} {l : List α} {r : List β}
    (h : l.mapM f = some r) : r.length = l.length ∧ ∀ y ∈ r, ∃ x ∈ l, f x = some y := by
  induction l generalizing r with
  | nil =>
    obtain rfl : [] = r := by simpa using h
    exact ⟨rfl, fun y hy => absurd hy List.not_mem_nil⟩
  | cons x l ih =>
    rw [List.mapM_cons] at h
    cases hx : f x with
    | none => simp [hx] at h
    | some y =>
      cases hl : l.mapM f with
      | none => simp [hx, hl] at h
      | some ys =>
        obtain rfl : y :: ys = r := by simpa [hx, hl] using h
        obtain ⟨hlength, hmem⟩ := ih hl
        refine ⟨congrArg (· + 1) hlength, ?_⟩
        intro z hz
        rcases List.mem_cons.mp hz with rfl | hz
        · exact ⟨x, List.mem_cons_self, hx⟩
        · obtain ⟨w, hw, hfw⟩ := hmem z hz
          exact ⟨w, List.mem_cons_of_mem x hw, hfw⟩

theorem mapM_map_eq_some {α β : Type*} {f : β → Option α} {g : α → β} {l : List α}
    (h : ∀ x ∈ l, f (g x) = some x) : (l.map g).mapM f = some l := by
  induction l with
  | nil => rfl
  | cons x l ih =>
    rw [List.map_cons, List.mapM_cons, h x List.mem_cons_self,
      ih fun y hy => h y (List.mem_cons_of_mem x hy)]
    rfl

/-! ### Numbers -/

theorem hexValue_digitChar : ∀ d < 16, hexValue d.digitChar = some d := by decide

/-- One digit more. -/
def addDigit (base : ℕ) (n : Option ℕ) (c : Char) : Option ℕ :=
  n.bind fun n => (hexValue c).bind fun d => if d < base then some (n * base + d) else none

theorem foldl_toDigits {base : ℕ} (hbase : 1 < base) (hle : base ≤ 16) (n : ℕ) :
    (Nat.toDigits base n).foldl (addDigit base) (some 0) = some n := by
  induction n using Nat.strongRecOn with
  | _ n ih =>
    have hdigit : ∀ d < base, addDigit base (some (n / base)) d.digitChar = some (n / base * base + d) := by
      intro d hd
      rw [addDigit, Option.bind_some, hexValue_digitChar d (by omega), Option.bind_some, if_pos hd]
    by_cases hn : n < base
    · rw [Nat.toDigits_of_lt_base hn, List.foldl_cons, List.foldl_nil, addDigit, Option.bind_some,
        hexValue_digitChar n (by omega), Option.bind_some, if_pos hn, Nat.zero_mul, Nat.zero_add]
    · rw [Nat.toDigits_of_base_le hbase (not_lt.mp hn), List.foldl_append,
        ih (n / base) (Nat.div_lt_self (by omega) hbase), List.foldl_cons, List.foldl_nil,
        hdigit _ (Nat.mod_lt n (by omega)), Nat.mul_comm, Nat.div_add_mod]

theorem digits_toDigits {base most n : ℕ} (hbase : 1 < base) (hle : base ≤ 16) (hmost : 0 < most)
    (hn : n < base ^ most) : digits base most (Nat.toDigits base n) = some n := by
  have hlength := (Nat.length_toDigits_le_iff hbase hmost).mpr hn
  rw [digits, if_neg (not_or.mpr ⟨Nat.toDigits_ne_nil, not_lt.mpr hlength⟩)]
  exact foldl_toDigits hbase hle n

theorem foldl_lt {base : ℕ} (t : Text) {n m k : ℕ} (hn : n < base ^ k)
    (h : t.foldl (addDigit base) (some n) = some m) : m < base ^ (k + t.length) := by
  induction t generalizing n k with
  | nil =>
    obtain rfl := Option.some.inj h
    exact hn
  | cons c t ih =>
    rw [List.foldl_cons] at h
    cases hc : addDigit base (some n) c with
    | none =>
      rw [hc] at h
      have hnone : ∀ t : Text, t.foldl (addDigit base) none = none := by
        intro t
        induction t with
        | nil => rfl
        | cons c t ih => exact ih
      rw [hnone] at h
      cases h
    | some n' =>
      rw [hc] at h
      have hn' : n' < base ^ (k + 1) := by
        rw [addDigit, Option.bind_some, Option.bind_eq_some_iff] at hc
        obtain ⟨d, -, hd⟩ := hc
        split_ifs at hd with hlt
        obtain rfl := Option.some.inj hd
        rw [Nat.pow_succ]
        calc n * base + d < n * base + base := Nat.add_lt_add_left hlt _
          _ = (n + 1) * base := (Nat.succ_mul n base).symm
          _ ≤ base ^ k * base := Nat.mul_le_mul_right base hn
      have := ih hn' h
      rw [List.length_cons]
      rwa [Nat.add_right_comm, Nat.add_assoc] at this

theorem digits_lt {base most n : ℕ} {t : Text} (hbase : 0 < base) (h : digits base most t = some n) :
    n < base ^ most := by
  unfold digits at h
  split_ifs at h with hshape
  rw [not_or, not_lt] at hshape
  have hlt := foldl_lt (k := 0) t (by rw [Nat.pow_zero]; exact Nat.one_pos) h
  rw [Nat.zero_add] at hlt
  exact hlt.trans_le (Nat.pow_le_pow_right hbase hshape.2)

/-! ### Dotted addresses -/

theorem octet_natText : ∀ n < 256, octet (natText n) = some n := by decide +kernel

/-- What the numbers of an address are written with. -/
def isDigitOf (c : Char) : Bool := (List.range 16).any fun d => d.digitChar = c

theorem isDigitOf_toDigits {base : ℕ} (hbase : 1 < base) (hle : base ≤ 16) (n : ℕ) :
    ∀ c ∈ Nat.toDigits base n, isDigitOf c = true := by
  have hdigit : ∀ d < 16, isDigitOf d.digitChar = true := by decide
  induction n using Nat.strongRecOn with
  | _ n ih =>
    intro c hc
    by_cases hn : n < base
    · rw [Nat.toDigits_of_lt_base hn, List.mem_singleton] at hc
      rw [hc]
      exact hdigit n (by omega)
    · rw [Nat.toDigits_of_base_le hbase (not_lt.mp hn), List.mem_append, List.mem_singleton] at hc
      rcases hc with hc | rfl
      · exact ih (n / base) (Nat.div_lt_self (by omega) hbase) c hc
      · exact hdigit _ (by have := Nat.mod_lt n (show 0 < base by omega); omega)

theorem isDigitOf_natText (n : ℕ) : ∀ c ∈ natText n, isDigitOf c = true := by
  rw [natText, show toString n = n.repr from rfl, Nat.toList_repr]
  exact isDigitOf_toDigits (by decide) (by decide) n

theorem isAsciiDigit_natText {n : ℕ} {c : Char} (h : c ∈ natText n) : isAsciiDigit c = true := by
  have hdigit : c.isDigit = true := by
    rw [natText, show toString n = n.repr from rfl, Nat.toList_repr] at h
    exact Nat.isDigit_of_mem_toDigits (by decide) (by decide) h
  simpa [isAsciiDigit, Char.isDigit, Char.le_def] using hdigit

theorem not_mem_of_digits {t : Text} (h : ∀ c ∈ t, isDigitOf c = true) {c : Char}
    (hc : isDigitOf c = false) : c ∉ t := by
  intro hmem
  rw [h c hmem] at hc
  cases hc

def ValidV4 (o : List ℕ) : Prop := o.length = 4 ∧ ∀ n ∈ o, n ≤ 255

theorem parseV4_showV4 {o : List ℕ} (h : ValidV4 o) : parseV4 (showV4 o) = some o := by
  have hne : o.map natText ≠ [] := by
    intro hnil
    have hlength := h.1
    rw [List.map_eq_nil_iff.mp hnil] at hlength
    cases hlength
  have hparts : splitOn '.' (showV4 o) = o.map natText := by
    refine splitOn_joinWith hne ?_
    intro part hpart
    obtain ⟨n, -, rfl⟩ := List.mem_map.mp hpart
    exact not_mem_of_digits (isDigitOf_natText n) (by decide)
  simp only [parseV4, hparts, List.length_map, h.1, if_true]
  exact mapM_map_eq_some fun n hn => octet_natText n (Nat.lt_succ_of_le (h.2 n hn))

theorem validV4_of_parse {t : Text} {o : List ℕ} (h : parseV4 t = some o) : ValidV4 o := by
  simp only [parseV4] at h
  split_ifs at h with hlength
  obtain ⟨hsame, hmem⟩ := mapM_eq_some h
  refine ⟨hsame.trans hlength, ?_⟩
  intro n hn
  obtain ⟨part, -, hpart⟩ := hmem n hn
  rw [octet] at hpart
  split_ifs at hpart
  obtain ⟨m, -, hm⟩ := Option.bind_eq_some_iff.mp hpart
  split_ifs at hm with hle
  exact Option.some.inj hm ▸ hle

/-! ### Addresses of eight groups -/

def Groups (gs : List ℕ) : Prop := ∀ g ∈ gs, g < 65536

def ValidV6 (gs : List ℕ) : Prop := gs.length = 8 ∧ Groups gs

theorem groups_append {gs hs : List ℕ} (h : Groups gs) (h' : Groups hs) : Groups (gs ++ hs) := by
  intro g hg
  exact (List.mem_append.mp hg).elim (h g) (h' g)

theorem groups_of_digits {l : List Text} {gs : List ℕ} (h : l.mapM (digits 16 4) = some gs) :
    Groups gs := by
  intro g hg
  obtain ⟨part, -, hpart⟩ := (mapM_eq_some h).2 g hg
  exact digits_lt (by decide) hpart

theorem groups_of_parse {t : Text} {gs : List ℕ} (h : parseGroups t = some gs) : Groups gs := by
  unfold parseGroups at h
  split_ifs at h
  · obtain rfl := Option.some.inj h
    exact fun g hg => absurd hg List.not_mem_nil
  · simp only at h
    split at h
    · rename_i front last hfront _
      have hgroups := groups_of_digits hfront
      split at h
      · rename_i g _ hlast
        obtain rfl := Option.some.inj h
        refine groups_append hgroups ?_
        intro x hx
        rw [List.mem_singleton.mp hx]
        exact digits_lt (by decide) hlast
      · rename_i a b c d _ hlast
        obtain rfl := Option.some.inj h
        obtain ⟨-, hle⟩ := validV4_of_parse hlast
        have ha := hle a (by simp)
        have hb := hle b (by simp)
        have hc := hle c (by simp)
        have hd := hle d (by simp)
        refine groups_append hgroups ?_
        intro x hx
        simp only [List.mem_cons, List.not_mem_nil, or_false] at hx
        omega
      · cases h
    · cases h

theorem validV6_of_parse {t : Text} {gs : List ℕ} (h : parseV6 t = some gs) : ValidV6 gs := by
  unfold parseV6 at h
  split at h
  · obtain ⟨g, hg, hlength⟩ := Option.bind_eq_some_iff.mp h
    split_ifs at hlength with height
    obtain rfl := Option.some.inj hlength
    exact ⟨height, groups_of_parse hg⟩
  · split at h
    · rename_i f r hf hr
      split_ifs at h with hfew
      obtain rfl := Option.some.inj h
      constructor
      · simp only [List.length_append, List.length_replicate]
        omega
      · refine groups_append (groups_append (groups_of_parse hf) ?_) (groups_of_parse hr)
        intro g hg
        rw [List.eq_of_mem_replicate hg]
        decide
    · cases h

theorem isDigitOf_showGroup (n : ℕ) : ∀ c ∈ showGroup n, isDigitOf c = true :=
  isDigitOf_toDigits (by decide) (by decide) n

def colons (gs : List ℕ) : Text := joinWith [':'] (gs.map showGroup)

theorem mem_colons {gs : List ℕ} {c : Char} (h : c ∈ colons gs) : c = ':' ∨ isDigitOf c = true := by
  rcases mem_joinWith h with h | ⟨part, hpart, hc⟩
  · exact .inl (List.mem_singleton.mp h)
  · obtain ⟨g, -, rfl⟩ := List.mem_map.mp hpart
    exact .inr (isDigitOf_showGroup g c hc)

theorem colons_cons (g : ℕ) {gs : List ℕ} (h : gs ≠ []) :
    colons (g :: gs) = showGroup g ++ ':' :: colons gs := by
  have hne : gs.map showGroup ≠ [] := fun hnil => h (List.map_eq_nil_iff.mp hnil)
  rw [colons, List.map_cons, joinWith_cons _ hne, List.append_assoc]
  rfl

theorem parseGroups_colons {gs : List ℕ} (h : Groups gs) : parseGroups (colons gs) = some gs := by
  by_cases hnil : gs = []
  · subst hnil
    rfl
  have hne : gs.map showGroup ≠ [] := fun h => hnil (List.map_eq_nil_iff.mp h)
  have hparts : splitOn ':' (colons gs) = gs.map showGroup := by
    refine splitOn_joinWith hne ?_
    intro part hpart
    obtain ⟨g, -, rfl⟩ := List.mem_map.mp hpart
    exact not_mem_of_digits (isDigitOf_showGroup g) (by decide)
  have hread : ∀ g < 65536, digits 16 4 (showGroup g) = some g :=
    fun g hg => digits_toDigits (by decide) (by decide) (by decide) hg
  have htext : colons gs ≠ [] := by
    intro hempty
    rw [hempty] at hparts
    cases gs with
    | nil => exact hnil rfl
    | cons g gs => exact Nat.toDigits_ne_nil (List.cons.inj hparts).1.symm
  have hfront : (gs.map showGroup).dropLast.mapM (digits 16 4) = some gs.dropLast := by
    rw [← List.map_dropLast]
    exact mapM_map_eq_some fun g hg => hread g (h g (List.dropLast_subset gs hg))
  have hlast : (gs.map showGroup).getLast? = some (showGroup (gs.getLast hnil)) := by
    rw [List.getLast?_map, List.getLast?_eq_some_getLast hnil]
    rfl
  have hlastRead := hread _ (h _ (List.getLast_mem hnil))
  simp only [parseGroups, if_neg htext, hparts, hfront, hlast, hlastRead,
    List.dropLast_append_getLast hnil]

/-! ### The gap -/

theorem splitGap_cons {c : Char} (h : c ≠ ':') (t : Text) :
    splitGap (c :: t) = (splitGap t).map fun p => (c :: p.1, p.2) := by
  rw [splitGap]
  rintro t' rfl -
  exact h rfl

theorem splitGap_part {part : Text} (h : ':' ∉ part) (t : Text) :
    splitGap (part ++ t) = (splitGap t).map fun p => (part ++ p.1, p.2) := by
  induction part with
  | nil => simp
  | cons c part ih =>
    have hc : c ≠ ':' := fun hc => h (hc ▸ List.mem_cons_self)
    rw [List.cons_append, splitGap_cons hc, ih fun hmem => h (List.mem_cons_of_mem c hmem),
      Option.map_map]
    rfl

/-- After one colon comes a digit. -/
theorem splitGap_colon {c : Char} (h : c ≠ ':') (t : Text) :
    splitGap (':' :: c :: t) = (splitGap (c :: t)).map fun p => (':' :: p.1, p.2) := by
  rw [splitGap]
  rintro t' - heq
  exact h (List.cons.inj heq).1

theorem showGroup_cons (g : ℕ) : ∃ c t, showGroup g = c :: t ∧ c ≠ ':' := by
  obtain ⟨c, t, ht⟩ := List.exists_cons_of_ne_nil (Nat.toDigits_ne_nil (n := g) (b := 16))
  refine ⟨c, t, ht, ?_⟩
  have hdigit := isDigitOf_showGroup g c (by rw [showGroup, ht]; exact List.mem_cons_self)
  rintro rfl
  exact absurd hdigit (by decide)

theorem not_mem_showGroup (g : ℕ) : ':' ∉ showGroup g :=
  not_mem_of_digits (isDigitOf_showGroup g) (by decide)

/-- Groups have no gap between them. -/
theorem splitGap_colons (gs : List ℕ) (t : Text) :
    splitGap (colons gs ++ t) = (splitGap t).map fun p => (colons gs ++ p.1, p.2) := by
  induction gs with
  | nil => exact splitGap_part List.not_mem_nil t
  | cons g gs ih =>
    by_cases hlast : gs = []
    · subst hlast
      exact splitGap_part (not_mem_showGroup g) t
    · obtain ⟨next, gs, rfl⟩ := List.exists_cons_of_ne_nil hlast
      obtain ⟨c, rest, hstart, hc⟩ : ∃ c rest, colons (next :: gs) = c :: rest ∧ c ≠ ':' := by
        obtain ⟨c, rest, hstart, hc⟩ := showGroup_cons next
        by_cases hend : gs = []
        · subst hend
          exact ⟨c, rest, hstart, hc⟩
        · exact ⟨c, _, by rw [colons_cons next hend, hstart]; rfl, hc⟩
      rw [hstart, List.cons_append] at ih
      rw [colons_cons g hlast, List.append_assoc, splitGap_part (not_mem_showGroup g), hstart,
        List.cons_append, List.cons_append, splitGap_colon hc, ih]
      simp [Function.comp_def]

theorem longestRun_spec {gs : List ℕ} {i n : ℕ} (h : longestRun gs = some (i, n)) :
    2 ≤ n ∧ i + n ≤ gs.length ∧ gs.take i ++ List.replicate n 0 ++ gs.drop (i + n) = gs := by
  obtain ⟨hrun, hlong⟩ := Option.filter_eq_some_iff.mp h
  have hmem := List.argmax_mem hrun
  obtain ⟨j, hj, hpair⟩ := List.mem_map.mp hmem
  obtain ⟨rfl, rfl⟩ := Prod.mk.inj hpair
  have hzeros : (gs.drop j).takeWhile (· = 0) = List.replicate (zerosAt (gs.drop j)) 0 := by
    refine List.eq_replicate_iff.mpr ⟨rfl, ?_⟩
    intro g hg
    exact of_decide_eq_true (List.all_eq_true.mp List.all_takeWhile g hg)
  have hsplit : List.replicate (zerosAt (gs.drop j)) 0 ++ (gs.drop j).drop (zerosAt (gs.drop j)) =
      gs.drop j := by
    have hprefix := List.takeWhile_prefix (l := gs.drop j) (· = 0)
    have htake := List.prefix_iff_eq_take.mp hprefix
    rw [← hzeros]
    nth_rewrite 1 [htake]
    exact List.take_append_drop _ _
  refine ⟨of_decide_eq_true hlong, ?_, ?_⟩
  · have hle := congrArg List.length hsplit
    rw [List.length_append, List.length_replicate, List.length_drop, List.length_drop] at hle
    have := List.mem_range.mp hj
    omega
  · rw [List.append_assoc, ← List.drop_drop, hsplit, List.take_append_drop]

theorem mem_showV6 {gs : List ℕ} {c : Char} (h : c ∈ showV6 gs) : c = ':' ∨ isDigitOf c = true := by
  unfold showV6 at h
  cases hrun : longestRun gs with
  | none =>
    rw [hrun] at h
    exact mem_colons h
  | some run =>
    rw [hrun] at h
    simp only [List.append_assoc, List.mem_append, List.mem_cons, List.not_mem_nil, or_false] at h
    rcases h with h | (h | h) | h
    · exact mem_colons h
    · exact .inl h
    · exact .inl h
    · exact mem_colons h

theorem parseV6_showV6 {gs : List ℕ} (h : ValidV6 gs) : parseV6 (showV6 gs) = some gs := by
  unfold showV6
  cases hrun : longestRun gs with
  | none =>
    have hgap : splitGap (colons gs) = none := by
      have := splitGap_colons gs []
      rwa [List.append_nil] at this
    change parseV6 (colons gs) = some gs
    rw [parseV6, hgap]
    simp only [parseGroups_colons h.2, Option.bind_some, h.1, if_true]
  | some run =>
    obtain ⟨i, n⟩ := run
    obtain ⟨hlong, hle, hsplit⟩ := longestRun_spec hrun
    have hlength := h.1
    change parseV6 (colons (gs.take i) ++ [':', ':'] ++ colons (gs.drop (i + n))) = some gs
    have hgap : splitGap (colons (gs.take i) ++ [':', ':'] ++ colons (gs.drop (i + n))) =
        some (colons (gs.take i), colons (gs.drop (i + n))) := by
      rw [List.append_assoc, splitGap_colons]
      simp [splitGap]
    have hfront : parseGroups (colons (gs.take i)) = some (gs.take i) :=
      parseGroups_colons fun g hg => h.2 g (List.mem_of_mem_take hg)
    have hrear : parseGroups (colons (gs.drop (i + n))) = some (gs.drop (i + n)) :=
      parseGroups_colons fun g hg => h.2 g (List.mem_of_mem_drop hg)
    have hdot : '.' ∉ colons (gs.take i) := by
      intro hmem
      rcases mem_colons hmem with hc | hc
      · cases hc
      · exact absurd hc (by decide)
    have htake : (gs.take i).length = i := List.length_take_of_le (by omega)
    have hdrop : (gs.drop (i + n)).length = 8 - (i + n) := by rw [List.length_drop, hlength]
    have hzeros : 8 - i - (8 - (i + n)) = n := by omega
    rw [parseV6, hgap]
    simp only [hfront, hrear, htake, hdrop]
    rw [if_pos ⟨by omega, hdot⟩, hzeros, hsplit]

theorem parseV4_showV6 (gs : List ℕ) : parseV4 (showV6 gs) = none := by
  have hdot : '.' ∉ showV6 gs := by
    intro hmem
    rcases mem_showV6 hmem with hc | hc
    · cases hc
    · exact absurd hc (by decide)
  rw [parseV4, splitOn_of_not_mem hdot]
  rfl

/-! ### Keys of hosts -/

/-- Text that trimming and folding leave as it is. -/
def Plain (t : Text) : Prop :=
  ∀ c ∈ t, isWhitespace c = false ∧ c ≠ '[' ∧ c ≠ ']' ∧ lower [c] = [c]

theorem plain_of_digit {c : Char} (h : c = '.' ∨ c = ':' ∨ isDigitOf c = true) :
    isWhitespace c = false ∧ c ≠ '[' ∧ c ≠ ']' ∧ lower [c] = [c] := by
  rcases h with rfl | rfl | h
  · decide
  · decide
  · obtain ⟨d, hd, hc⟩ := List.any_eq_true.mp h
    have hall : ∀ d < 16, isWhitespace d.digitChar = false ∧ d.digitChar ≠ '[' ∧
        d.digitChar ≠ ']' ∧ lower [d.digitChar] = [d.digitChar] := by decide
    have := hall d (List.mem_range.mp hd)
    rwa [of_decide_eq_true hc] at this

theorem stripBoth_id {p : Char → Bool} {t : Text} (h : ∀ c ∈ t, p c = false) :
    ((t.dropWhile p).reverse.dropWhile p).reverse = t := by
  have hid : ∀ t : Text, (∀ c ∈ t, p c = false) → t.dropWhile p = t := by
    intro t ht
    cases t with
    | nil => rfl
    | cons c t => rw [List.dropWhile_cons, ht c List.mem_cons_self]; rfl
  rw [hid t h, hid t.reverse fun c hc => h c (List.mem_reverse.mp hc), List.reverse_reverse]

theorem lower_id {t : Text} (h : ∀ c ∈ t, lower [c] = [c]) : lower t = t := by
  induction t with
  | nil => rfl
  | cons c t ih =>
    have hc := h c List.mem_cons_self
    have ht := ih fun d hd => h d (List.mem_cons_of_mem c hd)
    change lower [c] ++ lower t = [c] ++ t
    rw [hc, ht]

/-- How the text of a host is read before it is parsed. -/
def folded (host : Text) : Text := lower (trimBrackets (trim host))

theorem folded_plain {t : Text} (h : Plain t) : folded t = t := by
  have htrim : trim t = t := stripBoth_id fun c hc => (h c hc).1
  have hbrackets : trimBrackets t = t := by
    refine stripBoth_id fun c hc => ?_
    simp [(h c hc).2.1, (h c hc).2.2.1]
  rw [folded, htrim, hbrackets, lower_id fun c hc => (h c hc).2.2.2]

theorem hostBanKey_showV4 {o : List ℕ} (h : ValidV4 o) : hostBanKey (showV4 o) = showV4 o := by
  have hplain : Plain (showV4 o) := by
    intro c hc
    apply plain_of_digit
    rcases mem_joinWith hc with hc | ⟨part, hpart, hc⟩
    · exact .inl (List.mem_singleton.mp hc)
    · obtain ⟨n, -, rfl⟩ := List.mem_map.mp hpart
      exact .inr (.inr (isDigitOf_natText n c hc))
  have hfold := folded_plain hplain
  rw [folded] at hfold
  simp only [hostBanKey, hfold, parseIp, parseV4_showV4 h]

theorem hostBanKey_showV6 {gs : List ℕ} (h : ValidV6 gs) (hmapped : mappedV4 gs = none) :
    hostBanKey (showV6 gs) = showV6 gs := by
  have hplain : Plain (showV6 gs) := fun c hc => plain_of_digit (.inr (mem_showV6 hc))
  have hfold := folded_plain hplain
  rw [folded] at hfold
  simp only [hostBanKey, hfold, parseIp, parseV4_showV6, parseV6_showV6 h, Option.map_some, hmapped]

theorem validV4_of_mapped {gs o : List ℕ} (h : ValidV6 gs) (hm : mappedV4 gs = some o) :
    ValidV4 o := by
  unfold mappedV4 at hm
  split at hm
  · rename_i a b
    obtain rfl := Option.some.inj hm
    have ha := h.2 a (by simp)
    have hb := h.2 b (by simp)
    refine ⟨rfl, ?_⟩
    intro n hn
    simp only [List.mem_cons, List.not_mem_nil, or_false] at hn
    omega
  · cases hm

theorem hostBanKey_eq (host : Text) : hostBanKey host = match parseIp (folded host) with
    | some (.v4 o) => showV4 o
    | some (.v6 g) => match mappedV4 g with
      | some o => showV4 o
      | none => showV6 g
    | none => folded host := rfl

/-- The key of an address is its own key; of another host it is the folded text. -/
theorem hostBanKey_cases (host : Text) :
    hostBanKey (hostBanKey host) = hostBanKey host ∨
      parseIp (folded host) = none ∧ hostBanKey host = folded host := by
  have hkey := hostBanKey_eq host
  cases hparse : parseIp (folded host) with
  | none =>
    rw [hparse] at hkey
    exact .inr ⟨rfl, hkey⟩
  | some ip =>
    left
    rw [hparse] at hkey
    unfold parseIp at hparse
    split at hparse
    · rename_i o ho
      obtain rfl := Option.some.inj hparse
      simp only at hkey
      rw [hkey]
      exact hostBanKey_showV4 (validV4_of_parse ho)
    · obtain ⟨gs, hgs, rfl⟩ := Option.map_eq_some_iff.mp hparse
      have hvalid := validV6_of_parse hgs
      simp only at hkey
      cases hmapped : mappedV4 gs with
      | some o =>
        rw [hmapped] at hkey
        rw [hkey]
        exact hostBanKey_showV4 (validV4_of_mapped hvalid hmapped)
      | none =>
        rw [hmapped] at hkey
        rw [hkey]
        exact hostBanKey_showV6 hvalid hmapped

theorem trim_trim (t : Text) : trim (trim t) = trim t := by
  have hright : ∀ t : Text, trim t = (t.dropWhile isWhitespace).rdropWhile isWhitespace := fun _ => rfl
  have hleft : (trim t).dropWhile isWhitespace = trim t := by
    rw [hright, List.dropWhile_eq_self_iff]
    intro hpos
    have hprefix := List.rdropWhile_prefix isWhitespace (l := t.dropWhile isWhitespace)
    have hidem := List.dropWhile_idempotent (p := isWhitespace) (l := t)
    rw [List.dropWhile_eq_self_iff] at hidem
    have hhead := hidem (hpos.trans_le hprefix.length_le)
    rwa [← hprefix.getElem hpos] at hhead
  rw [hright (trim t), hleft, hright t, List.rdropWhile_idempotent]

theorem lower_fold (c : Char) :
    lower (lower [c]) = lower [c] ∧ '[' ∉ lower [c] ∧ ']' ∉ lower [c] := by
  have hascii : ∀ n < 128, lower (lower [Char.ofNat n]) = lower [Char.ofNat n] ∧
      '[' ∉ lower [Char.ofNat n] ∧ ']' ∉ lower [Char.ofNat n] := by decide
  by_cases h : c.toNat < 128
  · have hc := hascii c.toNat h
    rwa [Char.ofNat_toNat] at hc
  · have hkept := lower_kept (not_lt.mp h)
    rw [hkept, hkept]
    refine ⟨rfl, ?_, ?_⟩ <;>
    · rw [List.mem_singleton]
      rintro rfl
      exact h (by decide)

theorem mem_lower {t : Text} {d : Char} (h : d ∈ lower t) : ∃ c ∈ t, d ∈ lower [c] := by
  obtain ⟨c, hc, hd⟩ := List.mem_map.mp h
  exact ⟨c, hc, List.mem_singleton.mpr hd.symm⟩

/-- Text that was folded once is only trimmed. -/
theorem folded_folded (t : Text) : folded (folded t) = trim (folded t) := by
  have hno : ∀ d ∈ folded t, d ≠ '[' ∧ d ≠ ']' ∧ lower [d] = [d] := by
    intro d hd
    obtain ⟨c, -, hdc⟩ := mem_lower hd
    obtain ⟨htwice, hopen, hclose⟩ := lower_fold c
    refine ⟨fun h => hopen (h ▸ hdc), fun h => hclose (h ▸ hdc), ?_⟩
    rwa [List.mem_singleton.mp hdc]
  have hmem : ∀ d ∈ trim (folded t), d ∈ folded t := by
    intro d hd
    have hdrop := List.mem_reverse.mp hd
    have hleft := (List.dropWhile_sublist _).subset hdrop
    exact (List.dropWhile_sublist _).subset (List.mem_reverse.mp hleft)
  have hbrackets : trimBrackets (trim (folded t)) = trim (folded t) := by
    refine stripBoth_id fun d hd => ?_
    have := hno d (hmem d hd)
    simp [this.1, this.2.1]
  rw [folded, hbrackets]
  exact lower_id fun d hd => (hno d (hmem d hd)).2.2

/-- What was made a key twice is its own key. -/
theorem hostBanKey_twice (host : Text) :
    hostBanKey (hostBanKey (hostBanKey host)) = hostBanKey (hostBanKey host) := by
  rcases hostBanKey_cases host with hkey | ⟨-, hkey⟩
  · rw [hkey, hkey]
  · rw [hkey]
    rcases hostBanKey_cases (folded host) with hkey' | ⟨hparse, hkey'⟩
    · exact hkey'
    · have hfold : folded (folded (folded host)) = folded (folded host) := by
        rw [folded_folded (folded host), folded_folded host, trim_trim]
      rw [hkey']
      rw [hostBanKey_eq (folded (folded host)), hfold, hparse]

end AddressText
