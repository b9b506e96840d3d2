import Rfircd.BridgedOperators

/-! What a line of mode letters does, read letter by letter.
A control operator can bridge a channel and make operators; a line of anybody else leaves both
alone in a bridged channel. -/
namespace ModeLines

open Basics KeyedTable MessageText IrcMessage IrcState AirScreen ServerOutput ServerCore
open ServerCore.Server Bridge ServerInvariants StateConsistency StationRecords BridgedOperators
open ServerSteps hiding Entitled

variable {st : State} {s t : Server} {uid : UserId} {k : Text} {c d : Channel}
variable {given pending : UserId → Text → Prop}

/-! ### What a mode line of a control operator gives -/

/-- How far the line was read, for one user: whether the channel is bridged by then, and whether the
user was made an operator since it is. -/
structure Reading where
  adding : Bool
  argIndex : ℕ
  rf : Bool
  given : Bool

def Reading.letter (msg : Message) (names : Text → Bool) (x : Reading) (letter : Char) : Reading :=
  if letter = '+' then { x with adding := true }
  else if letter = '-' then { x with adding := false }
  else if letter = 'r' then
    -- what was given before the channel became bridged is void
    if x.rf = x.adding then x else { x with rf := x.adding, given := false }
  else if letter = 'o' then
    { x with
      argIndex := x.argIndex + 1
      given := if x.rf && (msg.param x.argIndex).any names then x.adding else x.given }
  else if letter = 'k' || letter = 'l' || letter = 'v' then { x with argIndex := x.argIndex + 1 }
  else x

theorem Reading.letter_rf (msg : Message) (names : Text → Bool) (x : Reading) (letter : Char) :
    (x.letter msg names letter).rf = if letter = 'r' then x.adding else x.rf := by
  unfold Reading.letter
  by_cases hr : letter = 'r'
  · subst hr
    rw [if_neg (by decide), if_neg (by decide), if_pos rfl, if_pos rfl]
    split_ifs with hsame
    · exact hsame
    · rfl
  · rw [if_neg hr, if_neg hr]
    split_ifs <;> rfl

theorem Reading.letter_given (msg : Message) (names : Text → Bool) (x : Reading) (letter : Char) :
    (x.letter msg names letter).given =
      if letter = 'r' then (if x.rf = x.adding then x.given else false)
      else if letter = 'o' then
        (if x.rf && (msg.param x.argIndex).any names then x.adding else x.given)
      else x.given := by
  unfold Reading.letter
  by_cases hr : letter = 'r'
  · subst hr
    rw [if_neg (by decide), if_neg (by decide), if_pos rfl, if_pos rfl]
    split_ifs <;> rfl
  · rw [if_neg hr, if_neg hr]
    by_cases ho : letter = 'o'
    · subst ho
      rw [if_neg (by decide), if_neg (by decide), if_pos rfl, if_pos rfl]
    · rw [if_neg ho, if_neg ho]
      split_ifs <;> rfl

/-! ### One letter of a mode line -/

/-- A mode that neither bridges the channel nor makes operators. -/
structure Plain (c d : Channel) : Prop where
  rf : d.rf = c.rf
  members : d.members = c.members
  operators : d.operators = c.operators

/-- What a letter does to the channels. -/
inductive Effect (c : ModeChange) (st : State) (l : ModeLine) (letter : Char) : State → Prop where
  | none : (letter = 'r' → c.oper = true → ∀ ch, st.channel c.chan.name = some ch →
        ch.rf = l.adding) →
      (letter = 'o' → c.oper = true → ∀ who uid ch, c.arg l = some who →
        findTarget st who = some uid → st.channel c.chan.name = some ch →
        ch.members.get uid = none) → Effect c st l letter st
  | plain {change : Channel → Channel} : letter ≠ 'r' → letter ≠ 'o' →
      (∀ ch, Plain ch (change ch)) →
      ((∀ ch, (change ch).moderated = ch.moderated) ∨ c.chan.rf = false ∨ c.oper = true) →
      Effect c st l letter (st.modifyChannel c.chan.name change)
  | bridge {ch : Channel} : letter = 'r' → c.oper = true → st.channel c.chan.name = some ch →
      ch.rf ≠ l.adding → Effect c st l letter (st.modifyChannel c.chan.name (bridged l.adding))
  | member {ch : Channel} {who : Text} {target : UserId} {flags : MemberFlags} :
      letter = 'o' ∨ letter = 'v' → (letter = 'o' → c.chan.rf = false ∨ c.oper = true) →
      c.arg l = some who → findTarget st who = some target → st.channel c.chan.name = some ch →
      ch.members.get target = some flags →
      Effect c st l letter (st.modifyChannel c.chan.name fun ch =>
        { ch with members := ch.members.set target (grantFlag flags letter l.adding) })

theorem Effect.nothing {cc : ModeChange} {l : ModeLine} {letter : Char} (hr : letter ≠ 'r')
    (ho : letter ≠ 'o') : Effect cc st l letter st :=
  .none (fun h => absurd h hr) fun h => absurd h ho

section
variable {cc : ModeChange} {l : ModeLine} {letter : Char}

theorem modeFlag_effect (s : Server) {get : Channel → Bool} {set : Channel → Channel}
    (hr : letter ≠ 'r') (ho : letter ≠ 'o') (hset : ∀ ch, Plain ch (set ch))
    (hmoderated : (∀ ch, (set ch).moderated = ch.moderated) ∨ cc.chan.rf = false ∨ cc.oper = true) :
    Effect cc s.state l letter (s.modeFlag cc l letter get set).1.state := by
  unfold modeFlag
  split_ifs
  · exact .plain hr ho hset hmoderated
  · exact .nothing hr ho

theorem modeBridge_effect (s : Server) :
    Effect cc s.state l 'r' (s.modeBridge cc l).1.state := by
  unfold modeBridge
  split_ifs with hoper
  · exact .none (fun _ h => by simp [h] at hoper) fun h => by cases h
  · have hoper' : cc.oper = true := by simpa using hoper
    split
    · rename_i hnone
      exact .none (fun _ _ ch hch => by rw [hnone] at hch; cases hch) fun h => by cases h
    · rename_i ch hch
      by_cases hsame : ch.rf = l.adding
      · rw [if_pos hsame]
        refine .none (fun _ _ d hd => ?_) fun h => by cases h
        rwa [← Option.some.inj (hch.symm.trans hd)]
      · rw [if_neg hsame]
        exact .bridge rfl hoper' hch hsame

theorem modeKey_effect (s : Server) : Effect cc s.state l 'k' (s.modeKey cc l).1.state := by
  unfold modeKey
  extract_lets key l'
  clear_value key
  split_ifs
  · split
    · exact .nothing (by decide) (by decide)
    · exact .nothing (by decide) (by decide)
    · split_ifs
      · exact .plain (by decide) (by decide) (fun _ => ⟨rfl, rfl, rfl⟩) (.inl fun _ => rfl)
      · exact .nothing (by decide) (by decide)
  · exact .plain (by decide) (by decide) (fun _ => ⟨rfl, rfl, rfl⟩) (.inl fun _ => rfl)
  · exact .nothing (by decide) (by decide)

theorem modeLimit_effect (s : Server) : Effect cc s.state l 'l' (s.modeLimit cc l).1.state := by
  unfold modeLimit
  extract_lets raw l'
  split_ifs
  · split
    · exact .nothing (by decide) (by decide)
    · split_ifs
      · exact .plain (by decide) (by decide) (fun _ => ⟨rfl, rfl, rfl⟩) (.inl fun _ => rfl)
      · exact .nothing (by decide) (by decide)
  · exact .plain (by decide) (by decide) (fun _ => ⟨rfl, rfl, rfl⟩) (.inl fun _ => rfl)
  · exact .nothing (by decide) (by decide)

theorem modeMember_effect (s : Server) (hletter : letter = 'o' ∨ letter = 'v') :
    Effect cc s.state l letter (s.modeMember cc l letter).1.state := by
  have hr : letter ≠ 'r' := by
    rcases hletter with rfl | rfl <;> decide
  unfold modeMember
  extract_lets who l'
  have hwho : cc.arg l = who := rfl
  clear_value who
  split_ifs with hdenied
  · simp only [Bool.and_eq_true, decide_eq_true_eq, Bool.not_eq_true'] at hdenied
    exact .none (fun h => absurd h hr) fun _ h => by simp [hdenied.2] at h
  · split
    · exact .none (fun h => absurd h hr) fun _ _ w uid ch hw _ _ => by
        rw [hwho] at hw
        cases hw
    · rename_i name
      split
      · rename_i hunknown
        refine .none (fun h => absurd h hr) fun _ _ w uid ch hw hfound _ => ?_
        obtain rfl := Option.some.inj (hwho.symm.trans hw)
        rw [hunknown] at hfound
        cases hfound
      · rename_i target htarget
        split
        · rename_i hout
          refine .none (fun h => absurd h hr) fun _ _ w uid ch hw hfound hch => ?_
          obtain rfl := Option.some.inj (hwho.symm.trans hw)
          obtain rfl := Option.some.inj (htarget.symm.trans hfound)
          rwa [hch] at hout
        · rename_i flags hflags
          obtain ⟨ch, hch, hmember⟩ := Option.bind_eq_some_iff.mp hflags
          refine .member hletter (fun ho => ?_) hwho htarget hch hmember
          simp only [ho, decide_true, Bool.true_and, Bool.and_eq_true, Bool.not_eq_true'] at hdenied
          cases hrf : cc.chan.rf with
          | false => exact .inl rfl
          | true => exact .inr (by simpa [hrf] using hdenied)

theorem modeChar_effect (s : Server) (cc : ModeChange) (l : ModeLine) (letter : Char) :
    Effect cc s.state l letter (s.modeChar cc l letter).1.state := by
  unfold modeChar
  split_ifs with hplus hminus hm hdenied ht hr hk hl hov
  · exact .nothing (by rw [hplus]; decide) (by rw [hplus]; decide)
  · exact .nothing (by rw [hminus]; decide) (by rw [hminus]; decide)
  · exact .nothing (by rw [hm]; decide) (by rw [hm]; decide)
  · subst hm
    refine modeFlag_effect s (by decide) (by decide) (fun _ => ⟨rfl, rfl, rfl⟩) (.inr ?_)
    simp only [Bool.and_eq_true, Bool.not_eq_true'] at hdenied
    cases hrf : cc.chan.rf with
    | false => exact .inl rfl
    | true => exact .inr (by simpa [hrf] using hdenied)
  · subst ht
    exact modeFlag_effect s (by decide) (by decide) (fun _ => ⟨rfl, rfl, rfl⟩) (.inl fun _ => rfl)
  · subst hr
    exact modeBridge_effect s
  · subst hk
    exact modeKey_effect s
  · subst hl
    exact modeLimit_effect s
  · exact modeMember_effect s (by simpa using hov)
  · have ho : letter ≠ 'o' := fun ho => hov (by simp [ho])
    exact .nothing hr ho

/-- So many arguments further, and nobody more to look at again. -/
structure Keeps (l l' : ModeLine) (n : ℕ) : Prop where
  adding : l'.adding = l.adding
  argIndex : l'.argIndex = l.argIndex + n
  refresh : l'.refresh = l.refresh
  applied : l'.applied = [] → l.applied = []

theorem Keeps.refl (l : ModeLine) : Keeps l l 0 := ⟨rfl, rfl, rfl, id⟩

theorem push_applied (l : ModeLine) (letter : Char) : (l.push letter).applied ≠ [] := by
  unfold ModeLine.push
  dsimp only
  split_ifs
  · simp
  · simp
  · simp
  · simp

theorem push_keeps (l : ModeLine) (letter : Char) : Keeps l (l.push letter) 0 :=
  ⟨rfl, rfl, rfl, fun h => absurd h (push_applied l letter)⟩

theorem Keeps.next {l' : ModeLine} (h : Keeps { l with argIndex := l.argIndex + 1 } l' 0) :
    Keeps l l' 1 := ⟨h.adding, h.argIndex, h.refresh, h.applied⟩

theorem modeFlag_keeps (s : Server) (get : Channel → Bool) (set : Channel → Channel) :
    Keeps l (s.modeFlag cc l letter get set).2 0 := by
  unfold modeFlag
  split_ifs
  · exact push_keeps ..
  · exact .refl l

theorem pushArg_keeps (l : ModeLine) (letter : Char) (arg : Text) :
    Keeps l (l.pushArg letter arg) 0 :=
  ⟨rfl, rfl, rfl, fun h => absurd h (push_applied l letter)⟩

theorem modeKey_keeps (s : Server) : Keeps l (s.modeKey cc l).2 1 := by
  unfold modeKey
  extract_lets key l'
  clear_value key
  apply Keeps.next
  split_ifs
  · split
    · exact .refl l'
    · exact .refl l'
    · split_ifs
      · exact pushArg_keeps ..
      · exact .refl l'
  · exact push_keeps ..
  · exact .refl l'

theorem modeLimit_keeps (s : Server) : Keeps l (s.modeLimit cc l).2 1 := by
  unfold modeLimit
  extract_lets raw l'
  apply Keeps.next
  split_ifs
  · split
    · exact .refl l'
    · split_ifs
      · exact pushArg_keeps ..
      · exact .refl l'
  · exact push_keeps ..
  · exact .refl l'

theorem modeMember_keeps (s : Server) : Keeps l (s.modeMember cc l letter).2 1 := by
  unfold modeMember
  extract_lets who l'
  clear_value who
  apply Keeps.next
  split_ifs
  · exact .refl l'
  · split
    · exact .refl l'
    · split
      · exact .refl l'
      · split
        · exact .refl l'
        · dsimp only
          split_ifs
          · exact .refl l'
          · exact pushArg_keeps ..

/-- A channel that becomes bridged, or is no longer, has all its members looked at again. -/
theorem modeBridge_line (s : Server) (hoper : cc.oper = true) {ch : Channel}
    (hch : s.state.channel cc.chan.name = some ch) :
    (ch.rf = l.adding → Keeps l (s.modeBridge cc l).2 0) ∧
      (ch.rf ≠ l.adding → (s.modeBridge cc l).2.adding = l.adding ∧
        (s.modeBridge cc l).2.argIndex = l.argIndex ∧ (s.modeBridge cc l).2.applied ≠ [] ∧
        (s.modeBridge cc l).2.refresh = ch.members.keys) := by
  unfold modeBridge
  rw [hoper, hch]
  dsimp only
  rw [if_neg (by simp)]
  constructor
  · intro hsame
    rw [if_pos hsame]
    exact .refl l
  · intro hdiffer
    rw [if_neg hdiffer]
    dsimp only
    split_ifs
    · exact ⟨rfl, rfl, push_applied _ _, rfl⟩
    · exact ⟨rfl, rfl, push_applied _ _, rfl⟩

/-- The reading is as far as the code is. -/
def Abreast (x : Reading) (l : ModeLine) : Prop := x.adding = l.adding ∧ x.argIndex = l.argIndex

theorem modeChar_line (s : Server) (hr : letter ≠ 'r') :
    (s.modeChar cc l letter).2.refresh = l.refresh ∧
      ((s.modeChar cc l letter).2.applied = [] → l.applied = []) ∧
      ∀ {x : Reading} (names : Text → Bool), Abreast x l →
        Abreast (x.letter cc.msg names letter) (s.modeChar cc l letter).2 := by
  have hkeeps : ∀ {l'}, Keeps l l' 0 → l'.refresh = l.refresh ∧ (l'.applied = [] → l.applied = []) ∧
      ∀ {x : Reading}, Abreast x l → Abreast x l' := by
    intro l' h
    exact ⟨h.refresh, h.applied, fun hx => ⟨hx.1.trans h.adding.symm, hx.2.trans h.argIndex.symm⟩⟩
  have hnext : ∀ {l'}, Keeps l l' 1 → l'.refresh = l.refresh ∧ (l'.applied = [] → l.applied = []) ∧
      ∀ {x : Reading} (given : Bool), Abreast x l →
        Abreast { x with argIndex := x.argIndex + 1, given := given } l' := by
    intro l' h
    refine ⟨h.refresh, h.applied, fun given hx => ⟨hx.1.trans h.adding.symm, ?_⟩⟩
    rw [h.argIndex, ← hx.2]
  unfold modeChar
  split_ifs with hplus hminus hm hdenied ht hk hl hov
  · subst hplus
    exact ⟨rfl, id, fun _ hx => ⟨rfl, hx.2⟩⟩
  · subst hminus
    exact ⟨rfl, id, fun _ hx => ⟨rfl, hx.2⟩⟩
  · subst hm
    exact ⟨rfl, id, fun _ hx => hx⟩
  · subst hm
    obtain ⟨hrefresh, happlied, hline⟩ := hkeeps (modeFlag_keeps s _ _)
    exact ⟨hrefresh, happlied, fun _ hx => hline hx⟩
  · subst ht
    obtain ⟨hrefresh, happlied, hline⟩ := hkeeps (modeFlag_keeps s _ _)
    exact ⟨hrefresh, happlied, fun _ hx => hline hx⟩
  · subst hk
    obtain ⟨hrefresh, happlied, hline⟩ := hnext (modeKey_keeps s)
    exact ⟨hrefresh, happlied, fun _ hx => hline _ hx⟩
  · subst hl
    obtain ⟨hrefresh, happlied, hline⟩ := hnext (modeLimit_keeps s)
    exact ⟨hrefresh, happlied, fun _ hx => hline _ hx⟩
  · obtain ⟨hrefresh, happlied, hline⟩ := hnext (modeMember_keeps s)
    refine ⟨hrefresh, happlied, fun _ hx => ?_⟩
    rcases (by simpa using hov : letter = 'o' ∨ letter = 'v') with rfl | rfl
    · exact hline _ hx
    · exact hline _ hx
  · refine ⟨rfl, id, fun names hx => ?_⟩
    have ho : letter ≠ 'o' := fun ho => hov (by simp [ho])
    have hv : letter ≠ 'v' := fun hv => hov (by simp [hv])
    simpa [Reading.letter, hplus, hminus, hr, ho, hk, hl, hv] using hx

/-! ### A mode line of a control operator -/

/-- Where the reading of a line is: what was given so far is on record, and who is to be looked at
again is listed. -/
structure Reads (st₀ : State) (given : UserId → Text → Prop) (cc : ModeChange)
    (x : UserId → Reading) (st : State) (l : ModeLine) : Prop where
  channel : ∃ ch, st.channel cc.chan.name = some ch ∧ ∀ uid, (x uid).rf = ch.rf
  abreast : ∀ uid, Abreast (x uid) l
  names : ∀ who, findTarget st who = findTarget st₀ who
  quiet : l.applied = [] → l.refresh = []
  governed : Governed
    (fun uid k => if k = lower cc.chan.name then (x uid).given = true else given uid k)
    (fun uid k => k = lower cc.chan.name ∧ uid ∈ l.refresh) st

/-- The names of one user. -/
def called (st : State) (uid : UserId) (who : Text) : Bool := decide (findTarget st who = some uid)

variable {st₀ : State} {x : UserId → Reading}

theorem findTarget_modifyChannel (st : State) (name : Text) (change : Channel → Channel) (who : Text) :
    findTarget (st.modifyChannel name change) who = findTarget st who := by
  unfold findTarget State.byNick
  rw [State.nicks_modifyChannel, State.users_modifyChannel]

theorem Reading.bridge_abreast {names : Text → Bool} {msg : Message} {y : Reading} (h : Abreast y l) :
    (y.letter msg names 'r').adding = l.adding ∧ (y.letter msg names 'r').argIndex = l.argIndex := by
  unfold Reading.letter
  rw [if_neg (by decide), if_neg (by decide), if_pos rfl]
  split_ifs
  · exact h
  · exact h

theorem bridged_rf (adding : Bool) (ch : Channel) : (bridged adding ch).rf = adding := by
  cases adding <;> rfl

/-- Who is in a channel that becomes bridged is looked at again, and has nothing by hand. -/
theorem bridged_governedIn {given pending : UserId → Prop} {adding : Bool} {ch : Channel}
    (h : ∀ uid ∈ ch.members.keys, pending uid) :
    GovernedIn given pending st (bridged adding ch) := by
  intro hrf uid f hf
  rw [bridged_rf] at hrf
  subst hrf
  have hmembers : (bridged true ch).members =
      ch.members.filterMap fun _ g => some { g with opManual := false } := rfl
  rw [hmembers, Table.get_filterMap] at hf
  obtain ⟨g, hg, hfg⟩ := Option.bind_eq_some_iff.mp hf
  have hmember : uid ∈ ch.members.keys := by
    rw [Table.mem_keys_iff, hg]
    rfl
  refine ⟨fun _ => .inr (.inl (h uid hmember)), fun hhand => ?_⟩
  rw [← Option.some.inj hfg] at hhand
  cases hhand

theorem Reads.bridge (hoper : cc.oper = true) (h : Reads st₀ given cc x s.state l) :
    Reads st₀ given cc (fun uid => (x uid).letter cc.msg (called st₀ uid) 'r')
      (s.modeBridge cc l).1.state (s.modeBridge cc l).2 := by
  obtain ⟨ch, hch, hrf⟩ := h.channel
  obtain ⟨-, hdiffer⟩ := modeBridge_line (l := l) s hoper hch
  by_cases hsame : ch.rf = l.adding
  · have hstay : s.modeBridge cc l = (s, l) := by
      unfold modeBridge
      rw [hoper, hch]
      dsimp only
      rw [if_neg (by simp), if_pos hsame]
    have hreading : (fun uid => (x uid).letter cc.msg (called st₀ uid) 'r') = x := by
      funext uid
      have hx : (x uid).rf = (x uid).adding := (hrf uid).trans (hsame.trans (h.abreast uid).1.symm)
      unfold Reading.letter
      rw [if_neg (by decide), if_neg (by decide), if_pos rfl, if_pos hx]
    rw [hstay, hreading]
    exact h
  · obtain ⟨hadding, hindex, happlied, hrefresh⟩ := hdiffer hsame
    have hstate : (s.modeBridge cc l).1.state =
        s.state.modifyChannel cc.chan.name (bridged l.adding) := by
      unfold modeBridge
      rw [hoper, hch]
      dsimp only
      rw [if_neg (by simp), if_neg hsame]
      rfl
    rw [hstate]
    refine ⟨⟨bridged l.adding ch, ?_, fun uid => ?_⟩, fun uid => ?_, fun who => ?_, fun heq => ?_, ?_⟩
    · rw [State.channel, State.channel_modifyChannel, if_pos rfl, hch]
      rfl
    · rw [Reading.letter_rf, if_pos rfl, bridged_rf]
      exact (h.abreast uid).1
    · have hread : ((x uid).letter cc.msg (called st₀ uid) 'r').adding = l.adding ∧
          ((x uid).letter cc.msg (called st₀ uid) 'r').argIndex = l.argIndex :=
        Reading.bridge_abreast (h.abreast uid)
      exact ⟨hread.1.trans hadding.symm, hread.2.trans hindex.symm⟩
    · rw [findTarget_modifyChannel]
      exact h.names who
    · exact absurd heq happlied
    · refine h.governed.modifyChannel hch (fun uid k hk => ?_) (bridged_governedIn fun uid huid => ?_)
      · rw [if_neg hk, if_neg hk]
        exact ⟨id, fun hpending => absurd hpending.1 hk⟩
      · exact ⟨rfl, hrefresh ▸ huid⟩

theorem Reading.letter_unnamed {names : Text → Bool} {msg : Message} {y : Reading} (hr : letter ≠ 'r')
    (h : letter = 'o' → (msg.param y.argIndex).any names = false) :
    (y.letter msg names letter).given = y.given := by
  rw [Reading.letter_given, if_neg hr]
  split_ifs with ho hnamed
  · rw [h ho, Bool.and_false] at hnamed
    cases hnamed
  · rfl
  · rfl

/-- Everything stays that is of account, and the reading of whoever is in the channel. -/
theorem Reads.keep {x' : UserId → Reading} {st : State} {l l' : ModeLine}
    (h : Reads st₀ given cc x st l) (hrefresh : l'.refresh = l.refresh)
    (hgiven : ∀ ch, st.channel cc.chan.name = some ch → ∀ uid f, ch.members.get uid = some f →
      (x' uid).given = (x uid).given) :
    Governed (fun uid k => if k = lower cc.chan.name then (x' uid).given = true else given uid k)
      (fun uid k => k = lower cc.chan.name ∧ uid ∈ l'.refresh) st := by
  intro k c uid f hc hrf hf
  obtain ⟨hop, hmanual⟩ := h.governed k c uid f hc hrf hf
  rw [hrefresh]
  refine ⟨hop, fun hhand => ?_⟩
  obtain ⟨hopped, hgave⟩ := hmanual hhand
  refine ⟨hopped, ?_⟩
  dsimp only at hgave ⊢
  split_ifs at hgave ⊢ with hk
  · subst hk
    rw [hgiven c hc uid f hf]
    exact hgave
  · exact hgave

theorem Reads.modeChar (hoper : cc.oper = true) (h : Reads st₀ given cc x s.state l) (letter : Char) :
    Reads st₀ given cc (fun uid => (x uid).letter cc.msg (called st₀ uid) letter)
      (s.modeChar cc l letter).1.state (s.modeChar cc l letter).2 := by
  by_cases hr : letter = 'r'
  · subst hr
    exact h.bridge hoper
  · obtain ⟨hrefresh, happlied, habreast⟩ := modeChar_line (l := l) s hr
    obtain ⟨ch, hch, hrf⟩ := h.channel
    have hbridged : ∀ uid, ((x uid).letter cc.msg (called st₀ uid) letter).rf = ch.rf := by
      intro uid
      rw [Reading.letter_rf, if_neg hr, hrf]
    have hline : ∀ uid, Abreast ((x uid).letter cc.msg (called st₀ uid) letter)
        (s.modeChar cc l letter).2 := fun uid => habreast _ (h.abreast uid)
    have hquiet : (s.modeChar cc l letter).2.applied = [] → (s.modeChar cc l letter).2.refresh = [] :=
      fun heq => hrefresh.trans (h.quiet (happlied heq))
    -- the argument is the one that the code looks at
    have harg : ∀ uid, cc.msg.param (x uid).argIndex = cc.arg l := by
      intro uid
      rw [(h.abreast uid).2]
      rfl
    have heffect := modeChar_effect s cc l letter
    generalize (s.modeChar cc l letter).1.state = st' at heffect ⊢
    cases heffect with
    | none _ hout =>
      refine ⟨⟨ch, hch, hbridged⟩, hline, h.names, hquiet, h.keep hrefresh ?_⟩
      intro d hd uid f hf
      refine Reading.letter_unnamed hr fun ho => ?_
      rw [harg]
      by_contra hnamed
      obtain ⟨who, hwho, hcalled⟩ := (Option.any_eq_true _ _).mp (by simpa using hnamed)
      have hfound : findTarget s.state who = some uid := (h.names who).trans (by simpa [called] using hcalled)
      have hgone := hout ho hoper who uid d hwho hfound hd
      rw [hgone] at hf
      cases hf
    | @plain change _ ho hplain _ =>
      have hgiven : ∀ uid, ((x uid).letter cc.msg (called st₀ uid) letter).given = (x uid).given :=
        fun uid => Reading.letter_unnamed hr fun heq => absurd heq ho
      have hkeep := h.keep hrefresh fun _ _ uid _ _ => hgiven uid
      have hp := hplain ch
      refine ⟨⟨change ch, ?_, fun uid => (hbridged uid).trans hp.rf.symm⟩, hline, fun who => ?_, hquiet,
        hkeep.modifyChannel hch (fun uid k _ => ⟨id, id⟩) fun hchange uid f hf => ?_⟩
      · rw [State.channel, State.channel_modifyChannel, if_pos rfl, hch]
        rfl
      · rw [findTarget_modifyChannel]
        exact h.names who
      · rw [hp.members] at hf
        rw [hp.operators]
        exact hkeep _ ch uid f hch (hp.rf ▸ hchange) hf
    | bridge heq _ _ _ => exact absurd heq hr
    | @member d who target flags hletter _ hwho hfound hd hflags =>
      obtain rfl := Option.some.inj (hd.symm.trans hch)
      have hothers : ∀ uid, uid ≠ target →
          ((x uid).letter cc.msg (called st₀ uid) letter).given = (x uid).given := by
        intro uid hne
        refine Reading.letter_unnamed hr fun _ => ?_
        rw [harg, hwho, Option.any_some, called, ← h.names, hfound]
        simpa using fun heq => hne heq.symm
      refine ⟨⟨{ d with members := d.members.set target (grantFlag flags letter l.adding) }, ?_, hbridged⟩,
        hline, fun who => ?_, hquiet,
        h.governed.modifyChannel hch (fun uid k hk => ?_) fun hchange uid f hf => ?_⟩
      · rw [State.channel, State.channel_modifyChannel, if_pos rfl, hch]
        rfl
      · rw [findTarget_modifyChannel]
        exact h.names who
      · rw [if_neg hk, if_neg hk]
        exact ⟨id, fun hpending => absurd hpending.1 hk⟩
      · have hon : d.rf = true := hchange
        rw [Table.get_set] at hf
        dsimp only
        rw [if_pos rfl, hrefresh]
        split_ifs at hf with huid
        · subst huid
          obtain rfl := Option.some.inj hf
          rcases hletter with rfl | rfl
          · refine ⟨fun hadding => .inl hadding, fun hadding => ⟨hadding, ?_⟩⟩
            have hnamed : (cc.msg.param (x uid).argIndex).any (called st₀ uid) = true := by
              rw [harg, hwho, Option.any_some, called, ← h.names, hfound]
              simp
            rw [Reading.letter_given, if_neg hr, if_pos rfl, hrf uid, hon, hnamed]
            exact (h.abreast uid).1.trans hadding
          · obtain ⟨hop, hmanual⟩ := h.governed _ d uid flags hch hon hflags
            rw [Reading.letter_unnamed hr fun heq => absurd heq (by decide)]
            dsimp only at hmanual
            rw [if_pos rfl] at hmanual
            exact ⟨hop, hmanual⟩
        · obtain ⟨hop, hmanual⟩ := h.governed _ d uid f hch hon hf
          rw [hothers uid huid]
          dsimp only at hmanual
          rw [if_pos rfl] at hmanual
          exact ⟨hop, hmanual⟩

/-- A line is read to its end. The induction is on its letters. -/
theorem Reads.letters (hoper : cc.oper = true) (changes : Text) {e : Server × ModeLine}
    (h : Reads st₀ given cc x e.1.state e.2) :
    Reads st₀ given cc
      (fun uid => changes.foldl (Reading.letter cc.msg (called st₀ uid)) (x uid))
      (changes.foldl (fun (e : Server × ModeLine) letter => e.1.modeChar cc e.2 letter) e).1.state
      (changes.foldl (fun (e : Server × ModeLine) letter => e.1.modeChar cc e.2 letter) e).2 := by
  induction changes generalizing e x with
  | nil => exact h
  | cons letter changes ih => exact ih (h.modeChar hoper letter)

end

theorem refreshAll_governed (m : Moment) (members : List UserId) (hs : Grounded s)
    (hl : Linked s.state)
    (h : Governed given (fun uid k => pending uid k ∨ uid ∈ members) s.state) :
    Governed given pending
      (members.foldl (fun s member => s.refreshPrivileges m member) s).state := by
  induction members generalizing s with
  | nil => exact h.mono (fun _ _ h => h) fun uid k hk => hk.resolve_right List.not_mem_nil
  | cons member members ih =>
    have hsteps : Steps anything s (s.refreshPrivileges m member) := refreshPrivileges_steps ..
    have hrecompute : Steps calm s (recompute s member) := .single .recompute
    refine ih (steps_grounded hsteps hs) (steps_linked hsteps hs.standing hl) ?_
    refine refreshPrivileges_governed m (steps_standing hrecompute hs.standing)
      (steps_linked hrecompute hs.standing hl) (steps_named hrecompute hs.named) ?_
    refine calm_governed hrecompute hs.standing hl (h.mono (fun _ _ h => h) fun uid k hk => ?_)
    rcases hk with hk | hk
    · exact .inl (.inl hk)
    · exact (List.mem_cons.mp hk).symm.imp .inr id

/-- The specification of a mode line of a control operator. -/
theorem changeModes_governed (m : Moment) {cc : ModeChange} {held : UserId → Bool} (changes : Text)
    (hoper : cc.oper = true) (hs : Grounded s) (hl : Linked s.state)
    (hch : s.state.channel cc.chan.name = some cc.chan)
    (hheld : ∀ uid, given uid (lower cc.chan.name) → held uid = true)
    (h : Governed given (fun _ _ => False) s.state) :
    Governed (fun uid k => if k = lower cc.chan.name then
        (changes.foldl (Reading.letter cc.msg (called s.state uid))
          ⟨true, 2, cc.chan.rf, held uid⟩).given = true else given uid k)
      (fun _ _ => False) (s.changeModes m cc changes).state := by
  have hstart : Reads s.state given cc (fun uid => ⟨true, 2, cc.chan.rf, held uid⟩) s.state .start := by
    refine ⟨⟨cc.chan, hch, fun _ => rfl⟩, fun _ => ⟨rfl, rfl⟩, fun _ => rfl, fun _ => rfl,
      h.mono (fun uid k hk => ?_) fun _ _ h => h.elim⟩
    split_ifs with hkey
    · subst hkey
      exact hheld uid hk
    · exact hk
  have hread := Reads.letters (e := (s, .start)) hoper changes hstart
  have hsteps : Steps anything s _ := letters_steps trivial cc changes (s, .start)
  unfold changeModes
  generalize changes.foldl (fun (e : Server × ModeLine) letter => e.1.modeChar cc e.2 letter)
    (s, .start) = e at hread hsteps
  obtain ⟨t, l⟩ := e
  dsimp only at hread hsteps ⊢
  split_ifs with happlied
  · refine hread.governed.mono (fun _ _ h => h) fun uid k hk => ?_
    rw [hread.quiet happlied] at hk
    exact absurd hk.2 List.not_mem_nil
  · have htold := hsteps.trans (announceMode_steps t cc.chan.name
      ((t.user cc.uid).elim [] User.nickMask) l.applied l.args)
    refine refreshAll_governed m l.refresh (steps_grounded htold hs)
      (steps_linked htold hs.standing hl) ?_
    exact hread.governed.mono (fun _ _ h => h) fun _ _ h => .inr h.2

/-! ### A mode line of anybody else -/

/-- Nothing that decides what is bridged, and who is operator there, has changed. -/
structure Minor (c d : Channel) : Prop where
  rf : d.rf = c.rf
  operators : d.operators = c.operators
  moderated : c.rf = true → d.moderated = c.moderated
  members : c.rf = true → ∀ uid, (d.members.get uid).map (fun f => (f.op, f.opManual)) =
    (c.members.get uid).map fun f => (f.op, f.opManual)

theorem Minor.refl (c : Channel) : Minor c c := ⟨rfl, rfl, fun _ => rfl, fun _ _ => rfl⟩

theorem Minor.trans {e : Channel} (h : Minor c d) (h' : Minor d e) : Minor c e where
  rf := h'.rf.trans h.rf
  operators := h'.operators.trans h.operators
  moderated hrf := (h'.moderated (h.rf.trans hrf)).trans (h.moderated hrf)
  members hrf uid := (h'.members (h.rf.trans hrf) uid).trans (h.members hrf uid)

structure MinorState (st st' : State) : Prop where
  users : st'.users = st.users
  absent : ∀ k, st.channels.get k = none → st'.channels.get k = none
  channels : ∀ k c, st.channels.get k = some c → ∃ d, st'.channels.get k = some d ∧ Minor c d

theorem MinorState.refl (st : State) : MinorState st st :=
  ⟨rfl, fun _ h => h, fun _ c h => ⟨c, h, .refl c⟩⟩

theorem MinorState.trans {st' st'' : State} (h : MinorState st st') (h' : MinorState st' st'') :
    MinorState st st'' where
  users := h'.users.trans h.users
  absent k hk := h'.absent k (h.absent k hk)
  channels k c hc := by
    obtain ⟨d, hd, hminor⟩ := h.channels k c hc
    obtain ⟨e, he, hminor'⟩ := h'.channels k d hd
    exact ⟨e, he, hminor.trans hminor'⟩

theorem minor_modifyChannel {name : Text} {change : Channel → Channel}
    (h : ∀ c, st.channel name = some c → Minor c (change c)) :
    MinorState st (st.modifyChannel name change) := by
  refine ⟨State.users_modifyChannel .., fun k hk => ?_, fun k c hc => ?_⟩
  · rw [State.channel_modifyChannel]
    split_ifs with heq
    · subst heq
      rw [State.channel, hk]
      rfl
    · exact hk
  · rw [State.channel_modifyChannel]
    split_ifs with heq
    · subst heq
      have hc' : st.channel name = some c := hc
      exact ⟨change c, by rw [hc']; rfl, h c hc'⟩
    · exact ⟨c, hc, .refl c⟩

theorem Effect.minor {cc : ModeChange} {l : ModeLine} {letter : Char} {st' : State}
    (h : Effect cc st l letter st') (hoper : cc.oper = false)
    (hrf : ∀ c, st.channel cc.chan.name = some c → c.rf = cc.chan.rf) : MinorState st st' := by
  cases h with
  | none _ _ => exact .refl st
  | plain _ _ hplain hmoderated =>
    apply minor_modifyChannel
    intro c hc
    have hp := hplain c
    refine ⟨hp.rf, hp.operators, fun hon => ?_, fun _ uid => by rw [hp.members]⟩
    rcases hmoderated with hsame | hlocal | hby
    · exact hsame c
    · rw [hrf c hc, hlocal] at hon
      cases hon
    · rw [hoper] at hby
      cases hby
  | bridge _ hby _ _ =>
    rw [hoper] at hby
    cases hby
  | @member ch who target flags hletter hallowed _ _ hch hflags =>
    apply minor_modifyChannel
    intro c hc
    obtain rfl := Option.some.inj (hch.symm.trans hc)
    refine ⟨rfl, rfl, fun _ => rfl, fun hon uid => ?_⟩
    rw [Table.get_set]
    split_ifs with huid
    · subst huid
      rw [hflags]
      rcases hletter with rfl | rfl
      · rcases hallowed rfl with hlocal | hby
        · rw [hrf _ hc, hlocal] at hon
          cases hon
        · rw [hoper] at hby
          cases hby
      · rfl
    · rfl

theorem modeChar_refresh (s : Server) {cc : ModeChange} (l : ModeLine) (letter : Char)
    (hoper : cc.oper = false) : (s.modeChar cc l letter).2.refresh = l.refresh := by
  by_cases hr : letter = 'r'
  · subst hr
    have hbridge : s.modeChar cc l 'r' = s.modeBridge cc l := rfl
    rw [hbridge, modeBridge, hoper]
    rfl
  · exact (modeChar_line s hr).1

/-- The letters are read with the channel as it was; while none of them bridges it, that is right. -/
theorem letters_minor {cc : ModeChange} (hoper : cc.oper = false) (changes : Text)
    {e : Server × ModeLine}
    (hrf : ∀ c, e.1.state.channel cc.chan.name = some c → c.rf = cc.chan.rf) :
    MinorState e.1.state
        (changes.foldl (fun (e : Server × ModeLine) letter => e.1.modeChar cc e.2 letter) e).1.state ∧
      (changes.foldl (fun (e : Server × ModeLine) letter => e.1.modeChar cc e.2 letter) e).2.refresh =
        e.2.refresh := by
  induction changes generalizing e with
  | nil => exact ⟨.refl _, rfl⟩
  | cons letter changes ih =>
    have hminor := (modeChar_effect e.1 cc e.2 letter).minor hoper hrf
    obtain ⟨hrest, hrefresh⟩ := ih (e := e.1.modeChar cc e.2 letter) fun d hd => by
      cases hc : e.1.state.channel cc.chan.name with
      | none =>
        have hnone := hminor.absent _ hc
        exact absurd (hnone.symm.trans hd) (by simp)
      | some c =>
        obtain ⟨d', hd', hsame⟩ := hminor.channels _ c hc
        obtain rfl := Option.some.inj (hd'.symm.trans hd)
        exact hsame.rf.trans (hrf c hc)
    exact ⟨hminor.trans hrest, hrefresh.trans (modeChar_refresh e.1 e.2 letter hoper)⟩

theorem changeModes_minor (m : Moment) {cc : ModeChange} (changes : Text) (hoper : cc.oper = false)
    (hch : s.state.channel cc.chan.name = some cc.chan) :
    MinorState s.state (s.changeModes m cc changes).state := by
  obtain ⟨hminor, hrefresh⟩ := letters_minor (e := (s, .start)) hoper changes fun c hc => by
    rw [Option.some.inj (hc.symm.trans hch)]
  unfold changeModes
  generalize changes.foldl (fun (e : Server × ModeLine) letter => e.1.modeChar cc e.2 letter)
    (s, .start) = e at hminor hrefresh
  obtain ⟨t, l⟩ := e
  have hnobody : l.refresh = [] := hrefresh
  dsimp only at hminor ⊢
  split_ifs
  · exact hminor
  · rw [hnobody]
    exact hminor

end ModeLines
