import Rfircd.CallsignTexts
import Rfircd.ServerAccess

/-! The nick of a station is kept free for it, however it is spelled. -/
namespace ReservedNicks

open Basics MessageText IrcMessage IrcState ServerOutput ServerCore RadioGateway Ax25Codec TextPieces
  CallsignTexts

variable {call other : Callsign} {nick t base digits : Text} {c : Char}

/-! ### Letters -/

theorem alnum_of_lower (h : ∀ d ∈ lower [c], isAsciiAlphanumeric d = true) :
    isAsciiAlphanumeric c = true := by
  by_cases hc : c.toNat < 128
  · refine forall_ascii (P := fun c => (∀ d ∈ lower [c], isAsciiAlphanumeric d = true) →
      isAsciiAlphanumeric c = true) ?_ c hc h
    decide +kernel
  · rw [lower_kept (not_lt.mp hc)] at h
    exact h c List.mem_cons_self

theorem upper_lower (h : isAsciiAlphanumeric c = true) :
    ∀ d ∈ lower [c], isAsciiAlphanumeric d = true ∧ toAsciiUpper d = toAsciiUpper c := by
  refine forall_ascii (P := fun c => isAsciiAlphanumeric c = true →
    ∀ d ∈ lower [c], isAsciiAlphanumeric d = true ∧ toAsciiUpper d = toAsciiUpper c) ?_ c
    (alphanumeric_ascii h) h
  decide +kernel

/-- A digit has one spelling. -/
theorem digit_spelling (h : isAsciiAlphanumeric c = true) (hd : isAsciiDigit (toAsciiUpper c) = true) :
    toAsciiUpper c = c := by
  refine forall_ascii (P := fun c => isAsciiAlphanumeric c = true →
    isAsciiDigit (toAsciiUpper c) = true → toAsciiUpper c = c) ?_ c (alphanumeric_ascii h) h hd
  decide +kernel

/-- Folding identifies the separator of a nick with the backslash, and the dash with nothing else. -/
theorem separator_spelling {s : Char} :
    (lower [s] = lower ['|'] → s = '|' ∨ s = '\\') ∧ (lower [s] = lower ['-'] → s = '-') := by
  by_cases hs : s.toNat < 128
  · refine forall_ascii (P := fun s => (lower [s] = lower ['|'] → s = '|' ∨ s = '\\') ∧
      (lower [s] = lower ['-'] → s = '-')) ?_ s hs
    decide +kernel
  · rw [lower_kept (not_lt.mp hs)]
    constructor
    · intro h
      obtain rfl : s = '|' := (List.cons.inj h).1
      exact absurd (by decide) hs
    · intro h
      obtain rfl : s = '-' := (List.cons.inj h).1
      exact absurd (by decide) hs

/-! ### Words -/

/-- A word of letters and digits that is the same in capitals. -/
structure Spells (t base : Text) : Prop where
  alnum : ∀ c ∈ t, isAsciiAlphanumeric c = true
  capitals : t.map toAsciiUpper = base

theorem lower_alike {s : Char} {u : Text} (h : lower (s :: t) = lower (c :: u)) :
    lower [s] = lower [c] ∧ lower t = lower u := by
  obtain ⟨hhead, htail⟩ := List.cons.inj h
  exact ⟨congrArg (fun d => [d]) hhead, htail⟩

theorem spells_of_alike (hbase : ∀ c ∈ base, plain c = true) (h : lower t = lower base) :
    Spells t base := by
  induction base generalizing t with
  | nil =>
    obtain rfl : t = [] := List.map_eq_nil_iff.mp h
    exact ⟨fun c hc => absurd hc List.not_mem_nil, rfl⟩
  | cons x base ih =>
    obtain ⟨hx, hrest⟩ := List.forall_mem_cons.mp hbase
    cases t with
    | nil => cases h
    | cons c t =>
      obtain ⟨hhead, htail⟩ := lower_alike h
      obtain ⟨hword, hcapitals⟩ := ih hrest htail
      obtain ⟨halnum, hupper, -⟩ := plain_spec hx
      have hfolded := upper_lower halnum
      rw [← hhead] at hfolded
      have hc : isAsciiAlphanumeric c = true := alnum_of_lower fun d hd => (hfolded d hd).1
      -- both fold to one letter, which has one capital
      obtain ⟨d, hd⟩ : ∃ d, lower [c] = [d] := ⟨_, rfl⟩
      have hmem : d ∈ lower [c] := hd ▸ List.mem_cons_self
      have hsame : toAsciiUpper c = x :=
        ((upper_lower hc d hmem).2.symm.trans (hfolded d hmem).2).trans hupper
      refine ⟨List.forall_mem_cons.mpr ⟨hc, hword⟩, ?_⟩
      rw [List.map_cons, hsame, hcapitals]

theorem Spells.lower (h : Spells t base) : Spells (lower t) base := by
  obtain ⟨halnum, rfl⟩ := h
  induction t with
  | nil => exact ⟨fun c hc => absurd hc List.not_mem_nil, rfl⟩
  | cons c t ih =>
    obtain ⟨hc, hrest⟩ := List.forall_mem_cons.mp halnum
    obtain ⟨hword, hcapitals⟩ := ih hrest
    obtain ⟨d, hd⟩ : ∃ d, MessageText.lower [c] = [d] := ⟨_, rfl⟩
    obtain ⟨hfolded, hupper⟩ := upper_lower hc d (hd ▸ List.mem_cons_self)
    rw [lower_cons, hd]
    refine ⟨List.forall_mem_cons.mpr ⟨hfolded, hword⟩, ?_⟩
    rw [List.singleton_append, List.map_cons, List.map_cons, hupper, hcapitals]

theorem Spells.eq_of_digits (h : Spells t digits) (hdigits : ∀ c ∈ digits, isAsciiDigit c = true) :
    t = digits := by
  obtain ⟨halnum, rfl⟩ := h
  refine (List.map_id t).symm.trans (List.map_congr_left fun c hc => ?_)
  exact (digit_spelling (halnum c hc) (hdigits _ (List.mem_map_of_mem hc))).symm

theorem Spells.not_mem (h : Spells t base) (hc : isAsciiAlphanumeric c = false) : c ∉ t := by
  intro hmem
  rw [h.alnum c hmem] at hc
  cases hc

theorem Spells.new (h : Spells t call.base.toList) (hcall : Valid call) :
    Callsign.new t call.ssid = some call := by
  obtain ⟨halnum, hcapitals⟩ := h
  have hlength : t.length = call.base.toList.length := by rw [← hcapitals, List.length_map]
  have hne : t ≠ [] := by
    rintro rfl
    exact hcall.nonempty hcapitals.symm
  rw [new_of_alphanumeric hne (hlength.trans_le hcall.length) halnum hcall.ssid, hcapitals,
    String.ofList_toList]

/-- No callsign has a separator in it. -/
theorem new_of_odd (hvisible : ∀ c ∈ t, isWhitespace c = false) (hc : c ∈ t)
    (hodd : isAsciiAlphanumeric (toAsciiUpper c) = false) (n : ℕ) : Callsign.new t n = none := by
  have hall : ¬ ((t.map toAsciiUpper).all isAsciiAlphanumeric = true) := by
    intro hall
    rw [List.all_eq_true.mp hall _ (List.mem_map_of_mem hc)] at hodd
    cases hodd
  unfold Callsign.new
  rw [trim_of_visible hvisible]
  exact if_pos (.inr (.inr (.inl hall)))

/-! ### A word, a separator and a number -/

/-- The parts of what folds to a word with a number. -/
theorem alike_parts {s : Char} (h : lower nick = lower (base ++ s :: digits)) :
    ∃ b c d, nick = b ++ c :: d ∧ lower b = lower base ∧ lower [c] = lower [s] ∧
      lower d = lower digits := by
  induction base generalizing nick with
  | nil =>
    cases nick with
    | nil => cases h
    | cons c d =>
      obtain ⟨hc, hd⟩ := lower_alike h
      exact ⟨[], c, d, rfl, rfl, hc, hd⟩
  | cons x base ih =>
    cases nick with
    | nil => cases h
    | cons y nick =>
      obtain ⟨hy, hrest⟩ := lower_alike h
      obtain ⟨b, c, d, rfl, hb, hc, hd⟩ := ih hrest
      refine ⟨y :: b, c, d, rfl, ?_, hc, hd⟩
      rw [lower_cons, hy, hb, ← lower_cons]

/-- What looks like a callsign with a number: the callsign in some letter case, and the number. -/
theorem numbered_parts {s : Char} (hcall : Valid call)
    (h : lower nick = lower (call.base.toList ++ s :: (toString call.ssid).toList)) :
    ∃ b c, nick = b ++ c :: (toString call.ssid).toList ∧ Spells b call.base.toList ∧
      lower [c] = lower [s] := by
  have hdigits := (ssid_digits call.ssid hcall.ssid).1
  obtain ⟨b, c, d, rfl, hb, hc, hd⟩ := alike_parts h
  have hnumber : Spells d (toString call.ssid).toList := by
    refine spells_of_alike (fun x hx => ?_) hd
    rw [plain, hdigits x hx]
    rfl
  rw [hnumber.eq_of_digits hdigits]
  exact ⟨b, c, rfl, spells_of_alike hcall.chars hb, hc⟩

theorem numbered_visible (hcall : Valid call) (h : Spells t call.base.toList)
    (hc : isWhitespace c = false) :
    ∀ x ∈ t ++ c :: (toString call.ssid).toList, isWhitespace x = false := by
  intro x hx
  rcases List.mem_append.mp hx with hx | hx
  · exact (alphanumeric_spec (h.alnum x hx)).1
  · rcases List.mem_cons.mp hx with rfl | hx
    · exact hc
    · have hdigit := (ssid_digits call.ssid hcall.ssid).1 x hx
      refine (alphanumeric_spec (c := x) ?_).1
      rw [isAsciiAlphanumeric, hdigit]
      rfl

/-- A nick without the separator of nicks is read whole. -/
theorem fromNick_odd (hcall : Valid call) (h : Spells t call.base.toList) (hbar : c ≠ '|')
    (hc : isWhitespace c = false) (hodd : isAsciiAlphanumeric (toAsciiUpper c) = false) :
    Callsign.fromNick (t ++ c :: (toString call.ssid).toList) = none := by
  have hno : '|' ∉ t ++ c :: (toString call.ssid).toList := by
    rw [List.mem_append, List.mem_cons]
    rintro (hmem | hmem | hmem)
    · exact h.not_mem (by decide) hmem
    · exact hbar hmem.symm
    · exact absurd ((ssid_digits call.ssid hcall.ssid).1 _ hmem) (by decide)
  rw [Callsign.fromNick, splitOnce_of_not_mem hno]
  exact new_of_odd (numbered_visible hcall h hc)
    (List.mem_append_right t List.mem_cons_self) hodd 0

theorem fromNick_bar (hcall : Valid call) (h : Spells t call.base.toList) :
    Callsign.fromNick (t ++ '|' :: (toString call.ssid).toList) = some call := by
  rw [Callsign.fromNick, splitOnce_append (h.not_mem (by decide))]
  dsimp only
  rw [parseU8_ssid call.ssid hcall.ssid]
  exact h.new hcall

theorem fromStr_dash (hcall : Valid call) (h : Spells t call.base.toList) :
    Callsign.fromStr (t ++ '-' :: (toString call.ssid).toList) = some call := by
  rw [Callsign.fromStr, splitOnce_append (h.not_mem (by decide))]
  dsimp only
  rw [parseU8_ssid call.ssid hcall.ssid]
  exact h.new hcall

theorem fromNick_word (hcall : Valid call) (h : Spells t call.base.toList) (hzero : call.ssid = 0) :
    Callsign.fromNick t = some call := by
  have hnew := h.new hcall
  rw [hzero] at hnew
  rw [Callsign.fromNick, splitOnce_of_not_mem (h.not_mem (by decide))]
  exact hnew

/-! ### Whom a nick is kept for -/

/-- What folds to the nick or to the text of a callsign. -/
def Alias (call : Callsign) (nick : Text) : Prop :=
  lower nick = lower (Callsign.toNick call) ∨ lower nick = lower (callText call)

/-- The nick is looked at as it is, folded, and as the text of a callsign. -/
theorem reserved_of_first (hlooks : Callsign.looksLikeAmateurCall call = true)
    (h : Callsign.fromNick nick = some call) : reservedFromNick nick = some call := by
  simp [reservedFromNick, h, hlooks]

theorem reserved_of_second (hlooks : Callsign.looksLikeAmateurCall call = true)
    (hfirst : Callsign.fromNick nick = none) (h : Callsign.fromNick (lower nick) = some call) :
    reservedFromNick nick = some call := by
  simp [reservedFromNick, hfirst, h, hlooks]

theorem reserved_of_third (hlooks : Callsign.looksLikeAmateurCall call = true)
    (hfirst : Callsign.fromNick nick = none) (hsecond : Callsign.fromNick (lower nick) = none)
    (h : Callsign.fromStr nick = some call) : reservedFromNick nick = some call := by
  simp [reservedFromNick, hfirst, hsecond, h, hlooks]

theorem lower_digits (hcall : Valid call) :
    lower (toString call.ssid).toList = (toString call.ssid).toList := by
  have hkept : ∀ n ≤ 15, lower (toString n).toList = (toString n).toList := by decide +kernel
  exact hkept call.ssid hcall.ssid

theorem lower_append (t u : Text) : lower (t ++ u) = lower t ++ lower u := List.map_append

theorem reserved_of_alias (hcall : Valid call) (hlooks : Callsign.looksLikeAmateurCall call = true)
    (h : Alias call nick) : reservedFromNick nick = some call := by
  by_cases hzero : call.ssid = 0
  · have hbase : lower nick = lower call.base.toList := by
      unfold Alias Callsign.toNick callText at h
      rw [if_pos hzero, if_pos hzero] at h
      exact h.elim id id
    exact reserved_of_first hlooks (fromNick_word hcall (spells_of_alike hcall.chars hbase) hzero)
  unfold Alias Callsign.toNick callText at h
  rw [if_neg hzero, if_neg hzero] at h
  rcases h with h | h
  · obtain ⟨b, c, rfl, hb, hc⟩ := numbered_parts hcall h
    rcases separator_spelling.1 hc with rfl | rfl
    · exact reserved_of_first hlooks (fromNick_bar hcall hb)
    · -- the backslash is a separator only after folding
      refine reserved_of_second hlooks
        (fromNick_odd hcall hb (by decide) (by decide) (by decide)) ?_
      rw [lower_append, lower_cons, lower_digits hcall]
      exact fromNick_bar hcall hb.lower
  · obtain ⟨b, c, rfl, hb, hc⟩ := numbered_parts hcall h
    obtain rfl := separator_spelling.2 hc
    refine reserved_of_third hlooks
      (fromNick_odd hcall hb (by decide) (by decide) (by decide)) ?_ (fromStr_dash hcall hb)
    rw [lower_append, lower_cons, lower_digits hcall]
    exact fromNick_odd hcall hb.lower (by decide) (by decide) (by decide)

theorem spells_self (hcall : Valid call) : Spells call.base.toList call.base.toList :=
  spells_of_alike hcall.chars rfl

theorem fromNick_toNick (hcall : Valid call) : Callsign.fromNick (Callsign.toNick call) = some call := by
  unfold Callsign.toNick
  split_ifs with hzero
  · exact fromNick_word hcall (spells_self hcall) hzero
  · exact fromNick_bar hcall (spells_self hcall)

theorem fromNick_folded (hcall : Valid call) : Callsign.fromNick (lower (Callsign.toNick call)) = some call := by
  have hword := (spells_self hcall).lower
  unfold Callsign.toNick
  split_ifs with hzero
  · exact fromNick_word hcall hword hzero
  · rw [lower_append, lower_cons, lower_digits hcall]
    exact fromNick_bar hcall hword

/-- Two stations never share a nick. -/
theorem nicks_apart (hcall : Valid call) (hother : Valid other)
    (h : lower (Callsign.toNick call) = lower (Callsign.toNick other)) : call = other := by
  have hsame := fromNick_folded hcall
  rw [h, fromNick_folded hother] at hsame
  exact (Option.some.inj hsame).symm

/-! ### What is refused -/

variable {s : Server} {m : Moment} {uid : UserId} {msg : Message} {user : User}

/-- Nobody takes a nick that is kept for a station: all that happens is the reply. -/
theorem cmdNick_reserved (h : (reservedFromNick nick).isSome = true) (hnick : msg.param 0 = some nick) :
    ∃ text, s.cmdNick m uid msg = s.numeric uid "432" [nick, text] := by
  unfold Server.cmdNick
  rw [hnick]
  dsimp only
  by_cases hvalid : isValidNick nick s.cfg.maxNickLen = true
  · rw [hvalid, h]
    exact ⟨_, rfl⟩
  · rw [Bool.not_eq_true] at hvalid
    rw [hvalid]
    exact ⟨_, rfl⟩

/-- Nobody registers one: nothing is hashed, and nobody and no account is changed. -/
theorem cmdRegister_reserved (h : (reservedFromNick user.nick).isSome = true)
    (hu : s.user uid = some user) :
    (s.cmdRegister m uid msg).jobs = s.jobs ∧ (s.cmdRegister m uid msg).accounts = s.accounts ∧
      (s.cmdRegister m uid msg).state = s.state := by
  have hrefused : ∀ (t : Server) (password : Text), t.registerWith m uid user password =
      t.noticeUser m uid "Callsign nicks cannot be registered; they belong to RF stations." := by
    intro t password
    exact if_pos h
  unfold Server.cmdRegister Server.withPassword
  cases msg.param 0 with
  | none => exact ⟨rfl, rfl, rfl⟩
  | some password =>
    dsimp only
    have hcount : (s.authRateOk m uid).2.jobs = s.jobs ∧ (s.authRateOk m uid).2.accounts = s.accounts ∧
        (s.authRateOk m uid).2.state = s.state := by
      unfold Server.authRateOk
      dsimp only
      split_ifs <;> exact ⟨rfl, rfl, rfl⟩
    rcases hauth : s.authRateOk m uid with ⟨ok, t⟩
    rw [hauth] at hcount
    obtain ⟨hjobs, haccounts, hstate⟩ := hcount
    cases ok with
    | false => exact ⟨hjobs, haccounts, hstate⟩
    | true =>
      have huser : t.user uid = some user := by
        rw [← hu]
        exact congrArg (fun st => st.user uid) hstate
      dsimp only
      rw [huser]
      dsimp only
      rw [hrefused]
      exact ⟨hjobs, haccounts, hstate⟩

/-! ### Callsigns and nicks -/

/-- A spelling of a callsign is nobody's nick: it is not given, and not registered. -/
structure KeptFor (call : Callsign) (nick : Text) : Prop where
  recognised : reservedFromNick nick = some call
  given : ∀ (s : Server) (m : Moment) (uid : UserId) (msg : Message), msg.param 0 = some nick →
    ∃ text, s.cmdNick m uid msg = s.numeric uid "432" [nick, text]
  registered : ∀ (s : Server) (m : Moment) (uid : UserId) (msg : Message) (user : User),
    s.user uid = some user → user.nick = nick →
      (s.cmdRegister m uid msg).jobs = s.jobs ∧ (s.cmdRegister m uid msg).accounts = s.accounts ∧
        (s.cmdRegister m uid msg).state = s.state

/-- The nick and the text of a callsign say which it is, two callsigns have two nicks, and whoever is not
the station can neither take nor register a nick that folds to either. -/
theorem callsign_nicks (hcall : Valid call) :
    Callsign.fromNick (Callsign.toNick call) = some call ∧
    Callsign.fromStr (callText call) = some call ∧
    (∀ other, Valid other → lower (Callsign.toNick call) = lower (Callsign.toNick other) →
      call = other) ∧
    (Callsign.looksLikeAmateurCall call = true → ∀ nick, Alias call nick → KeptFor call nick) := by
  refine ⟨fromNick_toNick hcall, fromStr_callText hcall,
    fun other hother h => nicks_apart hcall hother h, fun hlooks nick halias => ?_⟩
  have hreserved := reserved_of_alias hcall hlooks halias
  have hsome : (reservedFromNick nick).isSome = true := by rw [hreserved]; rfl
  refine ⟨hreserved, fun s m uid msg hnick => cmdNick_reserved hsome hnick, ?_⟩
  rintro s m uid msg user hu rfl
  exact cmdRegister_reserved hsome hu

/-- A station with a number. -/
theorem callsign_nicks_numbered :
    Callsign.fromNick "SM0ABC|7" = some ⟨"SM0ABC", 7⟩ ∧ KeptFor ⟨"SM0ABC", 7⟩ "sm0aBc\\7" := by
  have hcall : Valid ⟨"SM0ABC", 7⟩ := by decide +kernel
  obtain ⟨hnick, -, -, hkept⟩ := callsign_nicks hcall
  refine ⟨?_, hkept (by decide +kernel) _ (.inl (by decide +kernel))⟩
  have hname : Callsign.toNick ⟨"SM0ABC", 7⟩ = "SM0ABC|7" := by decide +kernel
  rw [← hname]
  exact hnick

end ReservedNicks
