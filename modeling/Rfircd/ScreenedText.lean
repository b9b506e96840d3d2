import Mathlib.Data.List.TakeWhile
import Rfircd.BridgeSteps
import Rfircd.ServerRuns

/-! The text that goes on the air against the text that passed the screen.
An action is unwrapped to be screened, wrapped again for IRC, and unwrapped again for the air. -/
namespace ScreenedText

open Basics MessageText IrcMessage IrcState AirTrace AirPolicy AirScreen ServerOutput AprsCodec
open ServerSteps ServerRuns

def chatText : RfEmission → Option Text
  | .chat _ _ text _ _ _ => some text
  | .topic .. | .presence .. => none

/-- The chat that the delivery of a screened text puts on the air. -/
def radiated (original : Text) (s : Screened) (nick mask target : Text) (origin : Origin)
    (presenceNotices : Bool) : Option Text :=
  let (text, truncated) := deliveryTextAfterScreen original s
  ((Delivery.privmsg nick mask target text false truncated origin).rfEmission presenceNotices).bind
    chatText

def isAction (text : Text) : Bool := (parseCtcp text).any fun p => eqIgnoreAsciiCase p.1 "ACTION"

/-- An action of which nothing is left once control characters and outer blanks are gone. -/
def silentAction (text : Text) : Bool :=
  (parseCtcp text).any fun p => eqIgnoreAsciiCase p.1 "ACTION" && decide (sanitize p.2 = [])

variable {original text rest air : Text} {s : Screened} {nick mask target : Text} {origin : Origin}
variable {presence : Bool}

/-! ### What the screen leaves of an action -/

def visible (c : Char) : Bool := !isWhitespace c

/-- Blanks apart, the text so far has no influence on what is added to it. -/
theorem filter_sanitizeFrom (n : ℕ) (out t : Text) :
    (sanitizeFrom n out t).filter visible =
      out.reverse.filter visible ++ (sanitizeFrom n [] t).filter visible := by
  induction n generalizing out t with
  | zero => simp [sanitizeFrom]
  | succ n ih =>
    cases t with
    | nil => simp [sanitizeFrom]
    | cons c t =>
      have hblank : ∀ o : Text, ((if o.head? = some ' ' then o else ' ' :: o).reverse).filter visible =
          o.reverse.filter visible := by
        intro o
        have hspace : visible ' ' = false := by decide
        split_ifs
        · rfl
        · rw [List.reverse_cons, List.filter_append, List.filter_singleton, hspace, cond_false,
            List.append_nil]
      rw [sanitizeFrom, sanitizeFrom]
      by_cases hcolour : c = '\x03'
      · rw [if_pos hcolour, if_pos hcolour]
        exact ih out _
      rw [if_neg hcolour, if_neg hcolour]
      by_cases hformat : isFormatting c = true
      · rw [if_pos hformat, if_pos hformat]
        exact ih out _
      rw [if_neg hformat, if_neg hformat]
      by_cases hspace : (c = '\r' || c = '\n' || c = '\t' || c = ' ') = true
      · rw [if_pos hspace, if_pos hspace, ih, hblank,
          ih (if ([] : Text).head? = some ' ' then [] else [' ']), hblank]
        rfl
      rw [if_neg hspace, if_neg hspace]
      by_cases hcontrol : isControl c = true
      · rw [if_pos hcontrol, if_pos hcontrol]
        exact ih out _
      rw [if_neg hcontrol, if_neg hcontrol, ih, ih [c], List.reverse_cons, List.filter_append,
        List.append_assoc]
      rfl

theorem sanitizeFrom_prefix (n : ℕ) (out t : Text) : out.reverse <+: sanitizeFrom n out t := by
  induction n generalizing out t with
  | zero => exact List.prefix_rfl
  | succ n ih =>
    cases t with
    | nil => exact List.prefix_rfl
    | cons c t =>
      have hlonger : ∀ {d : Char}, out.reverse <+: (d :: out).reverse := by
        intro d
        rw [List.reverse_cons]
        exact List.prefix_append _ _
      rw [sanitizeFrom]
      split_ifs
      · exact ih out _
      · exact ih out _
      · exact ih out _
      · exact hlonger.trans (ih _ _)
      · exact ih out _
      · exact hlonger.trans (ih _ _)

theorem dropWhile_blank {t : Text} : t.dropWhile isWhitespace = [] ↔ t.filter visible = [] := by
  rw [List.dropWhile_eq_nil_iff, List.filter_eq_nil_iff]
  simp [visible]

theorem trim_blank {t : Text} : trim t = [] ↔ t.filter visible = [] := by
  rw [trim, List.reverse_eq_nil_iff, dropWhile_blank, List.filter_reverse, List.reverse_eq_nil_iff]
  induction t with
  | nil => rfl
  | cons c t ih =>
    rw [List.dropWhile_cons]
    split_ifs with hc
    · rw [ih, List.filter_cons_of_neg (by simp [visible, hc])]
    · rfl

/-- Behind the mark of an action the screen leaves nothing exactly when nothing was said. -/
theorem sanitize_action (rest : Text) :
    sanitize ("/me " ++ rest) = "/me".toList ∧ sanitize rest = [] ∨
      (∃ r, sanitize ("/me " ++ rest) = "/me ".toList ++ r ∧ r ≠ []) ∧ sanitize rest ≠ [] := by
  obtain ⟨d, hd⟩ := sanitizeFrom_prefix rest.length " em/".toList rest
  have hfrom : sanitize ("/me " ++ rest) = trim ("/me ".toList ++ d) := by
    rw [sanitize]
    exact congrArg trim hd.symm
  have hvisible : d.filter visible = (sanitizeFrom rest.length [] rest).filter visible := by
    have h := filter_sanitizeFrom rest.length " em/".toList rest
    rw [← hd, List.filter_append] at h
    exact List.append_cancel_left h
  have hsilent : sanitize rest = [] ↔ d.filter visible = [] := by rw [sanitize, trim_blank, hvisible]
  have hfront : trim ("/me ".toList ++ d) =
      ((d.reverse ++ " em/".toList).dropWhile isWhitespace).reverse := by
    have hleft : ("/me ".toList ++ d).dropWhile isWhitespace = "/me ".toList ++ d := rfl
    rw [trim, hleft, List.reverse_append]
    rfl
  rw [hfrom, hfront, List.dropWhile_append]
  have hback : d.reverse.dropWhile isWhitespace = [] ↔ d.filter visible = [] := by
    rw [dropWhile_blank, List.filter_reverse, List.reverse_eq_nil_iff]
  by_cases hd : d.filter visible = []
  · left
    rw [hback.mpr hd]
    exact ⟨rfl, hsilent.mpr hd⟩
  · right
    have hsome := fun h => hd (hback.mp h)
    rw [if_neg (by simpa using hsome), List.reverse_append]
    exact ⟨⟨_, rfl, fun h => hsome (List.reverse_eq_nil_iff.mp h)⟩, fun h => hd (hsilent.mp h)⟩

/-! ### The text on the air -/

theorem parse_wrapped (rest : Text) :
    parseCtcp ("\x01ACTION " ++ rest ++ ['\x01']) = some ("ACTION".toList, rest) := by
  have hlast : ("ACTION ".toList ++ rest ++ ['\x01']).getLast? = some '\x01' :=
    List.getLast?_concat
  have hinner : ("ACTION ".toList ++ rest ++ ['\x01']).dropLast = "ACTION ".toList ++ rest :=
    List.dropLast_concat
  change parseCtcp ('\x01' :: ("ACTION ".toList ++ rest ++ ['\x01'])) = _
  unfold parseCtcp
  simp only [hlast, if_true, hinner]
  rfl

/-- The bare mark is wrapped without a rest; any other text is only taken apart behind the mark. -/
theorem delivery_cases :
    (∃ rest, s.text = "/me ".toList ++ rest ∧
        deliveryTextAfterScreen original s = ("\x01ACTION " ++ rest ++ ['\x01'], s.truncated)) ∨
      isAction original = true ∧ s.text = "/me".toList ∧
        deliveryTextAfterScreen original s = ("\x01ACTION\x01".toList, s.truncated) ∨
      ¬(isAction original = true ∧ s.text = "/me".toList) ∧
        deliveryTextAfterScreen original s = (s.text, s.truncated) := by
  by_cases haction : isAction original = true
  · have hcondition : ((parseCtcp original).any fun p => eqIgnoreAsciiCase p.1 "ACTION") = true := haction
    rw [deliveryTextAfterScreen, if_pos hcondition]
    cases hstrip : stripPrefix "/me " s.text with
    | some rest =>
      unfold stripPrefix at hstrip
      split_ifs at hstrip with hpre
      obtain ⟨r, hr⟩ := List.isPrefixOf_iff_prefix.mp hpre
      refine .inl ⟨rest, ?_, rfl⟩
      rw [← Option.some.inj hstrip, ← hr]
      rfl
    | none =>
      by_cases hme : s.text = "/me".toList
      · exact .inr (.inl ⟨haction, hme, if_pos hme⟩)
      · exact .inr (.inr ⟨fun h => hme h.2, if_neg hme⟩)
  · exact .inr (.inr ⟨fun h => haction h.1, if_neg haction⟩)

/-- The text that goes out for one that passed: the bare mark of an action is followed by a blank. -/
def spoken (original : Text) (s : Screened) : Text :=
  if isAction original ∧ s.text = "/me".toList then "/me ".toList else s.text

theorem emission_eq (hprintable : ∀ c ∈ s.text, isControl c = false) :
    (Delivery.privmsg nick mask target (deliveryTextAfterScreen original s).1 false
      (deliveryTextAfterScreen original s).2 origin).rfEmission presence =
      some (.chat nick target (spoken original s) s.truncated (!isChannelName target) origin) := by
  unfold spoken
  rcases @delivery_cases original s with
    ⟨rest, htext, heq⟩ | ⟨haction, hme, heq⟩ | ⟨hother, heq⟩
  · have hne : s.text ≠ "/me".toList := by
      rw [htext]
      exact fun h => absurd (congrArg List.length h) (by simp)
    rw [heq, if_neg fun h => hne h.2, htext]
    simp only [Delivery.rfEmission, parse_wrapped]
    rfl
  · rw [heq, if_pos ⟨haction, hme⟩]
    rfl
  · rw [heq, if_neg hother, Delivery.rfEmission, parseCtcp_printable hprintable]

theorem radiated_eq (hprintable : ∀ c ∈ s.text, isControl c = false) :
    radiated original s nick mask target origin presence = some (spoken original s) := by
  have hemission : radiated original s nick mask target origin presence =
      ((Delivery.privmsg nick mask target (deliveryTextAfterScreen original s).1 false
        (deliveryTextAfterScreen original s).2 origin).rfEmission presence).bind chatText := rfl
  rw [hemission, emission_eq hprintable]
  rfl

/-! ### The screen -/

/-- A text that passed, and whether it was shortened. -/
def Passed (p : Policy) (air : Text) (s : Screened) : Prop :=
  p.screenOutbound air = .allow s.text ∧ s.truncated = false ∨
    p.screenOutbound air = .truncated s.text ∧ s.truncated = true

/-- Only the configuration decides what passes. -/
theorem Passed.of_config {p q : Policy} (h : Passed q air s) (hconfig : q.config = p.config) :
    Passed p air s := by
  have hsame : q.screenOutbound air = p.screenOutbound air := by
    rw [Policy.screenOutbound, hconfig, Policy.screenOutbound]
  rwa [Passed, ← hsame]

theorem screenContent_passed {o : Outlet} {st : State} {m : Moment} {uid : UserId}
    {timing : AirTiming} (h : (o.screenContent st m uid air timing).1 = some s) :
    Passed o.policy air s := by
  have hroom : ∀ {o' : Outlet} {x : Screened}, (o'.screenBacklog st m uid x).1 = some s → x = s := by
    intro o' x hx
    unfold Outlet.screenBacklog at hx
    split_ifs at hx
    exact Option.some.inj hx
  unfold Outlet.screenContent at h
  cases hverdict : o.policy.screenOutbound air with
  | deny reason =>
    rw [hverdict] at h
    cases h
  | allow t =>
    rw [hverdict] at h
    dsimp only at h
    obtain rfl : (⟨t, false⟩ : Screened) = s := by
      split_ifs at h
      · exact Option.some.inj h
      · exact hroom h
    exact .inl ⟨hverdict, rfl⟩
  | truncated t =>
    rw [hverdict] at h
    dsimp only at h
    obtain rfl : (⟨t, true⟩ : Screened) = s := by
      split_ifs at h
      · exact Option.some.inj h
      · exact hroom h
    exact .inr ⟨hverdict, rfl⟩

/-- The tests before it leave the limits as they are. -/
theorem screen_passed {o : Outlet} {st : State} {m : Moment} {uid : UserId} {timing : AirTiming}
    (h : (o.screen st m uid air timing).1 = some s) : Passed o.policy air s := by
  unfold Outlet.screen at h
  split_ifs at h
  split at h
  · cases h
  · split_ifs at h
    dsimp only at h
    split_ifs at h
    have hconfig : (o.policy.ipRateOk (rateKey st uid) m.now).2.config = o.policy.config := rfl
    exact (screenContent_passed h).of_config hconfig

theorem passed_cases {p : Policy} (h : Passed p air s) :
    s.text = sanitize air ∧ (sanitize air).length ≤ p.config.maxRfTextLen ∨
      s.text = (sanitize air).take (p.config.maxRfTextLen - 1) ++ ['\u2026'] ∧
        p.config.maxRfTextLen < (sanitize air).length := by
  unfold Passed Policy.screenOutbound at h
  dsimp only at h
  rcases h with ⟨h, -⟩ | ⟨h, -⟩
  · split_ifs at h with hempty hcipher hlong
    exact .inl ⟨(Verdict.allow.inj h).symm, not_lt.mp hlong⟩
  · split_ifs at h with hempty hcipher hlong
    exact .inr ⟨(Verdict.truncated.inj h).symm, hlong⟩

theorem passed_printable {p : Policy} (h : Passed p air s) : ∀ c ∈ s.text, isControl c = false := by
  rcases passed_cases h with ⟨htext, -⟩ | ⟨htext, -⟩
  · rw [htext]
    exact sanitize_printable air
  · rw [htext]
    intro c hc
    rcases List.mem_append.mp hc with hc | hc
    · exact sanitize_printable air c (List.mem_of_mem_take hc)
    · obtain rfl := List.mem_singleton.mp hc
      decide

/-- The bare mark is what passed exactly when nothing was said and the limit has room for it. -/
theorem bare_iff {p : Policy} (h : Passed p ("/me " ++ rest) s) :
    s.text = "/me".toList ↔ sanitize rest = [] ∧ 3 ≤ p.config.maxRfTextLen := by
  have hlength : sanitize rest = [] → (sanitize ("/me " ++ rest)).length = 3 := by
    intro hsilent
    rcases sanitize_action rest with ⟨hbare, -⟩ | ⟨-, hsaid⟩
    · rw [hbare]
      rfl
    · exact absurd hsilent hsaid
  rcases passed_cases h with ⟨htext, hshort⟩ | ⟨htext, hlong⟩
  · rw [htext]
    constructor
    · intro hbare
      rcases sanitize_action rest with ⟨-, hsilent⟩ | ⟨⟨r, hr, hne⟩, -⟩
      · exact ⟨hsilent, (hlength hsilent).symm.le.trans hshort⟩
      · rw [hr] at hbare
        exact absurd (congrArg List.length hbare) (by simp)
    · rintro ⟨hsilent, -⟩
      rcases sanitize_action rest with ⟨hbare, -⟩ | ⟨-, hsaid⟩
      · exact hbare
      · exact absurd hsilent hsaid
  · constructor
    · intro hbare
      rw [htext] at hbare
      have hlast := congrArg List.getLast? hbare
      rw [List.getLast?_concat] at hlast
      exact absurd hlast (by decide)
    · rintro ⟨hsilent, hroom⟩
      rw [hlength hsilent] at hlong
      omega

theorem air_cases (h : chatForAir original false = some air) :
    isAction original = false ∧ silentAction original = false ∨
      ∃ rest, air = "/me " ++ rest ∧ isAction original = true ∧
        (silentAction original = true ↔ sanitize rest = []) := by
  rw [chatForAir, if_neg Bool.false_ne_true] at h
  cases hctcp : parseCtcp original with
  | none => exact .inl ⟨by rw [isAction, hctcp]; rfl, by rw [silentAction, hctcp]; rfl⟩
  | some p =>
    rw [hctcp] at h
    dsimp only at h
    split_ifs at h with haction
    refine .inr ⟨p.2, (Option.some.inj h).symm, ?_, ?_⟩
    · rw [isAction, hctcp]
      exact haction
    · rw [silentAction, hctcp, Option.any_some, haction, Bool.true_and, decide_eq_true_iff]

/-- What goes on the air is the text that was screened, unless it is an action in which nothing is
said: such a one goes out with a blank behind the mark. -/
theorem radiated_as_screened {o : Outlet} {st : State} {m : Moment} {uid : UserId}
    {timing : AirTiming} (hair : chatForAir original false = some air)
    (hscreen : (o.screen st m uid air timing).1 = some s) (nick mask target : Text)
    (origin : Origin) (presence : Bool) :
    (radiated original s nick mask target origin presence = some s.text ↔
      ¬(silentAction original = true ∧ 3 ≤ o.policy.config.maxRfTextLen)) ∧
    (radiated original s nick mask target origin presence = some s.text ∨
      radiated original s nick mask target origin presence = some (s.text ++ [' '])) := by
  have hpassed := screen_passed hscreen
  have hbare : (isAction original ∧ s.text = "/me".toList) ↔
      silentAction original = true ∧ 3 ≤ o.policy.config.maxRfTextLen := by
    rcases air_cases hair with ⟨hother, hsaid⟩ | ⟨rest, rfl, haction, hsilent⟩
    · rw [hother, hsaid]
      exact ⟨fun h => absurd h.1 Bool.false_ne_true, fun h => absurd h.1 Bool.false_ne_true⟩
    · rw [hsilent, ← bare_iff hpassed]
      exact and_iff_right haction
  rw [radiated_eq (passed_printable hpassed), ← hbare, spoken]
  by_cases h : isAction original ∧ s.text = "/me".toList
  · rw [if_pos h, h.2]
    exact ⟨⟨fun heq => absurd (congrArg (Option.map List.length) heq) (by decide),
      fun hno => absurd ⟨h.1, rfl⟩ hno⟩, .inr rfl⟩
  · rw [if_neg h]
    exact ⟨⟨fun _ => h, fun _ => rfl⟩, .inl rfl⟩

/-- An operator with a callsign. -/
def speaker : ServerCore.Server := Small.run (Small.joins 1 "anna" false ++
  [.line 1 "OPER root secret", .line 1 "CALLSIGN SM0AAA"])

/-- What becomes of this text when the operator sends it. -/
def said (text : Text) : Option Screened :=
  (chatForAir text false).bind fun air =>
    (speaker.outlet.screen speaker.state (Small.second 9) (.ip 1) air .now).1

/-- A text that is radiated as it was screened. -/
theorem radiated_greeting :
    radiated "\x01ACTION waves\x01" ⟨"/me waves", false⟩ "anna" "anna!u@h" "#rf" .gateway true =
      some "/me waves".toList := by
  have hair : chatForAir "\x01ACTION waves\x01" false = some "/me waves".toList := by decide
  have hscreen : (speaker.outlet.screen speaker.state (Small.second 9) (.ip 1) "/me waves" .now).1 =
      some ⟨"/me waves", false⟩ := by decide +kernel
  exact (radiated_as_screened hair hscreen _ _ _ _ _).1.mpr (by decide +kernel)

/-- The mark alone passes the screen, and a blank more goes out. -/
theorem bare_mark_radiated : said "\x01ACTION\x01" = some ⟨"/me", false⟩ ∧
    radiated "\x01ACTION\x01" ⟨"/me", false⟩ "anna" "anna!u@h" "#rf" .gateway true =
      some "/me ".toList ∧
    "/me ".toList ≠ "/me".toList := by
  have hsaid : said "\x01ACTION\x01" = some ⟨"/me", false⟩ := by decide +kernel
  exact ⟨hsaid, by decide, by decide⟩

end ScreenedText
