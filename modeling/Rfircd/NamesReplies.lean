import Rfircd.AddressText
import Rfircd.Ax25Codec
import Rfircd.FragmentCap
import Rfircd.ServerRuns
import Rfircd.StationDisplay

/-! The two answers that share a kind, a member count and a list of names, as a station reads them. -/
namespace NamesReplies

open AddressText Airc AirTrace Ax25 Ax25Codec Basics Bridge FieldLists FragmentCap HostKey IrcMessage
open IrcState MessageText ServerCore ServerOutput StationDisplay TransitionSystem Utf8Text

variable {names : List Text} {max : ℕ} {t u : Text}

/-! ### Names that fit -/

/-- All of the names fit: there are not too many, and there is room for the last behind the others. -/
def Fits (max : ℕ) (names : List Text) : Prop :=
  names.length ≤ max ∧
    ∀ last ∈ names.getLast?, octets (joinWith [','] names.dropLast) + octets last + 1 ≤ 160

/-- One turn of the loop of `names_for_air`. -/
def addName (max : ℕ) (acc : Text × ℕ × Bool) (n : Text) : Text × ℕ × Bool :=
  let (out, shown, full) := acc
  if full || decide (max ≤ shown) || decide (160 < octets out + octets n + 1) then
    (out, shown, true)
  else ((if out = [] then n else out ++ ',' :: n), shown + 1, false)

theorem joinWith_concat (front : List Text) (last : Text) :
    joinWith [','] (front ++ [last]) =
      if front = [] then last else joinWith [','] front ++ ',' :: last := by
  induction front with
  | nil => rfl
  | cons name front ih =>
    rw [List.cons_append, joinWith_cons name (by simp), ih, if_neg (List.cons_ne_nil name front)]
    by_cases hfront : front = []
    · subst hfront
      simp [joinWith]
    · rw [if_neg hfront, joinWith_cons name hfront]
      simp

theorem joinWith_eq_nil (h : ∀ name ∈ names, name ≠ []) : joinWith [','] names = [] ↔ names = [] := by
  cases names with
  | nil => simp [joinWith]
  | cons name names =>
    refine iff_of_false (fun hnil => ?_) (List.cons_ne_nil name names)
    have hname := h name List.mem_cons_self
    by_cases hlast : names = []
    · subst hlast
      exact hname hnil
    · rw [joinWith_cons name hlast] at hnil
      simp at hnil

theorem fits_concat {front : List Text} {last : Text} : Fits max (front ++ [last]) ↔
    front.length + 1 ≤ max ∧ octets (joinWith [','] front) + octets last + 1 ≤ 160 := by
  simp [Fits]

theorem Fits.front {last : Text} (h : Fits max (names ++ [last])) : Fits max names := by
  obtain ⟨hlength, hroom⟩ := fits_concat.mp h
  rcases List.eq_nil_or_concat names with rfl | ⟨front, name, rfl⟩
  · exact ⟨Nat.zero_le _, by simp⟩
  · rw [List.concat_eq_append] at hlength hroom ⊢
    rw [List.length_append, List.length_singleton] at hlength
    refine fits_concat.mpr ⟨by omega, ?_⟩
    rw [joinWith_concat] at hroom
    split_ifs at hroom with hfront
    · subst hfront
      have hzero : octets (joinWith [','] []) = 0 := rfl
      omega
    · rw [octets_append, octets_cons] at hroom
      omega

/-- What the loop has taken, and whether it left names out. -/
structure Listed (max : ℕ) (names : List Text) (k : ℕ) (full : Bool) : Prop where
  some : k ≤ names.length
  cut : full = true → k < names.length ∧ ¬ Fits max names
  all : full = false → k = names.length ∧ Fits max names

theorem addName_foldl (h : ∀ name ∈ names, name ≠ []) : ∃ k full,
    names.foldl (addName max) ([], 0, false) = (joinWith [','] (names.take k), k, full) ∧
      Listed max names k full := by
  induction names using List.reverseRecOn with
  | nil => exact ⟨0, false, rfl, le_rfl, by simp, fun _ => ⟨rfl, Nat.zero_le _, by simp⟩⟩
  | append_singleton names n ih =>
    obtain ⟨k, full, hfold, hlisted⟩ := ih fun name hname => h name (List.mem_append_left _ hname)
    rw [List.foldl_append, hfold, List.foldl_cons, List.foldl_nil, addName]
    cases full with
    | true =>
      obtain ⟨hless, hnot⟩ := hlisted.cut rfl
      refine ⟨k, true, ?_, ?_, fun _ => ⟨?_, fun hfits => hnot hfits.front⟩, by simp⟩
      · rw [List.take_append_of_le_length hless.le]
        simp
      · rw [List.length_append]
        omega
      · rw [List.length_append]
        omega
    | false =>
      obtain ⟨rfl, -⟩ := hlisted.all rfl
      rw [List.take_length]
      have hroom : (false || decide (max ≤ names.length) ||
          decide (160 < octets (joinWith [','] names) + octets n + 1)) = true ↔
            ¬ Fits max (names ++ [n]) := by
        rw [fits_concat, Bool.false_or, Bool.or_eq_true, decide_eq_true_eq, decide_eq_true_eq]
        omega
      by_cases hfits : Fits max (names ++ [n])
      · refine ⟨names.length + 1, false, ?_, by simp, by simp, fun _ => ⟨by simp, hfits⟩⟩
        have hempty := joinWith_eq_nil fun name hname => h name (List.mem_append_left _ hname)
        rw [if_neg (by rw [hroom]; exact not_not.mpr hfits)]
        have hwhole : (names ++ [n]).take (names.length + 1) = names ++ [n] :=
          List.take_of_length_le (by simp)
        rw [hwhole, joinWith_concat]
        simp only [hempty]
      · refine ⟨names.length, true, ?_, by simp, fun _ => ⟨by simp, hfits⟩, by simp⟩
        rw [if_pos (hroom.mpr hfits), List.take_left]

/-- The note on the names that were left out. -/
def leftOut (n : ℕ) : Text := if n = 0 then [] else ",+" ++ natText n ++ " more"

theorem namesForAir_eq (s : Server) (channel : Text)
    (h : ∀ name ∈ s.state.namesOf channel, name ≠ []) : ∃ k full,
    s.namesForAir channel = joinWith [','] ((s.state.namesOf channel).take k) ++
      leftOut ((s.state.namesOf channel).length - k) ∧
    Listed s.cfg.rfNamesMax (s.state.namesOf channel) k full := by
  obtain ⟨k, full, hfold, hlisted⟩ := @addName_foldl _ s.cfg.rfNamesMax h
  refine ⟨k, full, ?_, hlisted⟩
  have hloop : s.namesForAir channel =
      let r := (s.state.namesOf channel).foldl (addName s.cfg.rfNamesMax) ([], 0, false)
      if r.2.1 < (s.state.namesOf channel).length then
        r.1 ++ ",+" ++ natText ((s.state.namesOf channel).length - r.2.1) ++ " more" else r.1 := rfl
  rw [hloop, hfold, leftOut]
  dsimp only
  split_ifs with hless hzero
  · omega
  · simp
  · simp
  · have := hlisted.some
    omega

/-! ### Legal names -/

/-- A nick that a user may have, or the one of a station, behind a sigil. -/
def LegalName (name : Text) : Prop := ∃ (flags : MemberFlags) (nick : Text),
  name = flags.sigil ++ nick ∧
    ((∃ maxLen, isValidNick nick maxLen = true) ∨
      ∃ call, Wellformed call ∧ nick = Callsign.toNick call)

/-- Nothing on the way changes such a text. -/
def Clear (t : Text) : Prop := ∀ c ∈ t, isControl c = false ∧ c.toNat < 128

theorem legal_clear {name : Text} (h : LegalName name) : name ≠ [] ∧ Clear name ∧ ',' ∉ name := by
  obtain ⟨flags, nick, rfl, hnick⟩ := h
  have hchars : nick ≠ [] ∧ ∀ c ∈ nick, nickChar c = true := by
    rcases hnick with ⟨maxLen, hvalid⟩ | ⟨call, hcall, rfl⟩
    · exact nickChar_valid hvalid
    · exact nickChar_toNick hcall
  have hsigil : Clear flags.sigil ∧ ',' ∉ flags.sigil := by
    rw [MemberFlags.sigil]
    split_ifs
    · exact ⟨by unfold Clear; decide, by decide⟩
    · exact ⟨by unfold Clear; decide, by decide⟩
    · exact ⟨by unfold Clear; decide, by decide⟩
  refine ⟨by simp [hchars.1], List.forall_mem_append.mpr ⟨hsigil.1, fun c hc => ?_⟩, ?_⟩
  · exact (nickChar_clear (hchars.2 c hc)).1
  · rw [List.mem_append, not_or]
    exact ⟨hsigil.2, fun hc => (nickChar_clear (hchars.2 _ hc)).2 rfl⟩

/-! ### Texts that arrive as they were sent -/

theorem carried_clear (h : Clear t) : carried t = t := carried_printable fun c hc => (h c hc).1

theorem strip_clear (h : Clear t) : stripTerminalControls t = t := by
  rw [stripTerminalControls, List.filter_eq_self]
  intro c hc
  obtain ⟨hcontrol, hascii⟩ := h c hc
  have hmarks : ¬ 0x80 ≤ c.toNat ∧ c.toNat ≠ 0x200E ∧ c.toNat ≠ 0x200F ∧ ¬ 0x202A ≤ c.toNat ∧
      ¬ 0x2066 ≤ c.toNat := by omega
  simp [hcontrol, hmarks]

theorem strip_append (t u : Text) :
    stripTerminalControls (t ++ u) = stripTerminalControls t ++ stripTerminalControls u :=
  List.filter_append ..

theorem clear_natText (n : ℕ) : Clear (natText n) := by
  intro c hc
  have halnum : nickChar c = true := by
    rw [nickChar, isAsciiAlphanumeric, isAsciiDigit_natText hc]
    rfl
  exact (nickChar_clear halnum).1

theorem clear_leftOut (n : ℕ) : Clear (leftOut n) := by
  rw [leftOut]
  split_ifs
  · exact fun c hc => absurd hc List.not_mem_nil
  · refine List.forall_mem_append.mpr ⟨List.forall_mem_append.mpr ⟨by decide, clear_natText n⟩, ?_⟩
    decide

theorem clear_namesForAir {s : Server} {channel : Text}
    (h : ∀ name ∈ s.state.namesOf channel, LegalName name) : Clear (s.namesForAir channel) := by
  obtain ⟨k, full, htext, -⟩ := namesForAir_eq s channel fun name hname => (legal_clear (h name hname)).1
  rw [htext]
  refine List.forall_mem_append.mpr ⟨fun c hc => ?_, clear_leftOut _⟩
  rcases mem_joinWith hc with hc | ⟨name, hname, hc⟩
  · rw [List.mem_singleton.mp hc]
    decide
  · exact (legal_clear (h name (List.mem_of_mem_take hname))).2.1 c hc

/-! ### How a list ends -/

/-- No name was left out, and the last one ends like a member count. -/
def Misread (max : ℕ) (names : List Text) : Prop :=
  Fits max names ∧ ∃ last ∈ names.getLast?, ("here" : Text) <:+ last

/-- What ends a text that has no separator ends the last part. -/
theorem suffix_last {w front last : Text} (hw : ',' ∉ w) : w <:+ front ++ ',' :: last ↔ w <:+ last := by
  constructor
  · intro h
    rcases List.suffix_or_suffix_of_suffix h (List.suffix_append front (',' :: last)) with h | h
    · rcases List.suffix_cons_iff.mp h with rfl | h
      · exact absurd List.mem_cons_self hw
      · exact h
    · exact absurd (h.subset List.mem_cons_self) hw
  · intro h
    exact h.trans ((List.suffix_cons ',' last).trans (List.suffix_append front _))

theorem here_leftOut {n : ℕ} (hn : n ≠ 0) (t : Text) : ¬ ("here" : Text) <:+ t ++ leftOut n := by
  rw [leftOut, if_neg hn]
  intro h
  have hmore : ("more" : Text) <:+ t ++ (",+" ++ natText n ++ " more") :=
    ⟨t ++ (",+" ++ natText n ++ " "), by simp⟩
  exact absurd (List.suffix_of_suffix_length_le h hmore (by decide)) (by decide)

theorem here_namesForAir {s : Server} {channel : Text}
    (h : ∀ name ∈ s.state.namesOf channel, LegalName name) :
    ("here" : Text) <:+ s.namesForAir channel ↔ Misread s.cfg.rfNamesMax (s.state.namesOf channel) := by
  obtain ⟨k, full, htext, hlisted⟩ :=
    namesForAir_eq s channel fun name hname => (legal_clear (h name hname)).1
  rw [htext, Misread]
  cases full with
  | true =>
    obtain ⟨hless, hnot⟩ := hlisted.cut rfl
    exact iff_of_false (here_leftOut (by omega) _) fun hfits => hnot hfits.1
  | false =>
    obtain ⟨rfl, hfits⟩ := hlisted.all rfl
    rw [List.take_length, Nat.sub_self]
    rcases List.eq_nil_or_concat (s.state.namesOf channel) with hnames | ⟨front, last, hnames⟩
    · rw [hnames]
      exact iff_of_false (by decide) (by simp)
    · rw [List.concat_eq_append] at hnames
      rw [hnames] at hfits ⊢
      rw [joinWith_concat]
      have hlast : (∃ name ∈ (front ++ [last]).getLast?, ("here" : Text) <:+ name) ↔
          ("here" : Text) <:+ last := by simp
      rw [hlast, leftOut, if_pos rfl, List.append_nil]
      split_ifs with hfront
      · exact ⟨fun hend => ⟨hfits, hend⟩, fun hend => hend.2⟩
      · rw [suffix_last (by decide)]
        exact ⟨fun hend => ⟨hfits, hend⟩, fun hend => hend.2⟩

/-! ### What the station shows -/

theorem strip_carried (t : Text) : stripTerminalControls (carried t) = stripTerminalControls t := by
  rw [stripTerminalControls, stripTerminalControls, carried, List.filter_filter]
  refine List.filter_congr fun c _ => ?_
  cases hc : unsendable c with
  | false => simp
  | true =>
    have hcontrol : isControl c = true := by
      simp only [unsendable, Bool.or_eq_true, decide_eq_true_eq] at hc
      rcases hc with ((rfl | rfl) | rfl) | rfl <;> decide
    simp [hcontrol]

theorem foldl_say (lines : List Text) (st : Station) : (lines.foldl Station.say st).output =
    st.output ++ lines.map stripTerminalControls := by
  induction lines generalizing st with
  | nil => simp
  | cons line lines ih =>
    rw [List.foldl_cons, ih, Station.say]
    simp

/-- The station reads the frame, and with it a message is complete. `mid` is the station when the
message is handed over. -/
structure Completes (st : Station) (ax : Ax25Frame) (now : ℕ) (taken : ℕ → Bool) (mid : Station)
    (msg : AircFrame) : Prop where
  other : ax.source.call ≠ st.call
  ours : ¬ (Callsign.looksLikeAmateurCall ax.destination.call ∧ ax.destination.call ≠ st.call)
  frame : ∃ f, AircFrame.decode ax.info = .ok f ∧
    st.take ax.source.call f (ax.destination.call = st.call) now taken = (mid, some msg)

theorem handleRf_output {st mid : Station} {ax : Ax25Frame} {now : ℕ} {taken : ℕ → Bool}
    {msg : AircFrame} (h : Completes st ax now taken mid msg) :
    (st.handleRf ax now taken).output =
      mid.output ++ (shown mid.quiet ax.source.call msg).map stripTerminalControls := by
  obtain ⟨f, hdecode, htake⟩ := h.frame
  rw [Station.handleRf, if_neg h.other, if_neg h.ours, hdecode]
  dsimp only
  rw [htake]
  exact foldl_say ..

/-- The lines of a join confirmation. -/
def confirmation (display : Text) (n : ℕ) (topic : Text) : List Text :=
  stripTerminalControls ("-- joined " ++ display ++ " (" ++ (natText n ++ " here") ++
      "; /names to list them)") ::
    if carried topic = [] then []
    else [stripTerminalControls ("-- " ++ display ++ " topic: " ++ topic)]

/-- The line of a member list. -/
def memberList (display list : Text) : Text :=
  stripTerminalControls ("-- " ++ display ++ " members: ") ++ list

theorem clear_here (n : ℕ) : Clear (natText n ++ " here") :=
  List.forall_mem_append.mpr ⟨clear_natText n, by decide⟩

theorem shown_joined {msg : AircFrame} {call src : Callsign} {display topic : Text} {n : ℕ}
    (quiet : Bool) (hkind : msg.kind = .namesReply)
    (hpayload : msg.payload = (Addressed.joined display (natText n ++ " here") topic).payload call) :
    (shown quiet src msg).map stripTerminalControls = confirmation display n topic := by
  have hfields := fieldTexts_of_payload (List.cons_ne_nil _ _) hpayload
  have hhere : ("here" : Text) <:+ natText n ++ " here" := ⟨natText n ++ [' '], by simp⟩
  rw [shown, hkind, hfields]
  simp only [List.map_cons, List.map_nil, List.getElem?_cons_zero, List.getElem?_cons_succ,
    Option.getD_some, carried_clear (clear_here n), showNames, if_pos hhere]
  rw [confirmation]
  congr 1
  · simp only [strip_append, strip_carried]
  · split_ifs with htopic
    · simp [Option.filter, htopic]
    · have hsome : (some (carried topic)).filter (· ≠ []) = some (carried topic) := by
        simp [Option.filter, htopic]
      simp only [hsome, Option.toList_some, List.map_cons, List.map_nil, strip_append, strip_carried]

theorem shown_names {msg : AircFrame} {call src : Callsign} {display list : Text} (quiet : Bool)
    (hclear : Clear list) (hkind : msg.kind = .namesReply)
    (hpayload : msg.payload = (Addressed.names display list).payload call) :
    (shown quiet src msg).map stripTerminalControls =
      [if ("here" : Text) <:+ list then
        stripTerminalControls ("-- joined " ++ display ++ " (" ++ list ++ "; /names to list them)")
      else memberList display list] := by
  have hfields := fieldTexts_of_payload (List.cons_ne_nil _ _) hpayload
  rw [shown, hkind, hfields]
  simp only [List.map_cons, List.map_nil, List.getElem?_cons_zero, List.getElem?_cons_succ,
    Option.getD_some, carried_clear hclear, showNames]
  split_ifs with hhere
  · simp only [strip_append, strip_carried]
    rfl
  · simp only [memberList, strip_append, strip_carried, strip_clear hclear]
    rfl

/-- A list that ends like a count is not shown as a list: its line ends otherwise. -/
theorem memberList_ne {display list : Text} (h : ("here" : Text) <:+ list) :
    stripTerminalControls ("-- joined " ++ display ++ " (" ++ list ++ "; /names to list them)") ≠
      memberList display list := by
  obtain ⟨front, rfl⟩ := h
  have hbracket : (stripTerminalControls ("-- joined " ++ display ++ " (" ++ (front ++ "here") ++
      "; /names to list them)")).getLast? = some ')' := by
    rw [strip_append, List.getLast?_append]
    rfl
  have hletter : (memberList display (front ++ "here")).getLast? = some 'e' := by
    rw [memberList, List.getLast?_append, List.getLast?_append]
    rfl
  intro heq
  rw [heq, hletter] at hbracket
  exact absurd hbracket (by decide)

/-- The answer to a station that joins is shown as a confirmation. The list that it asks for is shown
as a list, unless it has all of the names and the last of them ends in the way of a count. -/
theorem names_reply_read_iff {s : Server} {display : Text}
    (hlegal : ∀ name ∈ s.state.namesOf display, LegalName name) {st mid : Station} {ax : Ax25Frame}
    {now : ℕ} {taken : ℕ → Bool} {msg : AircFrame} (hmsg : Completes st ax now taken mid msg)
    (hkind : msg.kind = .namesReply) (call : Callsign) :
    (∀ n topic, msg.payload =
        (Addressed.joined display (natText n ++ " here") topic).payload call →
      (st.handleRf ax now taken).output = mid.output ++ confirmation display n topic) ∧
    (msg.payload = (Addressed.names display (s.namesForAir display)).payload call →
      ((st.handleRf ax now taken).output =
          mid.output ++ [memberList display (s.namesForAir display)] ↔
        ¬ Misread s.cfg.rfNamesMax (s.state.namesOf display))) ∧
    ∃ k, s.namesForAir display = joinWith [','] ((s.state.namesOf display).take k) ++
        leftOut ((s.state.namesOf display).length - k) ∧
      k ≤ (s.state.namesOf display).length ∧
      (k = (s.state.namesOf display).length ↔ Fits s.cfg.rfNamesMax (s.state.namesOf display)) := by
  refine ⟨fun n topic hpayload => ?_, fun hpayload => ?_, ?_⟩
  · rw [handleRf_output hmsg, shown_joined mid.quiet hkind hpayload]
  · rw [handleRf_output hmsg, shown_names mid.quiet (clear_namesForAir hlegal) hkind hpayload,
      ← here_namesForAir hlegal]
    split_ifs with hhere
    · refine iff_of_false (fun heq => ?_) (not_not.mpr hhere)
      have hline := List.append_cancel_left heq
      exact memberList_ne hhere (List.singleton_inj.mp hline)
    · exact iff_of_true rfl hhere
  · obtain ⟨k, full, htext, hlisted⟩ :=
      namesForAir_eq s display fun name hname => (legal_clear (hlegal name hname)).1
    refine ⟨k, htext, hlisted.some, ?_⟩
    cases full with
    | true =>
      obtain ⟨hless, hnot⟩ := hlisted.cut rfl
      exact iff_of_false hless.ne hnot
    | false =>
      obtain ⟨hall, hfits⟩ := hlisted.all rfl
      exact iff_of_true hall hfits

/-- A station of the small gateway, before it has heard anything. -/
def listener : Station := ⟨ServerRuns.Small.station, [], false, .new .default, none, [], []⟩

/-- What the gateway transmits to it. -/
def downlink (seq : UInt16) (m : Addressed) : Ax25Frame :=
  ⟨⟨listener.call, true, false⟩, .new ⟨"SK0MT", 1⟩, [], controlUi, some pidNoL3,
    (AircFrame.new m.kind seq (m.payload listener.call)).encode⟩

/-- One user is in the channel, and the station asks who. -/
def asking (nick : Text) : Server :=
  ServerRuns.Small.run (ServerRuns.Small.joins 1 nick false ++
    [.line 1 "JOIN #rf", ServerRuns.Small.airc listener.call .hello 1 ["SM0ABC"],
      ServerRuns.Small.airc listener.call .names 2 ["#rf"]])

theorem anna_is_listed : (listener.handleRf
    (downlink 3 (.names "#rf" ((asking "anna").namesForAir "#rf"))) 0 fun _ => true).output =
      ["-- #rf members: anna".toList] := by
  have hnames : (asking "anna").state.namesOf "#rf" = ["anna".toList] := by decide +kernel
  have hlegal : ∀ name ∈ (asking "anna").state.namesOf "#rf", LegalName name := by
    rw [hnames]
    intro name hname
    rw [List.mem_singleton.mp hname]
    exact ⟨.default, "anna", by decide, .inl ⟨16, by decide⟩⟩
  have hread : ¬ Misread (asking "anna").cfg.rfNamesMax ((asking "anna").state.namesOf "#rf") := by
    rw [hnames]
    rintro ⟨-, last, hlast, hend⟩
    obtain rfl := Option.mem_some.mp hlast
    exact absurd hend (by decide)
  have hmsg : Completes listener (downlink 3 (.names "#rf" ((asking "anna").namesForAir "#rf"))) 0
      (fun _ => true) { listener with
        lastRx := some 0
        sessions := (listener.sessions.onReceive ⟨"SK0MT", 1⟩ (.new .namesReply 3
          ((Addressed.names "#rf" ((asking "anna").namesForAir "#rf")).payload listener.call)) 0
            true).1 }
      (.new .namesReply 3
        ((Addressed.names "#rf" ((asking "anna").namesForAir "#rf")).payload listener.call)) :=
    ⟨by decide, by decide, _, Airc.decode_encode (by decide), by rfl⟩
  rw [((names_reply_read_iff hlegal hmsg rfl listener.call).2.1 rfl).mpr hread]
  decide +kernel

/-- A nick like any other ends with the letters of a count. -/
theorem name_read_as_count :
    Reachable (ServerRuns.system ServerRuns.Small.noBeacon Eq) ServerRuns.everyStep (asking "where") ∧
    (asking "where").state.namesOf "#rf" = ["where".toList] ∧
    (asking "where").namesForAir "#rf" = "where" ∧
    downlink 3 (.names "#rf" "where") ∈
      ((asking "where").outlet.gateway.pump.scheduler.queues .control).map
        TransmitScheduler.Queued.payload ∧
    (listener.handleRf (downlink 3 (.names "#rf" "where")) 0 fun _ => true).output =
      ["-- joined #rf (where; /names to list them)".toList] :=
  ⟨ServerRuns.Small.reachable (by decide +kernel), by decide +kernel, by decide +kernel,
    by decide +kernel, by decide +kernel⟩

end NamesReplies
