import Rfircd.Basics
import Rfircd.LineFraming

/-! The task of one IRC client: `serve`, and `read_line_capped` inside its `select!`.
The socket is given with all the reads it will ever answer. One `pass` is one turn of the
read loop; between two turns the task may be suspended, and a tick or a hangup that comes
first cancels the read. Lines are octets: they are decoded one by one afterwards. -/
namespace ClientConnection

open LineFraming

def newline : UInt8 := 10
def carriageReturn : UInt8 := 13
def maxLine : ℕ := 512

/-- What is trimmed from the end of a line. -/
def isLineEnd (b : UInt8) : Bool := b == carriageReturn || b == newline

/-- One read of the socket. No octets are the end of the stream. -/
inductive Read where
  | data (octets : List UInt8)
  | error
  deriving DecidableEq

inductive LineRead where
  | line | eof | tooLong
  deriving DecidableEq

/-- The loop was broken and says why, or `serve` returned the error of a read. -/
inductive Exit where
  | disconnect (reason : String)
  | error
  deriving DecidableEq

/-- The events a task sends to the server once it is connected. -/
inductive Sent where
  | line (text : List UInt8)
  | disconnected (reason : String)
  deriving DecidableEq

/-- `buffered` is what the `BufReader` holds, `line` what `read_line_capped` has collected. -/
structure Task where
  socket : List Read
  buffered : List UInt8
  line : List UInt8
  pingEnabled : Bool
  awaitingPong : Bool
  exit : Option Exit
  deriving DecidableEq

def Task.new (socket : List Read) (pingEnabled : Bool) : Task :=
  ⟨socket, [], [], pingEnabled, false, none⟩

inductive Input where
  /-- `up`: the server still takes events. -/
  | pass (up : Bool)
  /-- `delivered`: the PING found room in the queue of the writer. -/
  | tick (delivered : Bool)
  | hangup
  deriving DecidableEq

/-- One turn of the loop over the octets at hand: the answer if there is one, the line
collected so far and the octets left in the reader. -/
def readLineCapped (line available : List UInt8) (max : ℕ) :
    Option LineRead × List UInt8 × List UInt8 :=
  if available = [] then (some (if line = [] then .eof else .tooLong), line, [])
  else if newline ∈ available then
    let n := available.idxOf newline + 1
    if line.length + n > max then (some .tooLong, line, available.drop n)
    else (some .line, line ++ available.take n, available.drop n)
  else if line.length + available.length > max then (some .tooLong, line, [])
  else (none, line ++ available, [])

namespace Task

/-- The buffer if it is not empty, else the next read of the socket. -/
def fillBuf (t : Task) : Option (Read × List Read) :=
  if t.buffered ≠ [] then some (.data t.buffered, t.socket)
  else match t.socket with
    | [] => none
    | read :: socket => some (read, socket)

def finish (t : Task) (reason : String) : Task × List Sent :=
  ({ t with exit := some (.disconnect reason) }, [.disconnected reason])

/-- The whole line has been read: the answer to any PING, and an event unless it is blank. -/
def onLine (t : Task) (up : Bool) (line : List UInt8) : Task × List Sent :=
  let t := { t with line := [], awaitingPong := false }
  let text := line.rdropWhile isLineEnd
  if text = [] then (t, [])
  else if up then (t, [.line text])
  else ({ t with exit := some (.disconnect "Connection closed") }, [])

def turn (t : Task) (up : Bool) (available : List UInt8) : Task × List Sent :=
  let (answer, line, rest) := readLineCapped t.line available maxLine
  let t := { t with buffered := rest, line := line }
  match answer with
  | none => (t, [])
  | some .eof => t.finish "Connection closed"
  | some .tooLong => t.finish "Line too long"
  | some .line => t.onLine up line

def pass (t : Task) (up : Bool) : Task × List Sent :=
  match t.fillBuf with
  | none => (t, [])
  | some (.error, socket) => ({ t with socket := socket, exit := some .error }, [])
  | some (.data available, socket) => { t with socket := socket }.turn up available

/-- The other branches of the `select!` drop the read; `line.clear()` starts the next turn. -/
def tick (t : Task) (delivered : Bool) : Task × List Sent :=
  if !t.pingEnabled then (t, [])
  else if t.awaitingPong then t.finish "Ping timeout"
  else if delivered then ({ t with line := [], awaitingPong := true }, [])
  else { t with awaitingPong := true }.finish "Connection closed"

def step (t : Task) (i : Input) : Task × List Sent :=
  if t.exit.isSome then (t, [])
  else match i with
    | .pass up => t.pass up
    | .tick delivered => t.tick delivered
    | .hangup => t.finish "Dropped"

def run (t : Task) : List Input → Task × List Sent
  | [] => (t, [])
  | i :: is => (((t.step i).1.run is).1, (t.step i).2 ++ ((t.step i).1.run is).2)

end Task

def Sent.text : Sent → Option (List UInt8)
  | .line text => some text
  | .disconnected _ => none

def texts (sent : List Sent) : List (List UInt8) := sent.filterMap Sent.text

/-- The octets up to the end of the stream or the first error. -/
def incoming : List Read → List UInt8
  | .data (b :: octets) :: socket => b :: octets ++ incoming socket
  | _ => []

/-- The lines of an octet stream, without their line ends and without the empty ones. -/
def lines (stream : List UInt8) : List (List UInt8) := frames newline isLineEnd stream

def Task.unread (t : Task) : List UInt8 := t.buffered ++ incoming t.socket

/-- The lines the server can still expect from the task. -/
def Task.ahead (t : Task) : List (List UInt8) :=
  if t.exit.isSome then [] else lines (t.line ++ t.unread)

/-! ### One turn of the loop -/

/-- What the claim grants about the stream, kept while it is being read. -/
structure Orderly (t : Task) : Prop where
  unfinished : newline ∉ t.line
  fits : Fits newline maxLine (t.line ++ t.unread)
  ends : ∀ b ∈ (t.line ++ t.unread).getLast?, b = newline

@[simp] theorem texts_nil : texts [] = [] := rfl
@[simp] theorem texts_line (text : List UInt8) : texts [.line text] = [text] := rfl
@[simp] theorem texts_disconnected (reason : String) : texts [.disconnected reason] = [] := rfl

theorem texts_append (a b : List Sent) : texts (a ++ b) = texts a ++ texts b :=
  List.filterMap_append

theorem rdropWhile_newline (l : List UInt8) :
    (l ++ [newline]).rdropWhile isLineEnd = l.rdropWhile isLineEnd :=
  List.rdropWhile_concat_pos _ _ _ rfl

theorem readLineCapped_line {line l rest : List UInt8} {max : ℕ} (hl : newline ∉ l)
    (hfit : line.length + l.length + 1 ≤ max) :
    readLineCapped line (l ++ newline :: rest) max =
      (some .line, line ++ l ++ [newline], rest) := by
  have hidx : (l ++ newline :: rest).idxOf newline = l.length := by
    rw [List.idxOf_append_of_notMem hl]
    simp
  have htake : (l ++ newline :: rest).take (l.length + 1) = l ++ [newline] := by
    rw [List.take_append, List.take_of_length_le (by omega)]
    simp
  have hdrop : (l ++ newline :: rest).drop (l.length + 1) = rest := by
    rw [List.drop_append]
    simp
  rw [readLineCapped, if_neg (by simp), if_pos (by simp)]
  simp only [hidx, htake, hdrop]
  rw [if_neg (by omega), List.append_assoc]

theorem readLineCapped_partial {line available : List UInt8} {max : ℕ} (hne : available ≠ [])
    (hl : newline ∉ available) (hfit : line.length + available.length ≤ max) :
    readLineCapped line available max = (none, line ++ available, []) := by
  rw [readLineCapped, if_neg hne, if_neg hl, if_neg (by omega)]

theorem onLine_ahead {t : Task} {rest collected : List UInt8} (he : t.exit = none)
    (line : List UInt8) :
    texts ({ t with buffered := rest, line := collected }.onLine true line).2 ++
        ({ t with buffered := rest, line := collected }.onLine true line).1.ahead =
      [line.rdropWhile isLineEnd].filter (· ≠ []) ++ lines (rest ++ incoming t.socket) := by
  by_cases h : line.rdropWhile isLineEnd = []
  · simp [Task.onLine, Task.ahead, Task.unread, he, h]
  · simp [Task.onLine, Task.ahead, Task.unread, he, h]

theorem onLine_frame (t : Task) (line : List UInt8) :
    (t.onLine true line).1 = { t with line := [], awaitingPong := false } := by
  by_cases h : line.rdropWhile isLineEnd = [] <;> simp [Task.onLine, h]

/-- A turn over octets at hand collects them, or hands on the line they complete. -/
theorem turn_spec {t : Task} {available : List UInt8} (he : t.exit = none)
    (hne : available ≠ []) (h : Orderly { t with buffered := available }) :
    texts (t.turn true available).2 ++ (t.turn true available).1.ahead =
        { t with buffered := available }.ahead ∧
      Orderly (t.turn true available).1 := by
  have hu := h.unfinished
  have hf := h.fits
  have hends := h.ends
  simp only [Task.unread] at hu hf hends
  by_cases hl : newline ∈ available
  · obtain ⟨l, rest, rfl, hnl⟩ := List.eq_append_cons_of_mem hl
    have hul : newline ∉ t.line ++ l := by simp [hu, hnl]
    have hsplit : t.line ++ (l ++ newline :: rest ++ incoming t.socket) =
        (t.line ++ l) ++ newline :: (rest ++ incoming t.socket) := by simp
    rw [hsplit, fits_line hul] at hf
    have hread : readLineCapped t.line (l ++ newline :: rest) maxLine = _ :=
      readLineCapped_line hnl (by simpa using hf.1)
    simp only [Task.turn, hread]
    constructor
    · refine (onLine_ahead he (t.line ++ l ++ [newline])).trans ?_
      rw [rdropWhile_newline]
      simp only [Task.ahead, he, Task.unread, Option.isSome_none, Bool.false_eq_true, if_false]
      rw [hsplit, lines, lines, frames_line hul]
    · rw [onLine_frame]
      refine ⟨by simp, hf.2, ?_⟩
      intro b hb
      refine hends b ?_
      rw [hsplit, List.getLast?_append, List.getLast?_cons]
      simp only [Task.unread, List.nil_append, Option.mem_def] at hb
      simp [hb]
  · rw [← List.append_assoc] at hf
    have hul : newline ∉ t.line ++ available := by simp [hu, hl]
    have hread : readLineCapped t.line available maxLine = _ :=
      readLineCapped_partial hne hl (by simpa using Nat.le_of_succ_le (fits_start hul hf))
    simp only [Task.turn, hread]
    constructor
    · simp [Task.ahead, Task.unread, he]
    · exact ⟨hul, by simpa [Task.unread] using hf, by simpa [Task.unread] using hends⟩

/-- What the reader answers next is the start of what is still to be read. -/
theorem Task.fillBuf_spec (t : Task) :
    match t.fillBuf with
    | none => t.unread = []
    | some (.error, _) => t.unread = []
    | some (.data available, socket) =>
      available ≠ [] ∧ t.unread = available ++ incoming socket ∨ available = [] ∧ t.unread = [] := by
  unfold Task.fillBuf Task.unread
  split_ifs with hb
  · exact .inl ⟨hb, rfl⟩
  · rw [not_not.mp hb]
    rcases t.socket with - | ⟨(- | ⟨octet, octets⟩) | -, socket⟩
    · rfl
    · exact .inr ⟨rfl, rfl⟩
    · exact .inl ⟨by simp, rfl⟩
    · rfl

/-- Nothing is left of an orderly stream that has been read. -/
theorem Orderly.line_nil {t : Task} (h : Orderly t) (hr : t.unread = []) : t.line = [] := by
  by_contra hne
  have hlast := h.ends (t.line.getLast hne) (by simp [hr, List.getLast?_eq_some_getLast hne])
  exact h.unfinished (hlast ▸ List.getLast_mem hne)

theorem Task.ahead_open {t : Task} (he : t.exit = none) : t.ahead = lines (t.line ++ t.unread) := by
  simp [Task.ahead, he]

theorem Orderly.ahead_nil {t : Task} (h : Orderly t) (hr : t.unread = []) : t.ahead = [] := by
  simp [Task.ahead, h.line_nil hr, hr, lines]

theorem pass_spec {t : Task} (he : t.exit = none) (h : Orderly t) :
    texts (t.pass true).2 ++ (t.pass true).1.ahead = t.ahead ∧
      ((t.pass true).1.exit = none → Orderly (t.pass true).1) := by
  have hfill := t.fillBuf_spec
  unfold Task.pass
  rcases hf : t.fillBuf with - | ⟨(available | -), socket⟩ <;> rw [hf] at hfill
  · exact ⟨rfl, fun _ => h⟩
  · rcases hfill with ⟨hne, hfill⟩ | ⟨rfl, hfill⟩
    · have hsame : { t with socket := socket, buffered := available }.unread = t.unread :=
        hfill.symm
      have := turn_spec (t := { t with socket := socket }) he hne
        ⟨h.unfinished, by rw [hsame]; exact h.fits, by rw [hsame]; exact h.ends⟩
      refine ⟨this.1.trans ?_, fun _ => this.2⟩
      simp only [Task.ahead, hsame]
    · rw [h.ahead_nil hfill]
      simp [Task.turn, readLineCapped, h.line_nil hfill, Task.finish, Task.ahead]
  · rw [h.ahead_nil hfill]
    exact ⟨rfl, by simp⟩

theorem Task.step_ended {t : Task} (he : t.exit ≠ none) (i : Input) : t.step i = (t, []) := by
  simp [Task.step, Option.isSome_iff_ne_none.mpr he]

theorem Task.step_pass {t : Task} (he : t.exit = none) (up : Bool) :
    t.step (.pass up) = t.pass up := by
  simp [Task.step, he]

theorem Task.step_tick {t : Task} (he : t.exit = none) (delivered : Bool) :
    t.step (.tick delivered) = t.tick delivered := by
  simp [Task.step, he]

/-- The next thing the task reads is an error. -/
def Task.Failing (t : Task) : Prop :=
  t.exit = none ∧ t.buffered = [] ∧ t.socket.head? = some .error

instance (t : Task) : Decidable t.Failing :=
  inferInstanceAs (Decidable (t.exit = none ∧ t.buffered = [] ∧ t.socket.head? = some .error))

/-- A task under a server that runs ends in one of two ways: it says so, or a read failed. -/
theorem Task.step_ends {t : Task} {i : Input} (he : t.exit = none) (hi : i ≠ .pass false) :
    (t.step i).1.exit = none ∨
    (∃ reason, (t.step i).1.exit = some (.disconnect reason) ∧
      (t.step i).2 = [.disconnected reason]) ∨
    ((t.step i).1.exit = some .error ∧ t.Failing ∧ ∃ up, i = .pass up) := by
  rcases i with (- | -) | delivered | -
  · exact absurd rfl hi
  · rw [Task.step_pass he]
    have hfill : ∀ socket, t.fillBuf = some (.error, socket) → t.Failing := by
      intro socket h
      unfold Task.fillBuf at h
      by_cases hb : t.buffered = []
      · rw [if_neg (not_not.mpr hb)] at h
        refine ⟨he, hb, ?_⟩
        rcases hs : t.socket with - | ⟨read, rest⟩ <;> rw [hs] at h <;> simp_all
      · simp [hb] at h
    rcases hf : t.fillBuf with - | ⟨(available | -), socket⟩ <;> simp only [Task.pass, hf]
    · exact .inl he
    · rcases hr : readLineCapped t.line available maxLine with ⟨(- | (- | - | -)), line, rest⟩
      · simp [Task.turn, hr, he]
      · by_cases h : line.rdropWhile isLineEnd = [] <;> simp [Task.turn, hr, Task.onLine, h, he]
      · simp [Task.turn, hr, Task.finish]
      · simp [Task.turn, hr, Task.finish]
    · exact .inr (.inr ⟨trivial, hfill socket hf, _, rfl⟩)
  · rw [Task.step_tick he]
    cases hp : t.pingEnabled <;> cases ha : t.awaitingPong <;> cases delivered <;>
      simp [Task.tick, Task.finish, hp, ha, he]
  · simp [Task.step, he, Task.finish]

/-! ### Ticks -/

/-- A tick that is answered cancels the read, and one that is not ends the connection. Neither
does harm when the line it tears, or all that is left, is blank. -/
def TickHarmless (t : Task) (delivered : Bool) : Prop :=
  if t.awaitingPong = false ∧ delivered = true then
    t.line = [] ∨ ∀ b ∈ t.line ++ restOfLine newline t.unread, isLineEnd b = true
  else ∀ b ∈ t.line ++ t.unread, isLineEnd b = true

instance (t : Task) (delivered : Bool) : Decidable (TickHarmless t delivered) := by
  unfold TickHarmless
  infer_instance

theorem tick_answered {t : Task} {delivered : Bool} (hp : t.pingEnabled = true)
    (hc : t.awaitingPong = false ∧ delivered = true) :
    t.tick delivered = ({ t with line := [], awaitingPong := true }, []) := by
  simp [Task.tick, hp, hc]

theorem tick_ends {t : Task} {delivered : Bool} (hp : t.pingEnabled = true)
    (hc : ¬(t.awaitingPong = false ∧ delivered = true)) :
    (t.tick delivered).1.exit ≠ none ∧ texts (t.tick delivered).2 = [] := by
  cases ha : t.awaitingPong <;> cases hd : delivered <;>
    simp_all [Task.tick, Task.finish]

theorem tick_harmless {t : Task} {delivered : Bool} (he : t.exit = none) (h : Orderly t)
    (hh : t.pingEnabled = true → TickHarmless t delivered) :
    texts (t.tick delivered).2 ++ (t.tick delivered).1.ahead = t.ahead := by
  cases hp : t.pingEnabled with
  | false => simp [Task.tick, hp]
  | true =>
    have hh := hh hp
    by_cases hc : t.awaitingPong = false ∧ delivered = true
    · rw [TickHarmless, if_pos hc] at hh
      rw [tick_answered hp hc]
      rw [Task.ahead_open he, texts_nil, List.nil_append, Task.ahead_open (by exact he)]
      exact frames_torn h.unfinished hh
    · rw [TickHarmless, if_neg hc] at hh
      obtain ⟨hexit, htexts⟩ := tick_ends hp hc
      simp [htexts, Task.ahead, Option.isSome_iff_ne_none.mpr hexit, he, lines,
        frames_of_blank hh]

theorem tick_harmful {t : Task} {delivered : Bool} (he : t.exit = none) (h : Orderly t)
    (hp : t.pingEnabled = true) (hh : ¬TickHarmless t delivered) :
    (texts (t.tick delivered).2 ++ (t.tick delivered).1.ahead).flatten.length <
      t.ahead.flatten.length := by
  by_cases hc : t.awaitingPong = false ∧ delivered = true
  · rw [TickHarmless, if_pos hc] at hh
    rw [tick_answered hp hc]
    rw [Task.ahead_open he, texts_nil, List.nil_append, Task.ahead_open (by exact he)]
    exact frames_torn_lt h.unfinished hh
  · rw [TickHarmless, if_neg hc] at hh
    obtain ⟨hexit, htexts⟩ := tick_ends hp hc
    rw [Task.ahead_open he, htexts, Task.ahead, if_pos (Option.isSome_iff_ne_none.mpr hexit)]
    exact flatten_frames_pos (mt (blank_of_frames rfl) hh)

theorem tick_orderly {t : Task} {delivered : Bool} (h : Orderly t) :
    (t.tick delivered).1.exit = none → Orderly (t.tick delivered).1 := by
  intro he
  cases hp : t.pingEnabled with
  | false => simpa [Task.tick, hp] using h
  | true =>
    by_cases hc : t.awaitingPong = false ∧ delivered = true
    · rw [tick_answered hp hc]
      refine ⟨List.not_mem_nil, fits_torn h.unfinished h.fits, ?_⟩
      intro b hb
      refine h.ends b ?_
      rw [List.getLast?_append]
      simp only [List.nil_append, Option.mem_def] at hb
      change t.unread.getLast? = some b at hb
      simp [hb]
    · exact absurd he (tick_ends hp hc).1

/-! ### Whole runs -/

def InputHarmless (t : Task) : Input → Prop
  | .tick delivered => t.exit = none → t.pingEnabled = true → TickHarmless t delivered
  | _ => True

instance (t : Task) (i : Input) : Decidable (InputHarmless t i) := by
  cases i <;> unfold InputHarmless <;> infer_instance

/-- Ticks only tear blank lines, and only cut off a blank rest. -/
def Harmless : Task → List Input → Prop
  | _, [] => True
  | t, i :: is => InputHarmless t i ∧ Harmless (t.step i).1 is

def decideHarmless : (t : Task) → (is : List Input) → Decidable (Harmless t is)
  | _, [] => .isTrue trivial
  | t, i :: is =>
    have := decideHarmless (t.step i).1 is
    inferInstanceAs (Decidable (InputHarmless t i ∧ Harmless (t.step i).1 is))

instance (t : Task) (is : List Input) : Decidable (Harmless t is) := decideHarmless t is

/-- Only reads and ticks, under a server that runs. -/
def Undisturbed (i : Input) : Prop := i ≠ .hangup ∧ i ≠ .pass false

instance (i : Input) : Decidable (Undisturbed i) :=
  inferInstanceAs (Decidable (i ≠ .hangup ∧ i ≠ .pass false))

theorem step_orderly {t : Task} {i : Input} (h : t.exit = none → Orderly t)
    (hi : Undisturbed i) : (t.step i).1.exit = none → Orderly (t.step i).1 := by
  intro hend
  by_cases he : t.exit = none
  · rcases i with (- | -) | delivered | -
    · exact absurd rfl hi.2
    · rw [Task.step_pass he] at hend ⊢
      exact (pass_spec he (h he)).2 hend
    · rw [Task.step_tick he] at hend ⊢
      exact tick_orderly (h he) hend
    · exact absurd rfl hi.1
  · rw [Task.step_ended he] at hend
    exact absurd hend he

/-- What the server was or can still be handed stays the same, or loses octets. -/
theorem step_ahead {t : Task} {i : Input} (h : t.exit = none → Orderly t) (hi : Undisturbed i) :
    (InputHarmless t i → texts (t.step i).2 ++ (t.step i).1.ahead = t.ahead) ∧
    (¬InputHarmless t i → (texts (t.step i).2 ++ (t.step i).1.ahead).flatten.length <
      t.ahead.flatten.length) := by
  by_cases he : t.exit = none
  · rcases i with (- | -) | delivered | -
    · exact absurd rfl hi.2
    · rw [Task.step_pass he]
      exact ⟨fun _ => (pass_spec he (h he)).1, fun hn => absurd trivial hn⟩
    · rw [Task.step_tick he]
      refine ⟨fun hh => tick_harmless he (h he) (hh he), fun hn => ?_⟩
      simp only [InputHarmless, he, true_implies, Classical.not_imp] at hn
      exact tick_harmful he (h he) hn.1 hn.2
    · exact absurd rfl hi.1
  · rw [Task.step_ended he]
    refine ⟨fun _ => rfl, fun hn => absurd ?_ hn⟩
    cases i <;> simp [InputHarmless, he]

theorem run_ahead {t : Task} {is : List Input} (h : t.exit = none → Orderly t)
    (his : ∀ i ∈ is, Undisturbed i) :
    (Harmless t is → texts (t.run is).2 ++ (t.run is).1.ahead = t.ahead) ∧
    (¬Harmless t is → (texts (t.run is).2 ++ (t.run is).1.ahead).flatten.length <
      t.ahead.flatten.length) := by
  induction is generalizing t with
  | nil => exact ⟨fun _ => rfl, fun hn => absurd trivial hn⟩
  | cons i is ih =>
    rw [List.forall_mem_cons] at his
    have hstep := step_ahead h his.1
    have hrun := ih (step_orderly h his.1) his.2
    rw [Harmless, Task.run]
    simp only [texts_append, List.append_assoc]
    by_cases hi : InputHarmless t i <;> by_cases hs : Harmless (t.step i).1 is
    · simp only [hi, hs, and_self, not_true_eq_false, false_implies, and_true, true_implies]
      rw [hrun.1 hs, hstep.1 hi]
    all_goals
      simp only [hi, hs, and_self, and_true, and_false, not_false_eq_true, false_implies, true_and,
        true_implies]
    · have := hrun.2 hs
      rw [← hstep.1 hi]
      simp only [List.flatten_append, List.length_append] at this ⊢
      omega
    · rw [hrun.1 hs]
      exact hstep.2 hi
    · have hlater := hrun.2 hs
      have hnow := hstep.2 hi
      simp only [List.flatten_append, List.length_append] at hlater hnow ⊢
      omega

theorem run_orderly {t : Task} {is : List Input} (h : t.exit = none → Orderly t)
    (his : ∀ i ∈ is, Undisturbed i) : (t.run is).1.exit = none → Orderly (t.run is).1 := by
  induction is generalizing t with
  | nil => exact h
  | cons i is ih =>
    rw [List.forall_mem_cons] at his
    exact ih (step_orderly h his.1) his.2

/-- The server is handed exactly the lines of the stream when no tick does harm. -/
theorem lines_whole_iff (socket : List Read) (pingEnabled : Bool) (is : List Input)
    (hends : (incoming socket).getLast? = some newline)
    (hfits : Fits newline maxLine (incoming socket)) (his : ∀ i ∈ is, Undisturbed i)
    (hdone : ((Task.new socket pingEnabled).run is).1.exit ≠ none ∨
      ((Task.new socket pingEnabled).run is).1.unread = []) :
    texts ((Task.new socket pingEnabled).run is).2 = lines (incoming socket) ↔
      Harmless (Task.new socket pingEnabled) is := by
  have hnew : Orderly (Task.new socket pingEnabled) :=
    ⟨List.not_mem_nil, hfits, fun b hb => by simpa [Task.new, Task.unread, hends, eq_comm] using hb⟩
  have hover : ((Task.new socket pingEnabled).run is).1.ahead = [] := by
    by_cases he : ((Task.new socket pingEnabled).run is).1.exit = none
    · exact (run_orderly (fun _ => hnew) his he).ahead_nil (hdone.resolve_left (not_not.mpr he))
    · simp [Task.ahead, Option.isSome_iff_ne_none.mpr he]
  obtain ⟨hwhole, htorn⟩ := run_ahead (fun _ => hnew) his
  rw [hover, List.append_nil] at hwhole htorn
  constructor
  · intro h
    by_contra hn
    exact absurd (congrArg (List.length ∘ List.flatten) h) (htorn hn).ne
  · exact hwhole

/-- Two lines, the first cut in two, with a tick before and after each line. -/
theorem lines_whole_iff_quiet :
    texts ((Task.new [.data [80], .data [81, 10, 82, 10], .data []] true).run
      [.tick true, .pass true, .pass true, .tick true, .pass true, .tick true, .pass true]).2 =
      lines [80, 81, 10, 82, 10] :=
  (lines_whole_iff _ _ _ (by decide) (by decide) (by decide) (by decide)).mpr (by decide)

/-- The line `NICK`, read in two halves with a tick between them, becomes the command `CK`. -/
theorem line_torn_by_tick :
    ¬∀ (socket : List Read) (is : List Input),
      (incoming socket).getLast? = some newline → Fits newline maxLine (incoming socket) →
      (∀ i ∈ is, Undisturbed i) → ((Task.new socket true).run is).1.unread = [] →
      texts ((Task.new socket true).run is).2 = lines (incoming socket) := by
  intro h
  have := h [.data [78, 73], .data [67, 75, 10]] [.pass true, .tick true, .pass true]
    (by decide) (by decide) (by decide) (by decide)
  exact absurd this (by decide)

end ClientConnection
