import Rfircd.Basics
import Mathlib.Data.List.Basic
import Mathlib.Data.UInt

/-! KISS framing: a frame is `FEND <port|command> <payload> FEND` with byte stuffing.
The decoder is fed whatever octets arrive, cut wherever the link cuts them. -/
namespace KissFraming

def fend : UInt8 := 0xC0
def fesc : UInt8 := 0xDB
def tfend : UInt8 := 0xDC
def tfesc : UInt8 := 0xDD

def cmdData : UInt8 := 0x00

/-- One decoded KISS frame. -/
structure KissFrame where
  port : UInt8
  command : UInt8
  payload : List UInt8
  deriving DecidableEq, Repr

def stuff (b : UInt8) : List UInt8 :=
  if b = fend then [fesc, tfend] else if b = fesc then [fesc, tfesc] else [b]

/-- The octet after the opening `FEND`. It may collide with the delimiters as any other. -/
def typeOctet (port command : UInt8) : UInt8 := ((port &&& 0x0F) <<< 4) ||| (command &&& 0x0F)

def encode (port command : UInt8) (payload : List UInt8) : List UInt8 :=
  fend :: stuff (typeOctet port command) ++ payload.flatMap stuff ++ [fend]

def KissFrame.encode (f : KissFrame) : List UInt8 := KissFraming.encode f.port f.command f.payload

structure KissDecoder where
  buf : List UInt8
  inFrame : Bool
  escaped : Bool
  maxFrame : ℕ
  deriving DecidableEq, Repr

namespace KissDecoder

def new (maxFrame : ℕ) : KissDecoder := ⟨[], false, false, maxFrame⟩

def takeFrame (d : KissDecoder) : Option KissFrame :=
  match d.buf with
  | [] => none
  | first :: rest => some ⟨first >>> 4, first &&& 0x0F, rest⟩

/-- An octet of a frame, out of its escape. A bad escape drops the frame and keeps the octet. -/
def unescape (d : KissDecoder) (other : UInt8) : UInt8 × KissDecoder :=
  if d.escaped then
    let d := { d with escaped := false }
    if other = tfend then (fend, d)
    else if other = tfesc then (fesc, d)
    else (other, { d with buf := [] })
  else (other, d)

/-- The body of the loop of `push`. -/
def pushOctet (d : KissDecoder) (b : UInt8) : KissDecoder × List KissFrame :=
  if b = fend then
    ({ d with buf := [], escaped := false, inFrame := true },
      if d.inFrame && !d.buf.isEmpty then d.takeFrame.toList else [])
  else if !d.inFrame then (d, [])
  else if b = fesc then ({ d with escaped := true }, [])
  else
    let (byte, d) := d.unescape b
    if d.maxFrame ≤ d.buf.length then ({ d with inFrame := false, buf := [] }, [])
    else ({ d with buf := d.buf ++ [byte] }, [])

def push (d : KissDecoder) : List UInt8 → KissDecoder × List KissFrame
  | [] => (d, [])
  | b :: bytes =>
    let (d, first) := d.pushOctet b
    let (d, rest) := d.push bytes
    (d, first ++ rest)

/-- One `push` after another. -/
def pushChunks (d : KissDecoder) : List (List UInt8) → KissDecoder × List KissFrame
  | [] => (d, [])
  | chunk :: chunks =>
    let (d, first) := d.push chunk
    let (d, rest) := d.pushChunks chunks
    (d, first ++ rest)

end KissDecoder

variable {d : KissDecoder} {f : KissFrame}

/-! ### Where the stream is cut does not matter -/

@[simp] theorem push_nil (d : KissDecoder) : d.push [] = (d, []) := rfl

theorem push_cons (d : KissDecoder) (b : UInt8) (bytes : List UInt8) :
    d.push (b :: bytes) = (((d.pushOctet b).1.push bytes).1,
      (d.pushOctet b).2 ++ ((d.pushOctet b).1.push bytes).2) := rfl

theorem push_append (d : KissDecoder) (a b : List UInt8) :
    d.push (a ++ b) = (((d.push a).1.push b).1, (d.push a).2 ++ ((d.push a).1.push b).2) := by
  induction a generalizing d with
  | nil => rfl
  | cons x a ih => simp only [List.cons_append, push_cons, ih, List.append_assoc]

theorem pushChunks_flatten (d : KissDecoder) (chunks : List (List UInt8)) :
    d.pushChunks chunks = d.push chunks.flatten := by
  induction chunks generalizing d with
  | nil => rfl
  | cons chunk chunks ih =>
    rw [List.flatten_cons, push_append, ← ih]
    rfl

/-! ### One frame -/

/-- A decoder that reads a frame, with what it has of it. -/
def reading (maxFrame : ℕ) (buf : List UInt8) : KissDecoder := ⟨buf, true, false, maxFrame⟩

/-- A decoder that waits for the next delimiter. -/
def lost (maxFrame : ℕ) : KissDecoder := ⟨[], false, false, maxFrame⟩

/-- Whatever came before, a delimiter opens a frame. -/
theorem pushOctet_fend (d : KissDecoder) : (d.pushOctet fend).1 = reading d.maxFrame [] := by
  rw [KissDecoder.pushOctet, if_pos rfl]
  rfl

/-- However an octet is escaped, it is read as itself when there is room for it. -/
theorem push_stuff (maxFrame : ℕ) (buf : List UInt8) (b : UInt8) :
    (reading maxFrame buf).push (stuff b) =
      if maxFrame ≤ buf.length then (lost maxFrame, []) else (reading maxFrame (buf ++ [b]), []) := by
  unfold stuff
  split_ifs with hfend hroom hfesc hroom hroom
  · simp [push_cons, KissDecoder.pushOctet, KissDecoder.unescape, reading, lost, fend, fesc,
      tfend, hroom]
  · simp [hfend, push_cons, KissDecoder.pushOctet, KissDecoder.unescape, reading, fend, fesc, tfend,
      hroom]
  · simp [push_cons, KissDecoder.pushOctet, KissDecoder.unescape, reading, lost, fend, fesc, tfend,
      tfesc, hroom]
  · simp [hfesc, push_cons, KissDecoder.pushOctet, KissDecoder.unescape, reading, fend, fesc, tfend,
      tfesc, hroom]
  · simp [push_cons, KissDecoder.pushOctet, KissDecoder.unescape, reading, lost, hfend, hfesc, hroom]
  · simp [push_cons, KissDecoder.pushOctet, KissDecoder.unescape, reading, hfend, hfesc, hroom]

theorem push_stuffed {maxFrame : ℕ} {buf : List UInt8} (bytes : List UInt8)
    (h : buf.length + bytes.length ≤ maxFrame) :
    (reading maxFrame buf).push (bytes.flatMap stuff) = (reading maxFrame (buf ++ bytes), []) := by
  induction bytes generalizing buf with
  | nil => simp
  | cons b bytes ih =>
    rw [List.length_cons] at h
    have hfirst := push_stuff maxFrame buf b
    rw [if_neg (by omega)] at hfirst
    have hlength : (buf ++ [b]).length + bytes.length ≤ maxFrame := by
      rw [List.length_append, List.length_singleton]
      omega
    have hrest := ih hlength
    rw [List.flatMap_cons, push_append, hfirst, hrest]
    simp

theorem typeOctet_split : ∀ p c : Fin 16, typeOctet (.ofNat p) (.ofNat c) >>> 4 = .ofNat p ∧
    typeOctet (.ofNat p) (.ofNat c) &&& 0x0F = .ofNat c := by
  decide +kernel

/-- A frame that can be told from its octets, and that a decoder has room for. -/
structure Fits (maxFrame : ℕ) (f : KissFrame) : Prop where
  port : f.port < 16
  command : f.command < 16
  length : f.payload.length + 1 ≤ maxFrame

theorem Fits.split {maxFrame : ℕ} (h : Fits maxFrame f) :
    typeOctet f.port f.command >>> 4 = f.port ∧ typeOctet f.port f.command &&& 0x0F = f.command := by
  have hsplit := typeOctet_split ⟨f.port.toNat, UInt8.lt_iff_toNat_lt.mp h.port⟩
    ⟨f.command.toNat, UInt8.lt_iff_toNat_lt.mp h.command⟩
  simpa using hsplit

/-- After the opening delimiter, the payload and nothing else is produced. -/
theorem push_payload {maxFrame : ℕ} (port command : UInt8) {payload : List UInt8}
    (h : payload.length + 1 ≤ maxFrame) :
    (reading maxFrame []).push (stuff (typeOctet port command) ++ payload.flatMap stuff ++ [fend]) =
      (reading maxFrame [], [⟨typeOctet port command >>> 4, typeOctet port command &&& 0x0F,
        payload⟩]) := by
  have hbytes : (reading maxFrame []).push (stuff (typeOctet port command) ++
      payload.flatMap stuff) = (reading maxFrame (typeOctet port command :: payload), []) :=
    push_stuffed (typeOctet port command :: payload)
      (by rw [List.length_nil, List.length_cons]; omega)
  rw [push_append, hbytes, push_cons, pushOctet_fend]
  simp [KissDecoder.pushOctet, KissDecoder.takeFrame, reading]

theorem push_body {maxFrame : ℕ} (h : Fits maxFrame f) :
    (reading maxFrame []).push (stuff (typeOctet f.port f.command) ++ f.payload.flatMap stuff ++
      [fend]) = (reading maxFrame [], [f]) := by
  obtain ⟨hport, hcommand⟩ := h.split
  rw [push_payload f.port f.command h.length, hport, hcommand]

/-- The encoding of a frame is read back, after whatever the delimiter ends. -/
theorem push_encode (h : Fits d.maxFrame f) :
    d.push f.encode = (reading d.maxFrame [], (d.pushOctet fend).2 ++ [f]) := by
  have hencode : f.encode = fend :: (stuff (typeOctet f.port f.command) ++
    f.payload.flatMap stuff ++ [fend]) := rfl
  rw [hencode, push_cons, pushOctet_fend, push_body h]

/-! ### A stream of frames -/

theorem push_encodes {maxFrame : ℕ} (frames : List KissFrame) (h : ∀ f ∈ frames, Fits maxFrame f) :
    ((reading maxFrame []).push (frames.flatMap KissFrame.encode)).2 = frames := by
  induction frames with
  | nil => rfl
  | cons f frames ih =>
    obtain ⟨hfirst, hrest⟩ := List.forall_mem_cons.mp h
    have hpush : (reading maxFrame []).push f.encode = (reading maxFrame [], [] ++ [f]) := push_encode hfirst
    rw [List.flatMap_cons, push_append, hpush]
    simp only [ih hrest, List.nil_append, List.singleton_append]

/-- Frames come out as they went in, wherever their octets are cut. -/
theorem stream_round_trips (maxFrame : ℕ) (frames : List KissFrame) (chunks : List (List UInt8))
    (h : ∀ f ∈ frames, Fits maxFrame f)
    (hchunks : chunks.flatten = frames.flatMap KissFrame.encode) :
    ((KissDecoder.new maxFrame).pushChunks chunks).2 = frames := by
  rw [pushChunks_flatten, hchunks]
  cases frames with
  | nil => rfl
  | cons f frames =>
    obtain ⟨hfirst, hrest⟩ := List.forall_mem_cons.mp h
    have hpush : (KissDecoder.new maxFrame).push f.encode = (reading maxFrame [], [] ++ [f]) :=
      push_encode hfirst
    rw [List.flatMap_cons, push_append, hpush]
    simp only [push_encodes frames hrest, List.nil_append, List.singleton_append]

/-- Two frames on port 12, whose type octet is a delimiter, cut inside an escape. -/
theorem stream_round_trips_collisions :
    ((KissDecoder.new 3).pushChunks [[fend, fesc], [tfend, fesc], [tfesc, fend], [fend],
      [fesc, tfend, fend]]).2 = [⟨12, 0, [fesc]⟩, ⟨12, 0, []⟩] :=
  stream_round_trips 3 [⟨12, 0, [fesc]⟩, ⟨12, 0, []⟩] _
    (by
      intro f hf
      rcases (by simpa using hf : f = ⟨12, 0, [fesc]⟩ ∨ f = ⟨12, 0, []⟩) with rfl | rfl
      · exact ⟨by decide, by decide, by decide⟩
      · exact ⟨by decide, by decide, by decide⟩)
    (by decide +kernel)

/-! ### Frames that are too long -/

theorem push_lost (maxFrame : ℕ) (bytes : List UInt8) :
    (lost maxFrame).push (bytes.flatMap stuff) = (lost maxFrame, []) := by
  have hskip : ∀ b ≠ fend, (lost maxFrame).pushOctet b = (lost maxFrame, []) := by
    intro b hb
    rw [KissDecoder.pushOctet, if_neg hb]
    rfl
  induction bytes with
  | nil => rfl
  | cons b bytes ih =>
    have hfirst : (lost maxFrame).push (stuff b) = (lost maxFrame, []) := by
      unfold stuff
      split_ifs with hfend
      · simp only [push_cons, push_nil, hskip fesc (by decide), hskip tfend (by decide), List.append_nil]
      · simp only [push_cons, push_nil, hskip fesc (by decide), hskip tfesc (by decide), List.append_nil]
      · simp only [push_cons, push_nil, hskip b hfend, List.append_nil]
    rw [List.flatMap_cons, push_append, hfirst, ih]
    rfl

theorem push_overflow {maxFrame : ℕ} {buf : List UInt8} (bytes : List UInt8)
    (hbuf : buf.length ≤ maxFrame) (h : maxFrame < buf.length + bytes.length) :
    (reading maxFrame buf).push (bytes.flatMap stuff) = (lost maxFrame, []) := by
  induction bytes generalizing buf with
  | nil =>
    rw [List.length_nil] at h
    omega
  | cons b bytes ih =>
    rw [List.length_cons] at h
    rw [List.flatMap_cons, push_append]
    have hfirst := push_stuff maxFrame buf b
    by_cases hroom : buf.length < maxFrame
    · have hlength : (buf ++ [b]).length = buf.length + 1 := by rw [List.length_append, List.length_singleton]
      rw [if_neg (by omega)] at hfirst
      rw [hfirst, ih (by omega) (by omega)]
      rfl
    · rw [if_pos (by omega)] at hfirst
      rw [hfirst, push_lost]
      rfl

/-- Of a frame that is too long, a fresh decoder produces nothing. -/
theorem push_encode_long {maxFrame : ℕ} (port command : UInt8) (payload : List UInt8)
    (h : maxFrame < payload.length + 1) :
    ((KissDecoder.new maxFrame).push (encode port command payload)).2 = [] := by
  have hbytes : (reading maxFrame []).push (stuff (typeOctet port command) ++ payload.flatMap stuff) =
      (lost maxFrame, []) :=
    push_overflow (typeOctet port command :: payload) (Nat.zero_le _)
      (by rw [List.length_nil, List.length_cons]; omega)
  have hencode : encode port command payload = fend :: (stuff (typeOctet port command) ++
    payload.flatMap stuff ++ [fend]) := rfl
  have hopen : (KissDecoder.new maxFrame).pushOctet fend = (reading maxFrame [], []) := rfl
  rw [hencode, push_cons, hopen, push_append, hbytes]
  rfl

/-! ### After garbage -/

/-- What the decoder keeps never grows beyond its limit. -/
def Bounded (d : KissDecoder) : Prop := d.buf.length ≤ d.maxFrame

theorem takeFrame_length (h : d.takeFrame = some f) : f.payload.length + 1 = d.buf.length := by
  unfold KissDecoder.takeFrame at h
  split at h
  · cases h
  · rename_i first rest hbuf
    cases h
    rw [hbuf, List.length_cons]

/-- Taking an octet out of its escape adds nothing. -/
theorem unescape_spec (d : KissDecoder) (b : UInt8) : (d.unescape b).2.maxFrame = d.maxFrame ∧
    (d.unescape b).2.inFrame = d.inFrame ∧
      ((d.unescape b).2.buf = d.buf ∨ (d.unescape b).2.buf = []) := by
  unfold KissDecoder.unescape
  split_ifs
  · exact ⟨rfl, rfl, .inl rfl⟩
  · exact ⟨rfl, rfl, .inl rfl⟩
  · exact ⟨rfl, rfl, .inr rfl⟩
  · exact ⟨rfl, rfl, .inl rfl⟩

theorem pushOctet_bounded (h : Bounded d) (b : UInt8) : (d.pushOctet b).1.maxFrame = d.maxFrame ∧
    Bounded (d.pushOctet b).1 ∧ ∀ f ∈ (d.pushOctet b).2, f.payload.length + 1 ≤ d.maxFrame := by
  obtain ⟨hmax, -, -⟩ := unescape_spec d b
  have hnone : ∀ f ∈ ([] : List KissFrame), f.payload.length + 1 ≤ d.maxFrame := by simp
  unfold KissDecoder.pushOctet
  split_ifs with hfend htake hin hfesc
  · refine ⟨rfl, Nat.zero_le _, fun f hf => ?_⟩
    rw [takeFrame_length (Option.mem_toList.mp hf)]
    exact h
  · exact ⟨rfl, Nat.zero_le _, hnone⟩
  · exact ⟨rfl, h, hnone⟩
  · exact ⟨rfl, h, hnone⟩
  · dsimp only
    split_ifs with hfull
    · exact ⟨hmax, Nat.zero_le _, hnone⟩
    · refine ⟨hmax, ?_, hnone⟩
      have hroom : (d.unescape b).2.buf.length < (d.unescape b).2.maxFrame := not_le.mp hfull
      have hlonger : ((d.unescape b).2.buf ++ [(d.unescape b).1]).length ≤ (d.unescape b).2.maxFrame := by
        rw [List.length_append, List.length_singleton]
        omega
      exact hlonger

theorem push_bounded (h : Bounded d) (bytes : List UInt8) : (d.push bytes).1.maxFrame = d.maxFrame ∧
    Bounded (d.push bytes).1 ∧ ∀ f ∈ (d.push bytes).2, f.payload.length + 1 ≤ d.maxFrame := by
  induction bytes generalizing d with
  | nil => exact ⟨rfl, h, by simp⟩
  | cons b bytes ih =>
    obtain ⟨hmax, hnext, hfirst⟩ := pushOctet_bounded h b
    obtain ⟨hmax', hlast, hrest⟩ := ih hnext
    rw [push_cons]
    refine ⟨hmax'.trans hmax, hlast, fun f hf => ?_⟩
    rcases List.mem_append.mp hf with hf | hf
    · exact hfirst f hf
    · exact hmax ▸ hrest f hf

/-- Whatever the decoder was fed with, nothing that comes out is longer than the limit, and a frame
that fits is the last one that comes out, intact. -/
theorem decoder_resynchronises (maxFrame : ℕ) (chunks : List (List UInt8)) :
    (∀ f ∈ ((KissDecoder.new maxFrame).pushChunks chunks).2, f.payload.length + 1 ≤ maxFrame) ∧
      ∀ garbage f, Fits maxFrame f → chunks.flatten = garbage ++ f.encode →
        ((KissDecoder.new maxFrame).pushChunks chunks).2.getLast? = some f := by
  have hnew : Bounded (KissDecoder.new maxFrame) := Nat.zero_le _
  rw [pushChunks_flatten]
  refine ⟨(push_bounded hnew chunks.flatten).2.2, fun garbage f hf hchunks => ?_⟩
  have hmax := (push_bounded hnew garbage).1
  have hfits : Fits ((KissDecoder.new maxFrame).push garbage).1.maxFrame f := hmax.symm ▸ hf
  rw [hchunks, push_append, push_encode hfits]
  simp only [← List.append_assoc, List.getLast?_concat]

/-- An oversized frame, a dangling escape, and a frame. -/
theorem decoder_resynchronises_dangling :
    ((KissDecoder.new 2).pushChunks [[fend, 1, 2, 3], [4, fend, 5, fesc],
      [fend, 0, 7, fend]]).2.getLast? = some ⟨0, 0, [7]⟩ :=
  (decoder_resynchronises 2 _).2 [fend, 1, 2, 3, 4, fend, 5, fesc] ⟨0, 0, [7]⟩
    ⟨by decide, by decide, by decide⟩ (by decide +kernel)

end KissFraming
