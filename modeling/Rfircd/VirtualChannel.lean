import Rfircd.KissFraming
import Rfircd.SharedLog
import Rfircd.TransitionSystem
import Mathlib.Logic.Function.Basic
import Mathlib.Data.Finset.Card

/-! The virtual radio channel: KISS over TCP, with every client on the same frequency.
One step is one access to the map of clients, one read, or one step of a client's writer. The
monitor, which only prints, is not modelled. -/
namespace VirtualChannel

open KissFraming SharedLog TransitionSystem

def clientQueue : ℕ := 256
/-- Of frames that a client sends. -/
def maxFrame : ℕ := 2048
def maxStations : ℕ := 64
/-- The most that one read takes. -/
def readBuffer : ℕ := 4096

inductive Phase where
  | absent
  /-- Accepted; the task has not entered itself in the map yet. -/
  | starting
  | reading
  /-- The read came to its end. -/
  | leaving
  /-- Out of the map; the writer has not been aborted yet. -/
  | removed
  | gone
  deriving DecidableEq

/-- The task of one client, with its writer. `writing` is what the writer has taken and not
written yet, `writer` whether it lives. The octets on the wire are ghosts, and so is `span`:
the part of the log while which the station was in the map. -/
structure Station where
  phase : Phase
  decoder : KissDecoder
  pending : List (List UInt8)
  queue : List (List UInt8)
  writing : List UInt8
  writer : Bool
  taken : List UInt8
  written : List UInt8
  span : Span

def Station.absent : Station := ⟨.absent, .new maxFrame, [], [], [], false, [], [], .never⟩

/-- `log` is a ghost: what was put on the channel, and by whom. -/
structure Hub where
  clients : List ℕ
  nextId : ℕ
  station : ℕ → Station
  log : List (ℕ × List UInt8)

def Hub.new : Hub := ⟨[], 1, fun _ => .absent, []⟩

/-- What a channel carries of the frames of a read: the parameters of a TNC stay where they
are. -/
def dataPayloads (frames : List KissFrame) : List (List UInt8) :=
  (frames.filter (·.command = cmdData)).map KissFrame.payload

/-- `try_send` would accept. -/
def Station.takes (st : Station) : Bool := st.writer && decide (st.queue.length < clientQueue)

namespace Hub

def modify (h : Hub) (id : ℕ) (f : Station → Station) : Hub :=
  { h with station := Function.update h.station id (f (h.station id)) }

/-- A full channel refuses; else a task is spawned. -/
def accept (h : Hub) : Hub :=
  if maxStations ≤ h.clients.length then h
  else { h with nextId := h.nextId + 1 }.modify h.nextId fun st => { st with phase := .starting }

def enter (h : Hub) (id : ℕ) : Hub :=
  { h with clients := h.clients ++ [id] }.modify id fun st =>
    { st with phase := .reading, writer := true, span := .since h.log.length }

def read (h : Hub) (id : ℕ) (octets : List UInt8) : Hub :=
  h.modify id fun st =>
    let (decoder, frames) := st.decoder.push octets
    { st with decoder := decoder, pending := dataPayloads frames, taken := st.taken ++ octets }

/-- Everyone but the sender; who cannot take it is dropped. -/
def relay (h : Hub) (id : ℕ) : Hub :=
  match (h.station id).pending with
  | [] => h
  | payload :: rest =>
    let wire := encode 0 cmdData payload
    let hear := fun other (st : Station) =>
      if other ∉ h.clients ∨ other = id then st
      else if st.takes then { st with queue := st.queue ++ [wire] }
      else { st with span := st.span.close h.log.length }
    { h with
      clients := h.clients.filter fun other => other = id ∨ (h.station other).takes
      station := fun other => hear other (h.station other)
      log := h.log ++ [(id, payload)] }.modify id fun st => { st with pending := rest }

def hangUp (h : Hub) (id : ℕ) : Hub := h.modify id fun st => { st with phase := .leaving }

def remove (h : Hub) (id : ℕ) : Hub :=
  { h with clients := h.clients.filter (· ≠ id) }.modify id fun st =>
    { st with phase := .removed, span := st.span.close h.log.length }

/-- The writer ends, with all that it holds. -/
def endWriter (h : Hub) (id : ℕ) : Hub :=
  h.modify id fun st => { st with writer := false, queue := [], writing := [] }

def abort (h : Hub) (id : ℕ) : Hub := (h.endWriter id).modify id fun st => { st with phase := .gone }

def receive (h : Hub) (id : ℕ) : Hub :=
  h.modify id fun st => { st with queue := st.queue.tail, writing := st.queue.headD [] }

def write (h : Hub) (id n : ℕ) : Hub :=
  h.modify id fun st =>
    { st with writing := st.writing.drop n, written := st.written ++ st.writing.take n }

end Hub

inductive Event where
  | accept
  | enter (id : ℕ)
  | read (id : ℕ) (octets : List UInt8)
  | relay (id : ℕ)
  | hangUp (id : ℕ)
  | remove (id : ℕ)
  | abort (id : ℕ)
  /-- The writer takes the next frame, writes some octets of it, or ends. -/
  | receive (id : ℕ)
  | write (id n : ℕ)
  | writerFails (id : ℕ)
  | writerDone (id : ℕ)

def Enabled (h : Hub) : Event → Prop
  | .accept => True
  | .enter id => (h.station id).phase = .starting
  | .read id octets => (h.station id).phase = .reading ∧ (h.station id).pending = [] ∧
      octets ≠ [] ∧ octets.length ≤ readBuffer
  | .relay id => (h.station id).phase = .reading ∧ (h.station id).pending ≠ []
  | .hangUp id => (h.station id).phase = .reading ∧ (h.station id).pending = []
  | .remove id => (h.station id).phase = .leaving
  | .abort id => (h.station id).phase = .removed
  | .receive id => (h.station id).writer = true ∧ (h.station id).writing = [] ∧
      (h.station id).queue ≠ []
  | .write id n => 0 < n ∧ n ≤ (h.station id).writing.length
  | .writerFails id => (h.station id).writing ≠ []
  | .writerDone id => (h.station id).writer = true ∧ (h.station id).writing = [] ∧
      (h.station id).queue = [] ∧ id ∉ h.clients

instance (h : Hub) (e : Event) : Decidable (Enabled h e) := by
  induction e using Event.casesOn <;> dsimp only [Enabled] <;> infer_instance

def Hub.next (h : Hub) : Event → Hub
  | .accept => h.accept
  | .enter id => h.enter id
  | .read id octets => h.read id octets
  | .relay id => h.relay id
  | .hangUp id => h.hangUp id
  | .remove id => h.remove id
  | .abort id => h.abort id
  | .receive id => h.receive id
  | .write id n => h.write id n
  | .writerFails id | .writerDone id => h.endWriter id

def system : System Hub Event := .ofNext (· = .new) Enabled Hub.next

/-! ### What a station hears -/

/-- The octets of the frames that the writer of a station is given. -/
def encodes (payloads : List (List UInt8)) : List UInt8 := payloads.flatMap (encode 0 cmdData)

@[simp] theorem encodes_nil : encodes [] = [] := rfl

@[simp] theorem encodes_concat (payloads : List (List UInt8)) (payload : List UInt8) :
    encodes (payloads ++ [payload]) = encodes payloads ++ encode 0 cmdData payload := by
  simp [encodes]

/-- Every octet of a frame may have to be escaped. -/
def largestWire : ℕ := 2 * maxFrame + 2

theorem stuff_length (b : UInt8) : (stuff b).length ≤ 2 := by
  unfold stuff
  split_ifs <;> simp

theorem flatMap_stuff_length (payload : List UInt8) :
    (payload.flatMap stuff).length ≤ 2 * payload.length := by
  induction payload with
  | nil => simp
  | cons b payload ih =>
    have := stuff_length b
    rw [List.flatMap_cons, List.length_append, List.length_cons]
    omega

theorem encode_length {payload : List UInt8} (h : payload.length + 1 ≤ maxFrame) :
    (encode 0 cmdData payload).length ≤ largestWire := by
  have htype := stuff_length (typeOctet 0 cmdData)
  have hpayload := flatMap_stuff_length payload
  simp only [encode, largestWire, List.length_append, List.length_cons, List.length_nil]
  omega

/-- What the decoder of a station has made of the octets it was sent. -/
def decoded (octets : List UInt8) : KissDecoder × List KissFrame :=
  (KissDecoder.new maxFrame).push octets

/-- The octets given to a station are the log of its span; a writer that lives holds all of them
that it has not written. `member` says whether the station is in the map. -/
structure Sound (log : List (ℕ × List UInt8)) (member : Prop) (id : ℕ) (st : Station) : Prop where
  decoder : st.decoder = (decoded st.taken).1
  spoken : saidBy id log ++ st.pending = dataPayloads (decoded st.taken).2
  within : st.span.Within log.length
  member : member ↔ st.span.left = none
  fresh : st.phase = .absent ∨ st.phase = .starting →
    st.span = .never ∧ st.writer = false ∧ st.taken = []
  gone : st.writer = false → st.queue = [] ∧ st.writing = []
  wire : st.written ++ (st.writing ++ st.queue.flatten) <+: encodes (heardBy id st.span log)
  whole : st.writer = true →
    st.written ++ (st.writing ++ st.queue.flatten) = encodes (heardBy id st.span log)
  room : st.queue.length ≤ clientQueue
  short : ∀ w ∈ st.writing :: st.queue, w.length ≤ largestWire

structure Coherent (h : Hub) : Prop where
  ahead : ∀ id, h.nextId ≤ id → (h.station id).phase = .absent
  station : ∀ id, Sound h.log (id ∈ h.clients) id (h.station id)

theorem sound_absent (id : ℕ) : Sound [] False id .absent where
  decoder := rfl
  spoken := rfl
  within := Span.within_never 0
  member := by simp [Station.absent, Span.never]
  fresh := fun _ => ⟨rfl, rfl, rfl⟩
  gone := fun _ => ⟨rfl, rfl⟩
  wire := List.nil_prefix
  whole := fun h => by simp [Station.absent] at h
  room := Nat.zero_le _
  short := by simp [Station.absent]

theorem coherent_new : Coherent .new :=
  ⟨fun _ _ => rfl, fun id => by simpa [Hub.new] using sound_absent id⟩

variable {h : Hub} {id : ℕ} {f : Station → Station}

@[simp] theorem modify_station_self : (h.modify id f).station id = f (h.station id) := by
  simp [Hub.modify]

theorem modify_station_other {other : ℕ} (hne : other ≠ id) :
    (h.modify id f).station other = h.station other := by
  simp [Hub.modify, hne]

/-- A step that changes one station, and at most its place in the map. -/
theorem Coherent.update (hh : Coherent h) {clients : List ℕ}
    (hc : ∀ other ≠ id, other ∈ h.clients ↔ other ∈ clients)
    (hid : (h.station id).phase ≠ .absent)
    (hf : Sound h.log (id ∈ clients) id (f (h.station id))) :
    Coherent ({ h with clients := clients }.modify id f) where
  ahead := by
    intro other hle
    have hne : other ≠ id := by
      rintro rfl
      exact hid (hh.ahead other hle)
    rw [modify_station_other hne]
    exact hh.ahead other hle
  station := by
    intro other
    by_cases hne : other = id
    · subst hne
      rw [modify_station_self]
      exact hf
    · rw [modify_station_other hne]
      change Sound h.log (other ∈ clients) other (h.station other)
      rw [← hc other hne]
      exact hh.station other

theorem Coherent.modify (hh : Coherent h) (hid : (h.station id).phase ≠ .absent)
    (hf : Sound h.log (id ∈ h.clients) id (f (h.station id))) : Coherent (h.modify id f) :=
  hh.update (fun _ _ => Iff.rfl) hid hf

variable {log : List (ℕ × List UInt8)} {member : Prop} {st : Station}

/-- A station whose task runs has an id that was given out. -/
theorem Coherent.given (hh : Coherent h) (hp : (h.station id).phase ≠ .absent) :
    id < h.nextId := not_le.mp fun hle => hp (hh.ahead id hle)

theorem Sound.read (hs : Sound log member id st) (hr : st.phase = .reading)
    (hp : st.pending = []) (octets : List UInt8) :
    Sound log member id { st with
      decoder := (st.decoder.push octets).1
      pending := dataPayloads (st.decoder.push octets).2
      taken := st.taken ++ octets } := by
  have hpush : decoded (st.taken ++ octets) = ((st.decoder.push octets).1,
      (decoded st.taken).2 ++ (st.decoder.push octets).2) := by
    rw [decoded, push_append, hs.decoder]
    rfl
  have hspoken : saidBy id log = dataPayloads (decoded st.taken).2 := by
    have := hs.spoken
    rwa [hp, List.append_nil] at this
  refine { hs with decoder := by rw [hpush], spoken := ?_, fresh := by simp [hr] }
  rw [hpush, hspoken]
  simp [dataPayloads]

theorem Sound.wires_empty (hs : Sound log member id st)
    (hp : st.phase = .absent ∨ st.phase = .starting) :
    st.written = [] ∧ st.writing = [] ∧ st.queue = [] := by
  obtain ⟨hspan, hwriter, -⟩ := hs.fresh hp
  obtain ⟨hqueue, hwriting⟩ := hs.gone hwriter
  have hw := hs.wire
  rw [hspan, hqueue, hwriting] at hw
  have hnil : st.written = [] := by simpa [heardBy, window_never] using hw
  exact ⟨hnil, hwriting, hqueue⟩

/-- Who enters the map has heard nothing. -/
theorem Sound.enter (hs : Sound log member id st) (hp : st.phase = .starting) :
    Sound log True id { st with phase := .reading, writer := true, span := .since log.length } := by
  obtain ⟨hwritten, hwriting, hqueue⟩ := hs.wires_empty (.inr hp)
  have hheard : heardBy id (.since log.length) log = [] := by simp [heardBy, window_since]
  exact { hs with
    within := Span.within_since _
    member := by simp [Span.since]
    fresh := by simp
    gone := by simp
    wire := by simp [hheard, hwritten, hwriting, hqueue]
    whole := by simp [hheard, hwritten, hwriting, hqueue] }

/-- A station with a writer that lives has been accepted. -/
theorem Sound.present (hs : Sound log member id st) (h : st.writer = true ∨ st.writing ≠ []) :
    st.phase ≠ .absent := by
  intro hp
  have hwriter := (hs.fresh (.inl hp)).2.1
  rcases h with h | h
  · simp [hwriter] at h
  · exact h (hs.gone hwriter).2

theorem Sound.setPhase (hs : Sound log member id st) (p : Phase) (hp : p ≠ .absent)
    (hq : p = .starting → st.phase = .absent) : Sound log member id { st with phase := p } :=
  { hs with fresh := fun h => hs.fresh (.inl (h.elim (fun ha => absurd ha hp) hq)) }

theorem Sound.remove (hs : Sound log member id st) :
    Sound log False id { st with phase := .removed, span := st.span.close log.length } := by
  exact { hs with
    within := hs.within.close
    member := by simp [Span.close]
    fresh := by simp
    wire := by simpa only [heardBy_close] using hs.wire
    whole := by simpa only [heardBy_close] using hs.whole }

theorem Sound.endWriter (hs : Sound log member id st) :
    Sound log member id { st with writer := false, queue := [], writing := [] } :=
  { hs with
    fresh := fun hp => ⟨(hs.fresh hp).1, rfl, (hs.fresh hp).2.2⟩
    gone := fun _ => ⟨rfl, rfl⟩
    wire := by
      have := (List.prefix_append st.written (st.writing ++ st.queue.flatten)).trans hs.wire
      simpa using this
    whole := by simp
    room := Nat.zero_le _
    short := by simp }

theorem Sound.receive (hs : Sound log member id st) (hw : st.writer = true) (hn : st.writing = [])
    (hq : st.queue ≠ []) :
    Sound log member id { st with queue := st.queue.tail, writing := st.queue.headD [] } := by
  obtain ⟨w, queue, hqueue⟩ := List.exists_cons_of_ne_nil hq
  have hsame : st.queue.headD [] ++ st.queue.tail.flatten = st.writing ++ st.queue.flatten := by
    simp [hqueue, hn]
  exact { hs with
    gone := fun h => by simp [hw] at h
    wire := by simpa only [hsame] using hs.wire
    whole := by simpa only [hsame] using hs.whole
    room := by
      have := hs.room
      simp only [hqueue, List.length_cons, List.tail_cons] at this ⊢
      omega
    short := by
      have := hs.short
      simp only [hqueue, List.headD_cons, List.tail_cons] at this ⊢
      exact fun v hv => this v (List.mem_cons_of_mem _ hv) }

theorem Sound.write (hs : Sound log member id st) (n : ℕ) :
    Sound log member id { st with
      writing := st.writing.drop n
      written := st.written ++ st.writing.take n } := by
  have hsame : st.written ++ st.writing.take n ++ (st.writing.drop n ++ st.queue.flatten) =
      st.written ++ (st.writing ++ st.queue.flatten) := by
    rw [List.append_assoc, ← List.append_assoc (st.writing.take n), List.take_append_drop]
  exact { hs with
    gone := fun h => ⟨(hs.gone h).1, by simp [(hs.gone h).2]⟩
    wire := by simpa only [hsame] using hs.wire
    whole := by simpa only [hsame] using hs.whole
    short := by
      obtain ⟨hwriting, hqueue⟩ := List.forall_mem_cons.mp hs.short
      refine List.forall_mem_cons.mpr ⟨?_, hqueue⟩
      rw [List.length_drop]
      omega }

/-! ### A frame is relayed -/

variable {payload : List UInt8} {other : ℕ}

/-- The station whose frame it is. -/
theorem Sound.speak (hs : Sound log member id st) {rest : List (List UInt8)}
    (hp : st.pending = payload :: rest) :
    Sound (log ++ [(id, payload)]) member id { st with pending := rest } where
  decoder := hs.decoder
  spoken := by
    rw [saidBy_self, ← hs.spoken, hp]
    simp
  within := hs.within.mono (by simp)
  member := hs.member
  fresh := hs.fresh
  gone := hs.gone
  wire := by simpa only [heardBy_self id hs.within] using hs.wire
  whole := by simpa only [heardBy_self id hs.within] using hs.whole
  room := hs.room
  short := hs.short

/-- A station out of the map. -/
theorem Sound.deaf (hs : Sound log member other st) (hne : id ≠ other) (hm : ¬ member) :
    Sound (log ++ [(id, payload)]) member other st := by
  have hleft : st.span.left ≠ none := fun h => hm (hs.member.mpr h)
  exact { hs with
    spoken := by rw [saidBy_other hne]; exact hs.spoken
    within := hs.within.mono (by simp)
    wire := by simpa only [heardBy_left other hs.within hleft] using hs.wire
    whole := by simpa only [heardBy_left other hs.within hleft] using hs.whole }

/-- One that is dropped. -/
theorem Sound.drop (hs : Sound log member other st) (hne : id ≠ other) (hm : member) :
    Sound (log ++ [(id, payload)]) False other
      { st with span := st.span.close log.length } := by
  have hfresh : ¬ (st.phase = .absent ∨ st.phase = .starting) := by
    intro hp
    have := hs.member.mp hm
    simp [(hs.fresh hp).1, Span.never] at this
  have hclosed : Sound log False other { st with span := st.span.close log.length } :=
    { hs with
      within := hs.within.close
      member := by simp [Span.close]
      fresh := fun hp => absurd hp hfresh
      wire := by simpa only [heardBy_close] using hs.wire
      whole := by simpa only [heardBy_close] using hs.whole }
  exact hclosed.deaf hne not_false

/-- One that hears it. -/
theorem Sound.hear (hs : Sound log member other st) (hne : id ≠ other) (hm : member)
    (ht : st.takes = true) (hp : payload.length + 1 ≤ maxFrame) :
    Sound (log ++ [(id, payload)]) member other
      { st with queue := st.queue ++ [encode 0 cmdData payload] } := by
  obtain ⟨hwriter, hroom⟩ : st.writer = true ∧ st.queue.length < clientQueue := by
    simpa [Station.takes] using ht
  have hheard := heardBy_follow hs.within (hs.member.mp hm) hne payload
  have hwhole : st.written ++ (st.writing ++ (st.queue ++ [encode 0 cmdData payload]).flatten) =
      encodes (heardBy other st.span (log ++ [(id, payload)])) := by
    rw [hheard, encodes_concat, ← hs.whole hwriter]
    simp [List.append_assoc]
  exact { hs with
    spoken := by rw [saidBy_other hne]; exact hs.spoken
    within := hs.within.mono (by simp)
    gone := fun h => by simp [hwriter] at h
    wire := hwhole ▸ List.prefix_rfl
    whole := fun _ => hwhole
    room := by
      rw [List.length_append, List.length_singleton]
      omega
    short := by
      obtain ⟨hwriting, hqueue⟩ := List.forall_mem_cons.mp hs.short
      refine List.forall_mem_cons.mpr ⟨hwriting, fun w hw => ?_⟩
      rcases List.mem_append.mp hw with hw | hw
      · exact hqueue w hw
      · rw [List.mem_singleton.mp hw]
        exact encode_length hp }

theorem decoded_bounded (octets : List UInt8) :
    Bounded (decoded octets).1 ∧ ∀ f ∈ (decoded octets).2, f.payload.length + 1 ≤ maxFrame :=
  (push_bounded (d := .new maxFrame) (Nat.zero_le _) octets).2

theorem Sound.spoken_short (hs : Sound log member id st) {p : List UInt8}
    (hp : p ∈ saidBy id log ++ st.pending) : p.length + 1 ≤ maxFrame := by
  rw [hs.spoken] at hp
  simp only [dataPayloads, List.mem_map, List.mem_filter] at hp
  obtain ⟨f, ⟨hf, -⟩, rfl⟩ := hp
  exact (decoded_bounded st.taken).2 f hf

theorem Coherent.relay (hh : Coherent h) (hid : (h.station id).phase ≠ .absent) :
    Coherent (h.relay id) := by
  unfold Hub.relay
  cases hp : (h.station id).pending with
  | nil => exact hh
  | cons payload rest =>
    have hshort : payload.length + 1 ≤ maxFrame := (hh.station id).spoken_short (by simp [hp])
    dsimp only
    refine ⟨fun other hle => ?_, fun other => ?_⟩
    · have hne : other ≠ id := by
        rintro rfl
        exact hid (hh.ahead other hle)
      rw [modify_station_other hne]
      dsimp only
      split_ifs <;> exact hh.ahead other hle
    · by_cases hne : other = id
      · subst hne
        have hself := (hh.station other).speak hp
        rw [modify_station_self]
        simpa [Hub.modify] using hself
      · have hs := hh.station other
        rw [modify_station_other hne]
        simp only [Hub.modify, hne, or_false, false_or, List.mem_filter, decide_eq_true_eq]
        by_cases hm : other ∈ h.clients
        · by_cases ht : (h.station other).takes = true
          · simpa [hm, ht] using hs.hear (Ne.symm hne) hm ht hshort
          · simpa [hm, ht] using hs.drop (Ne.symm hne) hm
        · simpa [hm] using hs.deaf (Ne.symm hne) hm

theorem Coherent.accept (hh : Coherent h) : Coherent h.accept := by
  unfold Hub.accept
  split_ifs with hfull
  · exact hh
  · have habsent := hh.ahead h.nextId le_rfl
    refine ⟨fun other hle => ?_, fun other => ?_⟩
    · have hle' : h.nextId + 1 ≤ other := hle
      rw [modify_station_other (by omega)]
      exact hh.ahead other (by omega)
    · by_cases hne : other = h.nextId
      · subst hne
        rw [modify_station_self]
        exact (hh.station h.nextId).setPhase .starting (by simp) fun _ => habsent
      · rw [modify_station_other hne]
        exact hh.station other

theorem Coherent.enter (hh : Coherent h) (hp : (h.station id).phase = .starting) :
    Coherent (h.enter id) := by
  have hothers : ∀ other ≠ id, other ∈ h.clients ↔ other ∈ h.clients ++ [id] := by
    intro other hne
    simp [hne]
  have hentered := (hh.station id).enter hp
  unfold Hub.enter
  refine hh.update hothers (by simp [hp]) ?_
  simpa using hentered

theorem Coherent.remove (hh : Coherent h) (hp : (h.station id).phase = .leaving) :
    Coherent (h.remove id) := by
  have hothers : ∀ other ≠ id, other ∈ h.clients ↔ other ∈ h.clients.filter (· ≠ id) := by
    intro other hne
    simp [hne]
  have hremoved := (hh.station id).remove
  unfold Hub.remove
  refine hh.update hothers (by simp [hp]) ?_
  simpa using hremoved

theorem Coherent.endWriter (hh : Coherent h) (hp : (h.station id).phase ≠ .absent) :
    Coherent (h.endWriter id) := hh.modify hp (hh.station id).endWriter

theorem Coherent.abort (hh : Coherent h) (hp : (h.station id).phase = .removed) :
    Coherent (h.abort id) := by
  have hended : Coherent (h.endWriter id) := hh.endWriter (by simp [hp])
  have hstill : ((h.endWriter id).station id).phase = .removed := by simp [Hub.endWriter, hp]
  unfold Hub.abort
  exact hended.modify (by simp [hstill]) ((hended.station id).setPhase .gone (by simp) (by simp))

theorem Coherent.read (hh : Coherent h) (hp : (h.station id).phase = .reading)
    (hnone : (h.station id).pending = []) (octets : List UInt8) : Coherent (h.read id octets) := by
  unfold Hub.read
  exact hh.modify (by simp [hp]) ((hh.station id).read hp hnone octets)

theorem Coherent.hangUp (hh : Coherent h) (hp : (h.station id).phase = .reading) :
    Coherent (h.hangUp id) := by
  unfold Hub.hangUp
  exact hh.modify (by simp [hp]) ((hh.station id).setPhase .leaving (by simp) (by simp))

theorem Coherent.receive (hh : Coherent h) (hw : (h.station id).writer = true)
    (hn : (h.station id).writing = []) (hq : (h.station id).queue ≠ []) :
    Coherent (h.receive id) := by
  unfold Hub.receive
  exact hh.modify ((hh.station id).present (.inl hw)) ((hh.station id).receive hw hn hq)

theorem Coherent.write (hh : Coherent h) (hw : (h.station id).writing ≠ []) (n : ℕ) :
    Coherent (h.write id n) := by
  unfold Hub.write
  exact hh.modify ((hh.station id).present (.inr hw)) ((hh.station id).write n)

theorem Coherent.step (hh : Coherent h) {e : Event} (he : Enabled h e) : Coherent (h.next e) := by
  cases e with
  | accept => exact hh.accept
  | enter id => exact hh.enter he
  | read id octets => exact hh.read he.1 he.2.1 octets
  | relay id => exact hh.relay (by simp [he.1])
  | hangUp id => exact hh.hangUp he.1
  | remove id => exact hh.remove he
  | abort id => exact hh.abort he
  | receive id => exact hh.receive he.1 he.2.1 he.2.2
  | write id n => exact hh.write (List.length_pos_iff.mp (he.1.trans_le he.2)) n
  | writerFails id => exact hh.endWriter ((hh.station id).present (.inr he))
  | writerDone id => exact hh.endWriter ((hh.station id).present (.inl he.1))

theorem reachable_coherent {guard : Hub → Event → Prop} (hr : Reachable system guard h) :
    Coherent h := by
  refine (Inductive.ofNext ?_ ?_).reachable hr
  · rintro _ rfl
    exact coherent_new
  · intro h e hh _ he
    exact hh.step he

/-! ### The channel as a whole -/

def dataFrame (payload : List UInt8) : KissFrame := ⟨0, cmdData, payload⟩

theorem encodes_eq (payloads : List (List UInt8)) :
    encodes payloads = (payloads.map dataFrame).flatMap KissFrame.encode := by
  rw [List.flatMap_map]
  rfl

theorem dataFrame_fits {size : ℕ} {payload : List UInt8} (h : payload.length + 1 ≤ size) :
    Fits size (dataFrame payload) :=
  ⟨(by decide : (0 : UInt8) < 16), (by decide : cmdData < 16), h⟩

theorem push_frames {size : ℕ} (frames : List KissFrame) (h : ∀ f ∈ frames, Fits size f) :
    ((KissDecoder.new size).push (frames.flatMap KissFrame.encode)).2 = frames := by
  cases frames with
  | nil => rfl
  | cons f frames =>
    obtain ⟨hfirst, hrest⟩ := List.forall_mem_cons.mp h
    have hpush : (KissDecoder.new size).push f.encode = (reading size [], [] ++ [f]) :=
      push_encode hfirst
    rw [List.flatMap_cons, push_append, hpush]
    simp only [push_encodes frames hrest, List.nil_append, List.singleton_append]

/-- Of a stream that breaks off, the frames that are whole. -/
theorem push_frames_prefix {size : ℕ} {frames : List KissFrame} {octets : List UInt8}
    (h : ∀ f ∈ frames, Fits size f) (ho : octets <+: frames.flatMap KissFrame.encode) :
    ((KissDecoder.new size).push octets).2 <+: frames := by
  obtain ⟨rest, hrest⟩ := ho
  have hall := push_frames frames h
  rw [← hrest, push_append] at hall
  rw [← hall]
  exact List.prefix_append _ _

/-- Nothing came of a station that was not accepted. -/
theorem Coherent.taken_ahead (hh : Coherent h) (hid : h.nextId ≤ id) : (h.station id).taken = [] :=
  ((hh.station id).fresh (.inl (hh.ahead id hid))).2.2

theorem Coherent.heard_short (hh : Coherent h) (b : ℕ) (w : Span) :
    ∀ p ∈ heardBy b w h.log, p.length + 1 ≤ maxFrame := by
  intro p hp
  obtain ⟨a, -, ha⟩ := mem_heardBy hp
  refine (hh.station a).spoken_short (List.mem_append_left _ ?_)
  exact List.mem_map.mpr ⟨(a, p), List.mem_filter.mpr ⟨ha, by simp⟩, rfl⟩

/-- Every client that reads what it is sent gets, each whole and in the order of the channel, the
data frames that the others put on the channel while it was on it; and what a client puts on the
channel is what comes out of its own octets, whatever the others send. -/
theorem stations_hear_the_channel {h : Hub} (hr : Reachable system (fun _ _ => True) h) (b : ℕ)
    {size : ℕ} (hsize : maxFrame ≤ size) (chunks : List (List UInt8))
    (hchunks : chunks.flatten = (h.station b).written) :
    let st := h.station b
    let heard := (heardBy b st.span h.log).map dataFrame
    let got := ((KissDecoder.new size).pushChunks chunks).2
    got <+: heard ∧
      (st.writer = true → st.writing = [] → st.queue = [] → got = heard) ∧
      (b ∈ h.clients ↔ st.span.left = none) ∧
      ∀ a, saidBy a h.log ++ (h.station a).pending =
        dataPayloads ((KissDecoder.new maxFrame).push (h.station a).taken).2 := by
  have hh := reachable_coherent hr
  have hb := hh.station b
  have hfits : ∀ f ∈ (heardBy b (h.station b).span h.log).map dataFrame, Fits size f := by
    intro f hf
    obtain ⟨p, hp, rfl⟩ := List.mem_map.mp hf
    exact dataFrame_fits ((hh.heard_short b _ p hp).trans hsize)
  dsimp only
  rw [pushChunks_flatten, hchunks]
  refine ⟨?_, fun hwriter hwriting hqueue => ?_, hb.member, fun a => (hh.station a).spoken⟩
  · have hwire := (List.prefix_append _ _).trans hb.wire
    rw [encodes_eq] at hwire
    exact push_frames_prefix hfits hwire
  · have hwhole := hb.whole hwriter
    rw [hwriting, hqueue] at hwhole
    simp only [List.flatten_nil, List.append_nil] at hwhole
    rw [hwhole, encodes_eq]
    exact push_frames _ hfits

/-- Station 1 sends the start of a frame, noise and a parameter of its TNC, then a frame; it is
read by station 2 in two pieces. -/
def twoStations : List Event :=
  [.accept, .accept, .enter 2, .enter 1, .read 1 [fend, 0, 0x41], .read 1 [0xFF, fend, 1, 40, fend],
    .relay 1, .read 1 (encode 3 cmdData [fend]), .receive 2, .relay 1, .write 2 3, .write 2 2,
    .receive 2, .write 2 5]

def afterTwoStations : Hub := twoStations.foldl Hub.next .new

theorem stations_hear_the_channel_noise :
    ((KissDecoder.new maxFrame).pushChunks [[fend, 0, 0x41, 0xFF, fend, fend], [0, fesc, tfend, fend]]).2 =
      [dataFrame [0x41, 0xFF], dataFrame [fend]] := by
  have hr : Reachable system (fun _ _ => True) afterTwoStations :=
    (Reachable.initial rfl).run (by decide +kernel)
  have hwritten : [[fend, 0, 0x41, 0xFF, fend, fend], [0, fesc, tfend, fend]].flatten =
      (afterTwoStations.station 2).written := by decide +kernel
  have h := (stations_hear_the_channel hr 2 le_rfl _ hwritten).2.1 (by decide +kernel)
    (by decide +kernel) (by decide +kernel)
  rw [h]
  decide +kernel

/-! ### What the channel costs -/

/-- The tasks that were spawned and are not in the map yet. -/
def Hub.starting (h : Hub) : Finset ℕ :=
  (Finset.range h.nextId).filter fun id => (h.station id).phase = .starting

/-- When a connection is accepted, at most `k` tasks are on their way into the map. -/
def Settled (k : ℕ) (h : Hub) : Event → Prop
  | .accept => h.starting.card ≤ k
  | _ => True

instance (k : ℕ) (h : Hub) (e : Event) : Decidable (Settled k h e) := by
  induction e using Event.casesOn <;> dsimp only [Settled] <;> infer_instance

theorem starting_modify
    (hf : (f (h.station id)).phase = .starting → (h.station id).phase = .starting)
    (other : ℕ) (hs : ((h.modify id f).station other).phase = .starting) :
    (h.station other).phase = .starting := by
  by_cases hne : other = id
  · subst hne
    rw [modify_station_self] at hs
    exact hf hs
  · rwa [modify_station_other hne] at hs

/-- A step that spawns nothing and lets no client in. -/
theorem occupancy_le {g : Hub} (hn : g.nextId = h.nextId)
    (hc : g.clients.length ≤ h.clients.length)
    (hs : ∀ id, (g.station id).phase = .starting → (h.station id).phase = .starting) :
    g.clients.length + g.starting.card ≤ h.clients.length + h.starting.card := by
  have hsub : g.starting ⊆ h.starting := by
    intro id hid
    simp only [Hub.starting, Finset.mem_filter] at hid ⊢
    exact ⟨hn ▸ hid.1, hs id hid.2⟩
  exact Nat.add_le_add hc (Finset.card_le_card hsub)

theorem modify_occupancy
    (hf : (f (h.station id)).phase = .starting → (h.station id).phase = .starting) :
    (h.modify id f).clients.length + (h.modify id f).starting.card ≤
      h.clients.length + h.starting.card := occupancy_le rfl le_rfl (starting_modify hf)

theorem accept_occupancy {k : ℕ} (hk : h.starting.card ≤ k)
    (hle : h.clients.length + h.starting.card ≤ maxStations + k) :
    h.accept.clients.length + h.accept.starting.card ≤ maxStations + k := by
  unfold Hub.accept
  split_ifs with hfull
  · exact hle
  · have hsub : ({ h with nextId := h.nextId + 1 }.modify h.nextId
        fun st => { st with phase := .starting }).starting ⊆ insert h.nextId h.starting := by
      intro id hid
      simp only [Hub.starting, Finset.mem_filter, Finset.mem_range, Finset.mem_insert] at hid ⊢
      by_cases hne : id = h.nextId
      · exact .inl hne
      · obtain ⟨hlt, hphase⟩ := hid
        rw [modify_station_other hne] at hphase
        have hlt' : id < h.nextId + 1 := hlt
        exact .inr ⟨by omega, hphase⟩
    have hcard := (Finset.card_le_card hsub).trans (Finset.card_insert_le _ _)
    have hclients : h.clients.length < maxStations := not_le.mp hfull
    change h.clients.length + _ ≤ _
    omega

theorem enter_occupancy (hh : Coherent h) (hp : (h.station id).phase = .starting) :
    (h.enter id).clients.length + (h.enter id).starting.card =
      h.clients.length + h.starting.card := by
  have hmem : id ∈ h.starting := by
    simp only [Hub.starting, Finset.mem_filter, Finset.mem_range]
    exact ⟨hh.given (by simp [hp]), hp⟩
  have herase : (h.enter id).starting = h.starting.erase id := by
    ext other
    simp only [Hub.starting, Finset.mem_filter, Finset.mem_erase]
    by_cases hne : other = id
    · subst hne
      simp [Hub.enter]
    · simp [Hub.enter, Hub.modify, hne]
  have hpos := Finset.card_pos.mpr ⟨id, hmem⟩
  rw [herase, Finset.card_erase_of_mem hmem]
  simp only [Hub.enter, Hub.modify, List.length_append, List.length_singleton]
  omega

theorem relay_occupancy (h : Hub) (id : ℕ) :
    (h.relay id).clients.length + (h.relay id).starting.card ≤
      h.clients.length + h.starting.card := by
  unfold Hub.relay
  cases (h.station id).pending with
  | nil => exact le_rfl
  | cons payload rest =>
    refine occupancy_le rfl (List.length_filter_le _ _) fun other hs => ?_
    by_cases hne : other = id
    · subst hne
      simpa using hs
    · rw [modify_station_other hne] at hs
      dsimp only at hs
      split_ifs at hs <;> exact hs

theorem remove_occupancy (h : Hub) (id : ℕ) :
    (h.remove id).clients.length + (h.remove id).starting.card ≤
      h.clients.length + h.starting.card := by
  unfold Hub.remove
  exact occupancy_le rfl (List.length_filter_le _ _) (starting_modify (by simp))

theorem next_occupancy (hh : Coherent h) {e : Event} (he : Enabled h e) (hne : e ≠ .accept) :
    (h.next e).clients.length + (h.next e).starting.card ≤ h.clients.length + h.starting.card := by
  cases e with
  | accept => exact absurd rfl hne
  | enter id => exact (enter_occupancy hh he).le
  | read id octets =>
    unfold Hub.next Hub.read
    exact modify_occupancy (by simp)
  | relay id => exact relay_occupancy h id
  | hangUp id =>
    unfold Hub.next Hub.hangUp
    exact modify_occupancy (by simp)
  | remove id => exact remove_occupancy h id
  | abort id =>
    unfold Hub.next Hub.abort Hub.endWriter
    exact (modify_occupancy (by simp)).trans (modify_occupancy (by simp))
  | receive id =>
    unfold Hub.next Hub.receive
    exact modify_occupancy (by simp)
  | write id n =>
    unfold Hub.next Hub.write
    exact modify_occupancy (by simp)
  | writerFails id =>
    unfold Hub.next Hub.endWriter
    exact modify_occupancy (by simp)
  | writerDone id =>
    unfold Hub.next Hub.endWriter
    exact modify_occupancy (by simp)

theorem step_occupancy {k : ℕ} (hh : Coherent h) {e : Event} (hg : Settled k h e)
    (he : Enabled h e) (hle : h.clients.length + h.starting.card ≤ maxStations + k) :
    (h.next e).clients.length + (h.next e).starting.card ≤ maxStations + k := by
  by_cases hne : e = .accept
  · subst hne
    exact accept_occupancy hg hle
  · exact (next_occupancy hh he hne).trans hle

theorem flatten_length {ws : List (List UInt8)} {n : ℕ} (h : ∀ w ∈ ws, w.length ≤ n) :
    ws.flatten.length ≤ ws.length * n := by
  induction ws with
  | nil => simp
  | cons w ws ih =>
    obtain ⟨hw, hws⟩ := List.forall_mem_cons.mp h
    have := ih hws
    rw [List.flatten_cons, List.length_append, List.length_cons, Nat.succ_mul]
    omega

/-- Whatever the clients send and however slowly they read, the map holds no more than the cap and
the tasks that were on their way into it when a connection was accepted, and no client costs more
than its queue, the frame in its writer's hands and the frame its decoder reads. -/
theorem channel_is_bounded (k : ℕ) {h : Hub} (hr : Reachable system (Settled k) h) :
    h.clients.length + h.starting.card ≤ maxStations + k ∧
      ∀ id, (h.station id).queue.length ≤ clientQueue ∧
        ((h.station id).writing :: (h.station id).queue).flatten.length ≤
          (clientQueue + 1) * largestWire ∧
        (h.station id).decoder.buf.length ≤ maxFrame := by
  have hinductive : Inductive system (Settled k) fun h =>
      Coherent h ∧ h.clients.length + h.starting.card ≤ maxStations + k := by
    refine Inductive.ofNext ?_ ?_
    · rintro _ rfl
      exact ⟨coherent_new, Nat.zero_le _⟩
    · intro h e hh hg he
      exact ⟨hh.1.step he, step_occupancy hh.1 hg he hh.2⟩
  obtain ⟨hh, hle⟩ := hinductive.reachable hr
  refine ⟨hle, fun id => ?_⟩
  have hs := hh.station id
  refine ⟨hs.room, ?_, ?_⟩
  · refine (flatten_length hs.short).trans (Nat.mul_le_mul_right _ ?_)
    exact Nat.succ_le_succ hs.room
  · have hbounded := (decoded_bounded (h.station id).taken).1
    have hmax := (push_bounded (d := .new maxFrame) (Nat.zero_le _) (h.station id).taken).1
    rw [hs.decoder]
    exact hbounded.trans_eq hmax

/-- Two connections accepted before the first of them is in the map. -/
theorem channel_is_bounded_two :
    (afterTwoStations.clients.length + afterTwoStations.starting.card ≤ maxStations + 1) ∧
      ∀ id, (afterTwoStations.station id).queue.length ≤ clientQueue ∧
        ((afterTwoStations.station id).writing ::
          (afterTwoStations.station id).queue).flatten.length ≤ (clientQueue + 1) * largestWire ∧
        (afterTwoStations.station id).decoder.buf.length ≤ maxFrame :=
  channel_is_bounded 1 ((Reachable.initial rfl).run (by decide +kernel))

end VirtualChannel
