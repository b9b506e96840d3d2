import Rfircd.FragmentBuffers
import Rfircd.RecentWindow
import Rfircd.TransitionSystem

/-! What the gateway hands over of one station's messages.
The channel loses, repeats and reorders frames at will: a frame of any message sent so far may
arrive at any time. -/
namespace AtMostOnce

open Basics Airc AircSession FragmentBuffers KeyedTable TransitionSystem RecentWindow

/-- What happens to the memory of a station, newest first in a log. A HELLO that was delivered
before is handed over again. -/
inductive Entry where
  | delivered (f : AircFrame)
  | again (f : AircFrame)
  | reset
  | removed
  deriving DecidableEq

/-- `holder` is the message that a number was last received for. -/
structure Reception where
  sessions : Sessions
  sent : List Message
  holder : UInt16 → Option Message
  log : List Entry

/-- Everything else that touches the table of stations. -/
inductive Other where
  | heard (call : Callsign) (f : AircFrame) (now : ℕ) (addressedToUs : Bool)
  | heardAprs (call : Callsign) (now : ℕ)
  | enqueue (dst : Callsign) (kind : Kind) (payload : List UInt8) (reliable : Bool) (now : ℕ)
  | drainAcks
  | tick (now : ℕ) (retry : Bool)
  | keyed (dest : Callsign) (seq : UInt16) (now : ℕ)
  | forget (call : Callsign)

inductive Event where
  | send (m : Message)
  | receive (m : Message) (f : AircFrame) (now : ℕ) (addressedToUs : Bool)
  | acknowledge (octets : List UInt8) (now : ℕ) (addressedToUs : Bool)
  | other (e : Other)

namespace Other

def apply (s : Sessions) : Other → Sessions
  | .heard call f now addressedToUs => (s.onReceive call f now addressedToUs).1
  | .heardAprs call now =>
    match s.touched call now with
    | some p => s.store call p.noteAprs
    | none => s
  | .enqueue dst kind payload reliable now => (s.enqueue dst kind payload reliable now).1
  | .drainAcks => s.drainAcks.1
  | .tick now retry => (s.tickRetries now retry).1
  | .keyed dest seq now => s.onKeyed dest seq now
  | .forget call => s.forget call

end Other

/-- A HELLO with an epoch other than the one remembered. -/
def Resets (p : Peer) (f : AircFrame) : Prop := f.kind = .hello ∧ helloEpoch f ≠ p.epoch

instance (p : Peer) (f : AircFrame) : Decidable (Resets p f) := inferInstanceAs (Decidable (_ ∧ _))

/-- What is handed over, by a station with that memory. -/
def handed (p : Peer) : Option AircFrame → List Entry
  | none => []
  | some d => if d.seq ∈ p.seen then [.again d] else [.delivered d]

/-- What the reception of a frame adds to the log. -/
def entries (s : Sessions) (src : Callsign) (f : AircFrame) (now : ℕ) (addressedToUs : Bool) :
    List Entry :=
  if (s.touched src now).isNone then []
  else
    handed (helloReset (s.record src) f) (s.onReceive src f now addressedToUs).2.deliver ++
      if Resets (s.record src) f then [.reset] else []

namespace Reception

variable (src : Callsign)

/-- One frame, from its octets. -/
def receiveOctets (r : Reception) (octets : List UInt8) (now : ℕ) (addressedToUs : Bool) :
    Reception :=
  match AircFrame.decode octets with
  | .error _ => r
  | .ok f => { r with
      sessions := (r.sessions.onReceive src f now addressedToUs).1
      log := entries r.sessions src f now addressedToUs ++ r.log }

def next (r : Reception) : Event → Reception
  | .send m => { r with sent := m :: r.sent }
  | .receive m f now addressedToUs =>
    { r with holder := fun seq => if seq = m.seq then some m else r.holder seq }.receiveOctets
      src f.encode now addressedToUs
  | .acknowledge octets now addressedToUs => r.receiveOctets src octets now addressedToUs
  | .other e => { r with
      sessions := e.apply r.sessions
      log := if (r.sessions.peer src).isSome ∧ ((e.apply r.sessions).peer src).isNone
        then .removed :: r.log else r.log }

end Reception

/-- Frames of the station are those of its messages, whatever their flags and with or without
an acknowledgement on them, and its acknowledgements. -/
def Enabled (src : Callsign) (r : Reception) : Event → Prop
  | .send m => m.Valid
  | .receive m f _ _ => m ∈ r.sent ∧ m.IsFragment f
  | .acknowledge octets _ _ =>
    match AircFrame.decode octets with
    | .ok f => f.kind = .ack
    | .error _ => True
  | .other (.heard call _ _ _) => call ≠ src
  | .other _ => True

def initial (cfg : SessionConfig) : Reception := ⟨.new cfg, [], fun _ => none, []⟩

def system (cfg : SessionConfig) (src : Callsign) : System Reception Event :=
  .ofNext (· = initial cfg) (Enabled src) (Reception.next src)

/-- The number of a message that arrives is not one under which another message is being
reassembled. -/
def NumberNotReused (src : Callsign) (r : Reception) : Event → Prop
  | .receive m f _ _ =>
    m.seq ∈ (helloReset (r.sessions.record src) f).reasm.keys → r.holder m.seq = some m
  | _ => True

/-! ### What a reception does to the memory -/

section

variable {cfg : SessionConfig} {p q : Peer} {f : AircFrame} {now : ℕ} {addressedToUs : Bool}

theorem evictReasm_congr (h : q.reasm = p.reasm) (seq : UInt16) (maxReasm : ℕ) :
    evictReasm q seq maxReasm = evictReasm p seq maxReasm := by
  rw [evictReasm, h, evictReasm]

theorem stored_congr (h : q.reasm = p.reasm) :
    stored cfg q f now addressedToUs = stored cfg p f now addressedToUs := by
  simp only [stored, evictReasm_congr h]

theorem helloReset_congr (hs : SameInbox p q) (he : q.epoch = p.epoch) (f : AircFrame) :
    (helloReset q.noteAirc f).seen = (helloReset p f).seen ∧
      (helloReset q.noteAirc f).reasm = (helloReset p f).reasm := by
  have hnote : q.noteAirc.epoch = p.epoch := he
  rw [helloReset, helloReset, hnote]
  split_ifs
  · exact ⟨rfl, rfl⟩
  · exact ⟨hs.seen, hs.reasm⟩

/-- Nothing new is remembered: the frame is dropped or kept as a part. -/
def Quiet (cfg : SessionConfig) (p : Peer) (f : AircFrame) (now : ℕ) (addressedToUs : Bool)
    (q : Peer) (deliver : Option AircFrame) : Prop :=
  q.seen = p.seen ∧ deliver = none ∧
    (q.reasm = p.reasm ∨ f.kind ≠ .ack ∧
      q.reasm = (evictReasm p f.seq cfg.maxReasm).set f.seq (stored cfg p f now addressedToUs))

def HelloAgain (p : Peer) (f : AircFrame) (q : Peer) (deliver : Option AircFrame) : Prop :=
  q.seen = p.seen ∧ q.reasm = p.reasm ∧ f.seq ∈ p.seen ∧ f.kind = .hello ∧ deliver = some f

/-- A message that is not remembered is handed over, and remembered from now on. -/
def HandsOver (cfg : SessionConfig) (p : Peer) (f : AircFrame) (now : ℕ) (addressedToUs : Bool)
    (q : Peer) (deliver : Option AircFrame) : Prop :=
  f.kind ≠ .ack ∧ f.seq ∉ p.seen ∧ q.seen = push cfg.dedupWindow p.seen f.seq ∧
    (f.fragTotal = 1 ∧ deliver = some f ∧ q.reasm = p.reasm ∨
      (stored cfg p f now addressedToUs).complete = true ∧
        deliver = some ((stored cfg p f now addressedToUs).message f.seq) ∧
        q.reasm = (evictReasm p f.seq cfg.maxReasm).erase f.seq)

theorem receiveMessage_memory (hk : f.kind ≠ .ack) :
    Quiet cfg p f now addressedToUs (receiveMessage cfg p f now addressedToUs).1
        (receiveMessage cfg p f now addressedToUs).2.1 ∨
      HelloAgain p f (receiveMessage cfg p f now addressedToUs).1
        (receiveMessage cfg p f now addressedToUs).2.1 ∨
      HandsOver cfg p f now addressedToUs (receiveMessage cfg p f now addressedToUs).1
        (receiveMessage cfg p f now addressedToUs).2.1 := by
  have h := receiveMessage_taken cfg p f now addressedToUs
  generalize (receiveMessage cfg p f now addressedToUs).1 = q at h ⊢
  generalize (receiveMessage cfg p f now addressedToUs).2.1 = deliver at h ⊢
  cases h with
  | again _ _ hseen hsame hreasm hdeliver =>
    by_cases hh : f.kind = .hello
    · exact .inr (.inl ⟨hsame, hreasm, hseen, hh, hdeliver.trans (if_pos hh)⟩)
    · exact .inl ⟨hsame, hdeliver.trans (if_neg hh), .inl hreasm⟩
  | single _ hnew ht hpush hreasm =>
    exact .inr (.inr ⟨hk, hnew, hpush, .inl ⟨ht, rfl, hreasm⟩⟩)
  | refused => exact .inl ⟨rfl, rfl, .inl rfl⟩
  | kept _ _ _ _ _ hsame hreasm => exact .inl ⟨hsame, rfl, .inr ⟨hk, hreasm⟩⟩
  | finished _ hnew _ _ hc hpush hreasm =>
    exact .inr (.inr ⟨hk, hnew, hpush, .inr ⟨hc, rfl, hreasm⟩⟩)

theorem receive_memory :
    Quiet cfg (helloReset p.noteAirc f) f now addressedToUs (p.receive cfg f now addressedToUs).1
        (p.receive cfg f now addressedToUs).2.deliver ∨
      HelloAgain (helloReset p.noteAirc f) f (p.receive cfg f now addressedToUs).1
        (p.receive cfg f now addressedToUs).2.deliver ∨
      HandsOver cfg (helloReset p.noteAirc f) f now addressedToUs
        (p.receive cfg f now addressedToUs).1 (p.receive cfg f now addressedToUs).2.deliver := by
  have hpiggy : SameInbox (helloReset p.noteAirc f) (p.piggybacked f) :=
    applyPiggyback_inbox (helloReset p.noteAirc f) f
  by_cases hk : f.kind = .ack
  · left
    rw [receive_of_ack hk]
    cases parseAckPayload f.payload with
    | none => exact ⟨hpiggy.seen, rfl, .inl hpiggy.reasm⟩
    | some ack =>
      have hack := applyAck_inbox (p.piggybacked f) ack.1 ack.2
      exact ⟨hack.seen.trans hpiggy.seen, rfl, .inl (hack.reasm.trans hpiggy.reasm)⟩
  · rw [receive_of_message hk]
    have h := @receiveMessage_memory cfg (p.piggybacked f) f now addressedToUs hk
    rw [Quiet, HelloAgain, HandsOver, stored_congr hpiggy.reasm, evictReasm_congr hpiggy.reasm,
      hpiggy.seen, hpiggy.reasm] at h
    exact h

end

/-! ### The log against the memory -/

/-- What the memory of sequence numbers goes through. -/
def Entry.pushed : Entry → Option (Option UInt16)
  | .delivered f => some (some f.seq)
  | .again _ => none
  | .reset => some none
  | .removed => some none

def history (log : List Entry) : List (Option UInt16) := log.filterMap Entry.pushed

/-- Every buffer holds parts of the message its number was last received for. -/
def Buffered (sent : List Message) (holder : UInt16 → Option Message)
    (reasm : Table UInt16 Reassembly) : Prop :=
  ∀ seq r, reasm.get seq = some r →
    ∃ m ∈ sent, holder seq = some m ∧ m.seq = seq ∧ BufferOf m r

def Whole (sent : List Message) (f : AircFrame) : Prop :=
  ∃ m ∈ sent, f.kind = m.kind ∧ f.seq = m.seq ∧ f.payload = m.parts.flatten

structure Sound (cfg : SessionConfig) (sent : List Message) (holder : UInt16 → Option Message)
    (p : Peer) (log : List Entry) : Prop where
  memory : Remembers cfg.dedupWindow p.seen (history log)
  buffered : Buffered sent holder p.reasm
  again : ∀ f, .again f ∈ log → f.kind = .hello
  whole : ∀ f, .delivered f ∈ log → Whole sent f

section

variable {cfg : SessionConfig} {sent : List Message} {holder : UInt16 → Option Message}
variable {p q : Peer} {log : List Entry} {f : AircFrame}

theorem Sound.congr (h : Sound cfg sent holder p log) (hs : q.seen = p.seen)
    (hr : q.reasm = p.reasm) : Sound cfg sent holder q log :=
  ⟨hs ▸ h.memory, hr ▸ h.buffered, h.again, h.whole⟩

theorem sound_forgotten (h : Sound cfg sent holder p log) {e : Entry} (he : e.pushed = some none)
    (hs : q.seen = []) (hr : q.reasm = .empty) (hd : ∀ f, e ≠ .delivered f ∧ e ≠ .again f) :
    Sound cfg sent holder q (e :: log) where
  memory := by
    rw [hs, history, List.filterMap_cons_some he]
    exact h.memory.clear
  buffered seq r hget := by
    rw [hr] at hget
    simp at hget
  again f hf := by
    rcases List.mem_cons.mp hf with rfl | hf
    · exact absurd rfl (hd f).2
    · exact h.again f hf
  whole f hf := by
    rcases List.mem_cons.mp hf with rfl | hf
    · exact absurd rfl (hd f).1
    · exact h.whole f hf

theorem sound_helloReset (h : Sound cfg sent holder p log) (f : AircFrame) :
    Sound cfg sent holder (helloReset p f) ((if Resets p f then [.reset] else []) ++ log) := by
  by_cases hr : Resets p f
  · rw [if_pos hr, helloReset, if_pos (And.intro hr.1 hr.2)]
    exact sound_forgotten h rfl rfl rfl fun f => ⟨Entry.noConfusion, Entry.noConfusion⟩
  · rw [if_neg hr, helloReset, if_neg fun hc => hr ⟨hc.1, hc.2⟩]
    exact h

/-- The number a fragment arrives under is held by its message, in the buffers as well. -/
theorem Buffered.hold {reasm : Table UInt16 Reassembly} {m : Message}
    (h : Buffered sent holder reasm) (hm : m.seq ∈ reasm.keys → holder m.seq = some m) :
    Buffered sent (fun seq => if seq = m.seq then some m else holder seq) reasm := by
  intro seq r hr
  obtain ⟨m', hm', hh, hs, hof⟩ := h seq r hr
  by_cases hseq : seq = m.seq
  · subst hseq
    have hkey : m.seq ∈ reasm.keys := Table.mem_keys_iff.mpr (by simp [hr])
    rw [hm hkey, Option.some.injEq] at hh
    subst hh
    exact ⟨m, hm', if_pos rfl, rfl, hof⟩
  · exact ⟨m', hm', (if_neg hseq).trans hh, hs, hof⟩

variable {now : ℕ} {addressedToUs : Bool} {deliver : Option AircFrame}

theorem sound_quiet (h : Sound cfg sent holder p log)
    (hq : Quiet cfg p f now addressedToUs q deliver)
    (hf : f.kind ≠ .ack → ∃ m ∈ sent, m.IsFragment f ∧ holder m.seq = some m) :
    Sound cfg sent holder q log := by
  obtain ⟨hs, -, hr | ⟨hk, hr⟩⟩ := hq
  · exact h.congr hs hr
  refine ⟨hs ▸ h.memory, ?_, h.again, h.whole⟩
  obtain ⟨m, hm, hfrag, hhold⟩ := hf hk
  have hbuffer : ∀ r, p.reasm.get f.seq = some r → BufferOf m r := by
    intro r hget
    obtain ⟨m', -, hh, -, hof⟩ := h.buffered f.seq r hget
    rw [hfrag.seq, hhold, Option.some.injEq] at hh
    rwa [hh]
  intro seq r hget
  rw [hr, Table.get_set] at hget
  split_ifs at hget with hseq
  · obtain rfl := Option.some.inj hget
    rw [hseq, hfrag.seq]
    exact ⟨m, hm, hhold, rfl, (stored_of hfrag hbuffer).1⟩
  · exact h.buffered seq r (get_evictReasm hget)

theorem sound_again (h : Sound cfg sent holder p log) (hq : HelloAgain p f q deliver) :
    Sound cfg sent holder q (.again f :: log) where
  memory := by
    rw [hq.1, history, List.filterMap_cons_none rfl]
    exact h.memory
  buffered := by
    rw [hq.2.1]
    exact h.buffered
  again g hg := by
    rcases List.mem_cons.mp hg with heq | hg
    · rw [Entry.again.inj heq]
      exact hq.2.2.2.1
    · exact h.again g hg
  whole g hg := by
    rcases List.mem_cons.mp hg with heq | hg
    · cases heq
    · exact h.whole g hg

theorem sound_handsOver (h : Sound cfg sent holder p log)
    (hq : HandsOver cfg p f now addressedToUs q deliver)
    (hf : ∃ m ∈ sent, m.Valid ∧ m.IsFragment f ∧ holder m.seq = some m) :
    ∃ d, deliver = some d ∧ d.seq = f.seq ∧ Sound cfg sent holder q (.delivered d :: log) := by
  obtain ⟨-, hnew, hseen, hq⟩ := hq
  obtain ⟨m, hm, hv, hfrag, hhold⟩ := hf
  have hbuffer : ∀ r, p.reasm.get f.seq = some r → BufferOf m r := by
    intro r hget
    obtain ⟨m', -, hh, -, hof⟩ := h.buffered f.seq r hget
    rw [hfrag.seq, hhold, Option.some.injEq] at hh
    rwa [hh]
  -- The frame handed over is the message, and no buffer is new.
  have hcase : ∃ d, deliver = some d ∧ d.seq = f.seq ∧ Whole sent d ∧
      ∀ seq r, q.reasm.get seq = some r → p.reasm.get seq = some r := by
    rcases hq with ⟨ht, hd, hr⟩ | ⟨hc, hd, hr⟩
    · refine ⟨f, hd, rfl, ⟨m, hm, hfrag.kind, hfrag.seq, ?_⟩, by rw [hr]; exact fun _ _ h => h⟩
      obtain ⟨d, hd, -, -, hp⟩ := @delivered_single [] f m hv hfrag ht
      obtain rfl : d = f := by simpa using hd
      rw [hp, hv.whole]
    · refine ⟨_, hd, rfl, ⟨m, hm, ?_⟩, ?_⟩
      · have hmsg := message_of_complete hv (stored_of hfrag hbuffer).1 hc f.seq
        exact ⟨hmsg.1, hfrag.seq, by rw [hmsg.2.2, hv.whole]⟩
      · intro seq r hget
        rw [hr, Table.get_erase] at hget
        split_ifs at hget
        exact get_evictReasm hget
  obtain ⟨d, hd, hseq, hwhole, hold⟩ := hcase
  refine ⟨d, hd, hseq, ?_, fun seq r hget => h.buffered seq r (hold seq r hget), ?_, ?_⟩
  · have hp : (Entry.delivered d).pushed = some (some f.seq) := by rw [Entry.pushed, hseq]
    rw [hseen, history, List.filterMap_cons_some hp]
    exact h.memory.push hnew
  · intro g hg
    rcases List.mem_cons.mp hg with heq | hg
    · cases heq
    · exact h.again g hg
  · intro g hg
    rcases List.mem_cons.mp hg with heq | hg
    · rw [Entry.delivered.inj heq]
      exact hwhole
    · exact h.whole g hg

end

/-! ### Steps -/

variable {cfg : SessionConfig} {src : Callsign} {r : Reception}

/-- The invariant of a reception. -/
structure Invariant (cfg : SessionConfig) (src : Callsign) (r : Reception) : Prop where
  config : r.sessions.config = cfg
  valid : ∀ m ∈ r.sent, m.Valid
  sound : Sound cfg r.sent r.holder (r.sessions.record src) r.log

theorem invariant_initial (cfg : SessionConfig) (src : Callsign) :
    Invariant cfg src (initial cfg) where
  config := rfl
  valid m hm := absurd hm List.not_mem_nil
  sound := by
    refine ⟨remembers_nil _, ?_, ?_, ?_⟩
    · intro seq r hr
      simp [initial, Sessions.record, Sessions.peer, Sessions.new, Peer.new] at hr
    · intro f hf
      exact absurd hf List.not_mem_nil
    · intro f hf
      exact absurd hf List.not_mem_nil

theorem sound_received {p q : Peer} {f : AircFrame} {now : ℕ} {addressedToUs : Bool}
    {deliver : Option AircFrame} {log : List Entry} {sent : List Message}
    {holder : UInt16 → Option Message} (h : Sound cfg sent holder p log)
    (hf : f.kind ≠ .ack → ∃ m ∈ sent, m.Valid ∧ m.IsFragment f ∧ holder m.seq = some m)
    (hq : Quiet cfg p f now addressedToUs q deliver ∨ HelloAgain p f q deliver ∨
      HandsOver cfg p f now addressedToUs q deliver) :
    Sound cfg sent holder q (handed p deliver ++ log) := by
  rcases hq with hq | hq | hq
  · rw [hq.2.1]
    refine sound_quiet h hq fun hk => ?_
    obtain ⟨m, hm, -, hfrag, hhold⟩ := hf hk
    exact ⟨m, hm, hfrag, hhold⟩
  · have hagain := sound_again h hq
    obtain ⟨-, -, hseen, -, hd⟩ := hq
    rw [hd, handed, if_pos hseen]
    exact hagain
  · have hnew := hq.2.1
    obtain ⟨d, hd, hseq, hs⟩ := sound_handsOver h hq (hf hq.1)
    rw [hd, handed, hseq, if_neg hnew]
    exact hs

/-- A frame arrives: an acknowledgement, or a fragment of the message that holds its number. -/
theorem Invariant.receive (h : Invariant cfg src r) {holder : UInt16 → Option Message}
    {f : AircFrame} (now : ℕ) (addressedToUs : Bool)
    (hb : Buffered r.sent holder (helloReset (r.sessions.record src) f).reasm)
    (hf : f.kind ≠ .ack → ∃ m ∈ r.sent, m.Valid ∧ m.IsFragment f ∧ holder m.seq = some m) :
    Sound cfg r.sent holder ((r.sessions.onReceive src f now addressedToUs).1.record src)
      (entries r.sessions src f now addressedToUs ++ r.log) := by
  obtain ⟨ht, hr⟩ | ⟨p, ht, hr⟩ := Sessions.onReceive_cases r.sessions src f now addressedToUs
  · have hblank : r.sessions.record src = Peer.new 0 := by
      rw [Sessions.touched] at ht
      rw [Sessions.record, Sessions.peer]
      cases hp : r.sessions.peers.get src with
      | none => rfl
      | some p => simp [hp] at ht
    have hs := h.sound
    rw [hblank] at hs
    rw [hr, entries, ht, hblank]
    refine ⟨hs.memory, ?_, hs.again, hs.whole⟩
    intro seq r hr
    simp [Peer.new] at hr
  · obtain ⟨hin, -, hepoch⟩ := Sessions.touched_same ht
    obtain ⟨hseen, hreasm⟩ := helloReset_congr hin hepoch f
    have hreset := sound_helloReset h.sound f
    have hbase : Sound cfg r.sent holder (helloReset p.noteAirc f)
        ((if Resets (r.sessions.record src) f then [.reset] else []) ++ r.log) := by
      refine ⟨?_, ?_, hreset.again, hreset.whole⟩
      · rw [hseen]
        exact hreset.memory
      · rw [hreasm]
        exact hb
    have hs := sound_received hbase hf (@receive_memory cfg p f now addressedToUs)
    have hhanded : ∀ d, handed (helloReset p.noteAirc f) d =
        handed (helloReset (r.sessions.record src) f) d := by
      intro d
      cases d with
      | none => rfl
      | some d => rw [handed, handed, hseen]
    rw [hhanded, ← List.append_assoc] at hs
    rw [hr, h.config, Sessions.record_store_self, entries, ht, if_neg (by simp), hr, h.config]
    exact hs

/-- Less may be in the buffers, and nothing else changes. -/
structure Fades (p q : Peer) : Prop where
  seen : q.seen = p.seen
  reasm : ∀ seq r, q.reasm.get seq = some r → p.reasm.get seq = some r

theorem Fades.refl (p : Peer) : Fades p p := ⟨rfl, fun _ _ h => h⟩

theorem fades_of_inbox {p q : Peer} (h : SameInbox p q) : Fades p q :=
  ⟨h.seen, fun _ _ hr => h.reasm ▸ hr⟩

theorem Fades.trans {p q t : Peer} (h : Fades p q) (h' : Fades q t) : Fades p t :=
  ⟨h'.seen.trans h.seen, fun seq r hr => h.reasm seq r (h'.reasm seq r hr)⟩

theorem enqueue_fades (cfg : SessionConfig) (p : Peer) (seq : UInt16) (kind : Kind)
    (payload : List UInt8) (reliable : Bool) :
    Fades p (p.enqueue cfg seq kind payload reliable).1 := by
  rcases AircSession.enqueue_cases cfg p seq kind payload reliable with ⟨q, hq, hin, -⟩ | ⟨-, h⟩
  · rw [hq]
    exact fades_of_inbox hin
  · rcases h with ⟨-, h⟩ | ⟨-, -, -, h⟩ | ⟨-, -, h⟩ | ⟨acked, -, -, -, h⟩ <;> rw [h] <;>
      exact ⟨rfl, fun _ _ hr => hr⟩

theorem after_tick_fades {cfg : SessionConfig} {now : ℕ} {p q : Peer} (h : AfterTick cfg now p q) :
    Fades p q where
  seen := h.seen
  reasm seq r hr := by
    rw [h.reasm, expireReasm, Table.get_filterMap] at hr
    obtain ⟨old, hold, hr⟩ := Option.bind_eq_some_iff.mp hr
    split_ifs at hr
    rw [hold, hr]

/-- Nothing but its own frames adds to the memory of a station. -/
theorem other_fades (s : Sessions) (e : Other) (he : ∀ call f now a, e = .heard call f now a →
    call ≠ src) : ((e.apply s).peer src) = none ∨ Fades (s.record src) ((e.apply s).record src) := by
  cases e with
  | heard call f now addressedToUs =>
    right
    have := Sessions.onReceive_peer s (he _ _ _ _ rfl).symm f now addressedToUs
    rw [Other.apply, Sessions.record_of_peer this]
    exact .refl _
  | heardAprs call now =>
    right
    simp only [Other.apply]
    cases ht : s.touched call now with
    | none => exact .refl _
    | some p =>
      obtain ⟨hin, -, -⟩ := Sessions.touched_same ht
      by_cases hc : src = call
      · subst hc
        simp only [Sessions.record_store_self]
        have hnote : Fades p p.noteAprs := by
          rw [Peer.noteAprs]
          split_ifs <;> exact ⟨rfl, fun _ _ hr => hr⟩
        exact (fades_of_inbox hin).trans hnote
      · simp only [Sessions.record_store_ne s hc]
        exact .refl _
  | enqueue dst kind payload reliable now =>
    obtain ⟨t, -, hpeer, h⟩ := Sessions.enqueue_cases s dst kind payload reliable now
    have hgone : t.peer src = none ∨ Fades (s.record src) (t.record src) := by
      rcases hpeer src with h | ⟨-, h⟩
      · rw [Sessions.record_of_peer h]
        exact .inr (.refl _)
      · exact .inl h
    simp only [Other.apply]
    rcases h with h | ⟨p, hin, -, h⟩ <;> rw [h]
    · exact hgone
    · by_cases hc : src = dst
      · subst hc
        rw [Sessions.record_store_self]
        exact .inr ((fades_of_inbox hin).trans (enqueue_fades ..))
      · rw [Sessions.record_store_ne t hc, Sessions.peer_store, if_neg hc]
        exact hgone
  | drainAcks =>
    right
    simp only [Other.apply, Sessions.record, Sessions.drainAcks_peer]
    cases s.peer src <;> exact ⟨rfl, fun _ _ hr => hr⟩
  | tick now retry =>
    simp only [Other.apply, Sessions.record, Sessions.tickRetries_peer]
    cases hp : s.peer src with
    | none => exact .inl rfl
    | some p =>
      cases ht : (s.ticked now retry p).1 with
      | none => exact .inl (by rw [Option.bind_some, ht])
      | some q =>
        rw [Option.bind_some, ht]
        exact .inr (after_tick_fades (ticked_after ht))
  | keyed dest seq now =>
    right
    simp only [Other.apply, Sessions.record, Sessions.onKeyed_peer]
    split_ifs
    · cases s.peer src with
      | none => exact .refl _
      | some p => exact fades_of_inbox (onKeyed_inbox s.config p seq now)
    · exact .refl _
  | forget call =>
    simp only [Other.apply, Sessions.forget, Sessions.record, Sessions.peer, Table.get_erase]
    split_ifs
    · exact .inl rfl
    · exact .inr (.refl _)

theorem other_config (s : Sessions) (e : Other) : (e.apply s).config = s.config := by
  cases e with
  | heard call f now addressedToUs =>
    obtain ⟨-, h⟩ | ⟨p, -, h⟩ := Sessions.onReceive_cases s call f now addressedToUs
    · rw [Other.apply, h]
    · rw [Other.apply, h]
      rfl
  | heardAprs call now =>
    simp only [Other.apply]
    cases s.touched call now <;> rfl
  | enqueue dst kind payload reliable now =>
    obtain ⟨t, ht, -, h | ⟨p, -, -, h⟩⟩ := Sessions.enqueue_cases s dst kind payload reliable now <;>
      rw [Other.apply, h] <;> exact ht
  | drainAcks => rfl
  | tick now retry => rfl
  | keyed dest seq now =>
    rw [Other.apply, Sessions.onKeyed]
    cases s.peers.get dest <;> rfl
  | forget call => rfl

theorem onReceive_config (s : Sessions) (src : Callsign) (f : AircFrame) (now : ℕ)
    (addressedToUs : Bool) : (s.onReceive src f now addressedToUs).1.config = s.config :=
  other_config s (.heard src f now addressedToUs)

/-- The octets of a fragment are read back as the fragment, but for its flags. -/
theorem decode_fragment {m : Message} {f : AircFrame} (h : m.IsFragment f) :
    AircFrame.decode f.encode = .ok { f with flags := f.wireFlags } := by
  apply decode_encode
  have := (List.getElem?_eq_some_iff.mp h.part).1
  rw [UInt8.lt_iff_toNat_lt, h.total]
  exact this

theorem Invariant.other (h : Invariant cfg src r) {e : Other} (he : Enabled src r (.other e)) :
    Invariant cfg src (r.next src (.other e)) := by
  refine ⟨(other_config _ e).trans h.config, h.valid, ?_⟩
  have hcall : ∀ call f now a, e = .heard call f now a → call ≠ src := by
    rintro call f now a rfl
    exact he
  have hsound := h.sound
  simp only [Reception.next]
  by_cases hgone : (r.sessions.peer src).isSome ∧ ((e.apply r.sessions).peer src).isNone
  · rw [if_pos hgone]
    have hblank : (e.apply r.sessions).record src = Peer.new 0 := by
      rw [Sessions.record, Option.isNone_iff_eq_none.mp hgone.2, Option.getD_none]
    rw [hblank]
    exact sound_forgotten hsound rfl rfl rfl fun f => ⟨Entry.noConfusion, Entry.noConfusion⟩
  · rw [if_neg hgone]
    have hfades : Fades (r.sessions.record src) ((e.apply r.sessions).record src) := by
      rcases other_fades r.sessions e hcall with hnone | hfades
      · have hbefore : r.sessions.peer src = none := by
          rw [hnone] at hgone
          simpa using hgone
        rw [Sessions.record, hbefore, Sessions.record, hnone]
        exact .refl _
      · exact hfades
    refine ⟨hfades.seen ▸ hsound.memory, ?_, hsound.again, hsound.whole⟩
    exact fun seq r hr => hsound.buffered seq r (hfades.reasm seq r hr)

theorem receiveOctets_ok {octets : List UInt8} {f : AircFrame} {now : ℕ} {addressedToUs : Bool}
    (hd : AircFrame.decode octets = .ok f) (r : Reception) :
    r.receiveOctets src octets now addressedToUs = { r with
      sessions := (r.sessions.onReceive src f now addressedToUs).1
      log := entries r.sessions src f now addressedToUs ++ r.log } := by
  rw [Reception.receiveOctets, hd]

theorem receiveOctets_error {octets : List UInt8} {e : AircError} {now : ℕ} {addressedToUs : Bool}
    (hd : AircFrame.decode octets = .error e) (r : Reception) :
    r.receiveOctets src octets now addressedToUs = r := by
  rw [Reception.receiveOctets, hd]

/-- After a reset there are no buffers, otherwise the ones there were. -/
theorem buffered_helloReset {sent : List Message} {holder : UInt16 → Option Message} {p : Peer}
    (h : Buffered sent holder p.reasm) (f : AircFrame) :
    Buffered sent holder (helloReset p f).reasm := by
  rw [helloReset]
  split_ifs
  · intro seq r hr
    simp at hr
  · exact h

theorem invariant_step {e : Event} (h : Invariant cfg src r) (hg : NumberNotReused src r e)
    (he : Enabled src r e) : Invariant cfg src (r.next src e) := by
  have hbuffered := h.sound.buffered
  cases e with
  | send m =>
    refine ⟨h.config, ?_, h.sound.memory, ?_, h.sound.again, ?_⟩
    · intro m' hm'
      rcases List.mem_cons.mp hm' with rfl | hm'
      · exact he
      · exact h.valid m' hm'
    · intro seq r hr
      obtain ⟨m', hm', hrest⟩ := hbuffered seq r hr
      exact ⟨m', List.mem_cons_of_mem m hm', hrest⟩
    · intro f hf
      obtain ⟨m', hm', hrest⟩ := h.sound.whole f hf
      exact ⟨m', List.mem_cons_of_mem m hm', hrest⟩
  | receive m f now addressedToUs =>
    obtain ⟨hm, hfrag⟩ := he
    simp only [Reception.next]
    rw [receiveOctets_ok (decode_fragment hfrag)]
    have hfrag : m.IsFragment { f with flags := f.wireFlags } :=
      ⟨hfrag.kind, hfrag.seq, hfrag.total, hfrag.part⟩
    have hhold := (buffered_helloReset hbuffered { f with flags := f.wireFlags }).hold hg
    refine ⟨(onReceive_config ..).trans h.config, h.valid, h.receive now addressedToUs hhold ?_⟩
    exact fun _ => ⟨m, hm, h.valid m hm, hfrag, if_pos rfl⟩
  | acknowledge octets now addressedToUs =>
    simp only [Reception.next]
    cases hd : AircFrame.decode octets with
    | error e =>
      rw [receiveOctets_error hd]
      exact h
    | ok g =>
      rw [receiveOctets_ok hd]
      refine ⟨(onReceive_config ..).trans h.config, h.valid,
        h.receive now addressedToUs (buffered_helloReset hbuffered g) ?_⟩
      rw [Enabled, hd] at he
      exact fun hk => absurd he hk
  | other e => exact h.other he

theorem invariant_reachable (cfg : SessionConfig) (src : Callsign) :
    Inductive (system cfg src) (NumberNotReused src) (Invariant cfg src) :=
  .ofNext (by rintro _ rfl; exact invariant_initial cfg src) fun _ _ h hg he =>
    invariant_step h hg he

/-! ### At most once, and whole -/

/-- Between two deliveries, newest first: at least `w` others. -/
def OthersDelivered (w : ℕ) (seq : UInt16) (between : List Entry) : Prop :=
  ∃ others : Finset UInt16, w ≤ others.card ∧ seq ∉ others ∧
    ∀ s ∈ others, ∃ f, .delivered f ∈ between ∧ f.seq = s

/-- A frame handed to the application, a HELLO again included. -/
def HandedOver (f : AircFrame) (e : Entry) : Prop := e = .delivered f ∨ e = .again f

theorem others_of_outrun {w : ℕ} {seq : UInt16} {between : List Entry}
    (h : Outrun w seq (history between)) : OthersDelivered w seq between := by
  obtain ⟨others, hcard, hseq, hmem⟩ := h
  refine ⟨others, hcard, hseq, fun s hs => ?_⟩
  obtain ⟨e, he, hp⟩ := List.mem_filterMap.mp (hmem s hs)
  cases e with
  | delivered f => exact ⟨f, he, Option.some.inj (Option.some.inj hp)⟩
  | again f => cases hp
  | reset => cases hp
  | removed => cases hp

theorem cleared_of_none {between : List Entry} (h : none ∈ history between) :
    .reset ∈ between ∨ .removed ∈ between := by
  obtain ⟨e, he, hp⟩ := List.mem_filterMap.mp h
  cases e with
  | delivered f => cases hp
  | again f => cases hp
  | reset => exact .inl he
  | removed => exact .inr he

/-- No message other than a HELLO is handed over twice under one number, unless the window of
other messages was delivered meanwhile, a HELLO of a new epoch reset the session or the station
was removed; and what is handed over is one whole message that was sent. -/
theorem delivered_at_most_once_and_whole (cfg : SessionConfig) (src : Callsign) {r : Reception}
    (h : Reachable (system cfg src) (NumberNotReused src) r) :
    (∀ later between earlier e e' f f', r.log = later ++ e' :: (between ++ e :: earlier) →
      HandedOver f e → HandedOver f' e' → f.kind ≠ .hello → f'.kind ≠ .hello → f'.seq = f.seq →
      OthersDelivered cfg.dedupWindow f.seq between ∨ .reset ∈ between ∨ .removed ∈ between) ∧
    ∀ f e, e ∈ r.log → HandedOver f e → f.kind ≠ .hello →
      ∃ m ∈ r.sent, f.kind = m.kind ∧ f.seq = m.seq ∧ f.payload = m.parts.flatten := by
  have hsound := ((invariant_reachable cfg src).reachable h).sound
  have hdelivered : ∀ f e, e ∈ r.log → HandedOver f e → f.kind ≠ .hello → e = .delivered f := by
    rintro f e he (rfl | rfl) hk
    · rfl
    · exact absurd (hsound.again f he) hk
  constructor
  · intro later between earlier e e' f f' hlog hf hf' hk hk' hseq
    obtain rfl := hdelivered f e (by simp [hlog]) hf hk
    obtain rfl := hdelivered f' e' (by simp [hlog]) hf' hk'
    have hhistory : history r.log = history later ++
        some f.seq :: (history between ++ some f.seq :: history earlier) := by
      simp [hlog, history, List.filterMap_append, Entry.pushed, hseq]
    rcases hsound.memory.once _ _ _ _ hhistory with hnone | hout
    · exact .inr (cleared_of_none hnone)
    · exact .inl (others_of_outrun hout)
  · intro f e he hf hk
    obtain rfl := hdelivered f e he hf hk
    exact hsound.whole f he

/-! ### Two fragments, out of order and repeated -/

instance (m : Message) : Decidable m.Valid :=
  decidable_of_iff (m.kind ≠ .ack ∧ m.parts ≠ [] ∧ m.parts.length ≤ 255 ∧
      m.parts.flatten = m.payload)
    ⟨fun h => ⟨h.1, h.2.1, h.2.2.1, h.2.2.2⟩, fun h => ⟨h.kind, h.parts, h.few, h.whole⟩⟩

instance (m : Message) (f : AircFrame) : Decidable (m.IsFragment f) :=
  decidable_of_iff (f.kind = m.kind ∧ f.seq = m.seq ∧ f.fragTotal.toNat = m.parts.length ∧
      m.parts[f.fragIndex.toNat]? = some f.payload)
    ⟨fun h => ⟨h.1, h.2.1, h.2.2.1, h.2.2.2⟩, fun h => ⟨h.kind, h.seq, h.total, h.part⟩⟩

instance (src : Callsign) (r : Reception) (e : Event) : Decidable (Enabled src r e) := by
  cases e with
  | acknowledge octets now addressedToUs =>
    simp only [Enabled]
    split <;> infer_instance
  | other e => cases e <;> simp only [Enabled] <;> infer_instance
  | _ => simp only [Enabled]; infer_instance

instance (src : Callsign) (r : Reception) (e : Event) : Decidable (NumberNotReused src r e) := by
  cases e <;> simp only [NumberNotReused] <;> infer_instance

def station : Callsign := ⟨"M7GRW", 0⟩

def greeting : Message := ⟨.msg, 1, true, [35, 97, 31, 104, 105], [[35, 97, 31], [104, 105]]⟩

def part (i : ℕ) : AircFrame := (greeting.frames[i]?).getD (ackFor 0)

def shuffled : List Event :=
  [.send greeting, .receive greeting (part 1) 0 true, .receive greeting (part 1) 0 true,
    .receive greeting ((part 0).attachPiggyback 7) 1 true, .receive greeting (part 0) 2 true]

theorem shuffled_message_whole :
    ∃ m ∈ (shuffled.foldl (Reception.next station) (initial .default)).sent,
      Kind.msg = m.kind ∧ 1 = m.seq ∧ [35, 97, 31, 104, 105] = m.parts.flatten :=
  (delivered_at_most_once_and_whole .default station
    ((Reachable.initial rfl).run (by decide +kernel))).2
    ((AircFrame.new .msg 1 [35, 97, 31, 104, 105]).withFlags Flags.ackReq)
    (.delivered ((AircFrame.new .msg 1 [35, 97, 31, 104, 105]).withFlags Flags.ackReq))
    (by decide +kernel) (.inl rfl) (by decide)

end AtMostOnce
