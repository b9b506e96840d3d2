import Rfircd.TransitionSystem
import Rfircd.FragmentBuffers

/-! Two stations and the channel between them: every message that an acknowledgement completes
has been delivered. -/
namespace ReliableDelivery

open Basics Airc AircSession KeyedTable TransitionSystem FragmentBuffers

inductive Side where
  | sender
  | receiver
  deriving DecidableEq

/-- Every frame ever sent stays in the channel: it may arrive never, late, or many times.
`messages`, `completed` and `delivered` are the history of what the sender accepted for the
receiver, of the messages in flight completed by an acknowledgement, and of what the receiver
delivered. -/
structure Link where
  sender : Sessions
  receiver : Sessions
  forward : List AircFrame
  backward : List AircFrame
  messages : List Message
  completed : List (List AircFrame)
  delivered : List AircFrame

inductive Event where
  | enqueue (side : Side) (dst : Callsign) (kind : Kind) (payload : List UInt8) (reliable : Bool)
      (now : ℕ)
  | receive (side : Side) (frame : AircFrame) (now : ℕ) (addressedToUs : Bool)
  | foreign (side : Side) (src : Callsign) (frame : AircFrame) (now : ℕ) (addressedToUs : Bool)
  | tick (side : Side) (now : ℕ) (retry : Bool)
  | drainAcks (side : Side)
  | keyed (side : Side) (dest : Callsign) (seq : UInt16) (now : ℕ)
  | drawSeq (side : Side)

/-- The message an acknowledgement completes. -/
def ackCompletes (p : Peer) (seq : UInt16) (bitmap : Option (List UInt8)) :
    List (List AircFrame) :=
  match p.pending with
  | none => []
  | some pd => if pd.seq? = some seq ∧ pd.completedBy bitmap then [pd.frames] else []

/-- The messages that the acknowledgements in a frame complete. -/
def completions (p : Peer) (f : AircFrame) : List (List AircFrame) :=
  (match f.piggybackSeq with
    | none => []
    | some seq => ackCompletes (helloReset p.noteAirc f) seq none) ++
  if f.kind = .ack then
    match parseAckPayload f.payload with
    | none => []
    | some (seq, bitmap) => ackCompletes (p.piggybacked f) seq bitmap
  else []

/-- What an accepted message looks like. -/
def messageOf (s : Sessions) (dst : Callsign) (kind : Kind) (payload : List UInt8)
    (reliable : Bool) : Message :=
  ⟨kind, s.nextSeq, reliable, payload, (s.record dst).parts s.config payload reliable⟩

namespace Link

def session (l : Link) : Side → Sessions
  | .sender => l.sender
  | .receiver => l.receiver

/-- What a side may receive. -/
def incoming (l : Link) : Side → List AircFrame
  | .sender => l.backward
  | .receiver => l.forward

def put (l : Link) (side : Side) (s : Sessions) (out : List AircFrame) : Link :=
  match side with
  | .sender => { l with sender := s, forward := l.forward ++ out }
  | .receiver => { l with receiver := s, backward := l.backward ++ out }

end Link

/-- The other station: the sender has the callsign `a`, the receiver `b`. -/
def remote (a b : Callsign) : Side → Callsign
  | .sender => b
  | .receiver => a

def next (a b : Callsign) (l : Link) : Event → Link
  | .enqueue side dst kind payload reliable now =>
    let r := (l.session side).enqueue dst kind payload reliable now
    let l' := l.put side r.1 (if dst = remote a b side then r.2.frames else [])
    if side = .sender ∧ dst = b ∧ r.2.accepted then
      { l' with messages := l.messages ++ [messageOf l.sender dst kind payload reliable] }
    else l'
  | .receive .sender f now addressedToUs =>
    let r := l.sender.onReceive b f now addressedToUs
    { l.put .sender r.1 r.2.transmit with
      completed := l.completed ++ ((l.sender.touched b now).map (completions · f)).getD [] }
  | .receive .receiver f now addressedToUs =>
    let r := l.receiver.onReceive a f now addressedToUs
    { l.put .receiver r.1 r.2.transmit with delivered := l.delivered ++ r.2.deliver.toList }
  | .foreign side src f now addressedToUs =>
    l.put side ((l.session side).onReceive src f now addressedToUs).1 []
  | .tick side now retry =>
    let r := (l.session side).tickRetries now retry
    l.put side r.1 (framesTo (remote a b side) r.2.transmit)
  | .drainAcks side =>
    let r := (l.session side).drainAcks
    l.put side r.1 (framesTo (remote a b side) r.2)
  | .keyed side dest seq now => l.put side ((l.session side).onKeyed dest seq now) []
  | .drawSeq side => l.put side (l.session side).drawSeq.2 []

/-- Acknowledgements are never enqueued: they are owed and drained. -/
def Enabled (a b : Callsign) (l : Link) : Event → Prop
  | .enqueue _ _ kind _ _ _ => kind ≠ .ack
  | .receive side f _ _ => f ∈ l.incoming side
  | .foreign side src _ _ _ => src ≠ remote a b side
  | _ => True

instance (a b : Callsign) (l : Link) (e : Event) : Decidable (Enabled a b l e) := by
  cases e <;> simp only [Enabled] <;> infer_instance

def initial (cfg : SessionConfig) : Link := ⟨.new cfg, .new cfg, [], [], [], [], []⟩

def system (cfg : SessionConfig) (a b : Callsign) : System Link Event :=
  .ofNext (· = initial cfg) (Enabled a b) (next a b)

/-! ### What the receiver must not throw away -/

namespace Link

/-- The sender has a message with this number in flight or queued. -/
def Unfinished (b : Callsign) (l : Link) (seq : UInt16) : Prop :=
  ∃ frames ∈ (l.sender.record b).outbox, frames.head?.map AircFrame.seq = some seq

/-- The frame tells which parts of a message are there. -/
def Reports (seq : UInt16) (f : AircFrame) : Prop :=
  f.kind = .ack ∧ ((parseAckPayload f.payload).any fun e => e.1 == seq && e.2.isSome) = true

/-- A bitmap for the message was sent, or is owed. -/
def Reported (a : Callsign) (l : Link) (seq : UInt16) : Prop :=
  (∃ f ∈ l.backward, Reports seq f) ∨
  ∃ o ∈ (l.receiver.record a).owedAck, o.seq = seq ∧ o.bitmap.isSome

/-- A buffer that must be kept: the sender counts on the parts that were reported. -/
def Kept (a b : Callsign) (l : Link) (seq : UInt16) : Prop :=
  l.Unfinished b seq ∧ l.Reported a seq

end Link

/-- The record of the sender is not removed by the receiver. -/
def KeepsPeer (a b : Callsign) (l : Link) (e : Event) : Prop :=
  (l.receiver.peer a).isSome → ((next a b l e).receiver.peer a).isSome

/-- No number is given to a second message, and no buffer the sender counts on is thrown away:
by a timeout, to make room for another, or for a restart. -/
def Retains (a b : Callsign) (l : Link) : Event → Prop
  | .enqueue .sender dst _ _ _ _ => dst = b → ∀ m ∈ l.messages, m.seq ≠ l.sender.nextSeq
  | .tick .receiver now _ =>
    ∀ e ∈ (l.receiver.record a).reasm.entries, expiredReasm l.receiver.config now e.2 →
      l.Unfinished b e.1 → ¬ (e.2.wantAck ∨ l.Reported a e.1)
  | .receive .receiver f _ _ =>
    (f.kind = .hello → helloEpoch f ≠ (l.receiver.record a).epoch →
      ∀ seq ∈ (l.receiver.record a).reasm.keys, ¬ l.Kept a b seq) ∧
    NoneEvicted l.receiver.config (l.Kept a b) (l.receiver.record a) f
  | _ => True

def Guard (a b : Callsign) (l : Link) (e : Event) : Prop := KeepsPeer a b l e ∧ Retains a b l e

section

variable (a b : Callsign) (l : Link) (e : Event)

instance (seq : UInt16) : Decidable (l.Unfinished b seq) :=
  inferInstanceAs (Decidable (∃ frames ∈ _, _))

instance (seq : UInt16) (f : AircFrame) : Decidable (Link.Reports seq f) :=
  inferInstanceAs (Decidable (_ ∧ _))

instance (seq : UInt16) : Decidable (l.Reported a seq) :=
  inferInstanceAs (Decidable ((∃ f ∈ _, _) ∨ ∃ o ∈ _, _))

instance : DecidablePred (l.Kept a b) :=
  fun seq => inferInstanceAs (Decidable (l.Unfinished b seq ∧ l.Reported a seq))

instance (cfg : SessionConfig) (kept : UInt16 → Prop) [DecidablePred kept] (p : Peer)
    (f : AircFrame) : Decidable (NoneEvicted cfg kept p f) := by
  unfold NoneEvicted
  infer_instance

instance : Decidable (KeepsPeer a b l e) := inferInstanceAs (Decidable (_ → _))

instance : Decidable (Retains a b l e) := by
  unfold Retains
  split <;> infer_instance

instance : Decidable (Guard a b l e) := inferInstanceAs (Decidable (_ ∧ _))

end

/-! ### New messages -/

theorem of_mem_modifyHead {g : AircFrame → AircFrame} {l : List AircFrame} {f : AircFrame}
    (h : f ∈ l.modifyHead g) : f ∈ l ∨ ∃ e ∈ l, f = g e := by
  cases l with
  | nil => simp at h
  | cons e l =>
    rcases List.mem_cons.mp h with h | h
    · exact .inr ⟨e, List.mem_cons_self, h⟩
    · exact .inl (List.mem_cons_of_mem e h)

theorem parts_congr {cfg : SessionConfig} {p q : Peer} (hi : SameInbox p q) (ho : SameOutbox p q)
    (payload : List UInt8) (reliable : Bool) :
    q.parts cfg payload reliable = p.parts cfg payload reliable := by
  have h : (takePiggyback cfg q reliable).1 = (takePiggyback cfg p reliable).1 := by
    simp only [takePiggyback, ho.pending, hi.owedAck]
    split_ifs
    · split <;> simp_all
    · rfl
  rw [Peer.parts, h, Peer.parts]

theorem valid_message {cfg : SessionConfig} {p : Peer} {kind : Kind} {seq : UInt16}
    {payload : List UInt8} {reliable : Bool} (hk : kind ≠ .ack)
    (h : (p.parts cfg payload reliable).length ≤ 255) :
    (⟨kind, seq, reliable, payload, p.parts cfg payload reliable⟩ : Message).Valid :=
  ⟨hk, chunkPayload_ne_nil _ _ _, h, chunkPayload_flatten (maxPayload_pos cfg) _ _⟩

/-- A new message is refused without a trace, or its frames are those of the message. -/
theorem enqueue_outbox (cfg : SessionConfig) (p : Peer) (seq : UInt16) {kind : Kind}
    (payload : List UInt8) (reliable : Bool) (hk : kind ≠ .ack) {m : Message}
    (hm : m = ⟨kind, seq, reliable, payload, p.parts cfg payload reliable⟩) :
    let r := p.enqueue cfg seq kind payload reliable
    r.2 = .dropped ∧ SameOutbox p r.1 ∨
    r.2.accepted = true ∧ m.Valid ∧ (∀ f ∈ r.2.frames, m.IsFragment f) ∧
      (∀ frames ∈ r.1.outbox, frames ∈ p.outbox ∨ m.frames = frames) ∧
      ∀ pd, r.1.pending = some pd → p.pending = some pd ∨ pd.acked = pd.frames.map fun _ => false := by
  subst hm
  intro r
  obtain ⟨q, hr, -, hout⟩ | ⟨hlen, hr⟩ := enqueue_cases cfg p seq kind payload reliable
  · refine .inl ?_
    rw [show r = (q, .dropped) from hr]
    exact ⟨rfl, hout⟩
  · refine .inr ?_
    have hv := @valid_message cfg p kind seq payload reliable hk hlen
    obtain ⟨-, hr⟩ | ⟨-, -, -, hr⟩ | ⟨-, -, hr⟩ | ⟨acked, -, -, -, hr⟩ := hr
    · rw [show r = _ from hr]
      exact ⟨rfl, hv, fun f hf => Message.isFragment_of_mem hv hf, fun _ hf => .inl hf,
        fun pd hpd => .inl hpd⟩
    · rw [show r = _ from hr]
      refine ⟨rfl, hv, by simp, ?_, fun pd hpd => .inl hpd⟩
      intro frames hf
      simp only [Peer.outbox, List.mem_append, List.mem_singleton] at hf ⊢
      rcases hf with hf | hf | hf
      · exact .inl (.inl hf)
      · exact .inl (.inr hf)
      · exact .inr hf.symm
    · rw [show r = _ from hr]
      refine ⟨rfl, hv, fun f hf => Message.isFragment_of_mem hv hf, ?_, ?_⟩
      · intro frames hf
        rcases List.mem_cons.mp hf with hf | hf
        · exact .inr hf.symm
        · exact .inl (List.mem_append_right _ hf)
      · intro pd hpd
        obtain rfl := Option.some.inj hpd
        exact .inr rfl
    · rw [show r = _ from hr]
      refine ⟨rfl, hv, ?_, ?_, ?_⟩
      · intro f hf
        rcases of_mem_modifyHead hf with hf | ⟨g, hg, rfl⟩
        · exact Message.isFragment_of_mem hv hf
        · exact (Message.isFragment_of_mem hv hg).piggyback acked
      · intro frames hf
        rcases List.mem_cons.mp hf with hf | hf
        · exact .inr hf.symm
        · exact .inl (List.mem_append_right _ hf)
      · intro pd hpd
        obtain rfl := Option.some.inj hpd
        exact .inr rfl

/-- A new message takes at most a complete acknowledgement along. -/
theorem enqueue_inbox (cfg : SessionConfig) (p : Peer) (seq : UInt16) (kind : Kind)
    (payload : List UInt8) (reliable : Bool) :
    let r := p.enqueue cfg seq kind payload reliable
    r.1.seen = p.seen ∧ r.1.reasm = p.reasm ∧ (r.1.owedAck = p.owedAck ∨ r.1.owedAck = none) ∧
    ∀ f ∈ r.2.frames, ∀ acked, f.piggybackSeq = some acked → p.owedAck = some ⟨acked, none⟩ := by
  have hnone : ∀ parts : List (List UInt8), ∀ f ∈ fragments kind seq reliable parts,
      f.piggybackSeq = none := by
    intro parts f hf
    obtain ⟨i, hi, rfl⟩ := List.mem_mapIdx.mp hf
    rfl
  intro r
  obtain ⟨q, hr, hin, -⟩ |
      ⟨-, ⟨-, hr⟩ | ⟨-, -, -, hr⟩ | ⟨-, -, hr⟩ | ⟨acked, -, -, ho, hr⟩⟩ :=
    enqueue_cases cfg p seq kind payload reliable
  · rw [show r = _ from hr]
    exact ⟨hin.seen, hin.reasm, .inl hin.owedAck, by simp [SendOutcome.dropped]⟩
  · rw [show r = _ from hr]
    exact ⟨rfl, rfl, .inl rfl, fun f hf acked ha => by simp [hnone _ f hf] at ha⟩
  · rw [show r = _ from hr]
    exact ⟨rfl, rfl, .inl rfl, by simp⟩
  · rw [show r = _ from hr]
    exact ⟨rfl, rfl, .inl rfl, fun f hf acked ha => by simp [hnone _ f hf] at ha⟩
  · rw [show r = _ from hr]
    refine ⟨rfl, rfl, .inr rfl, fun f hf acked' ha => ?_⟩
    rcases of_mem_modifyHead hf with hf | ⟨g, hg, rfl⟩
    · simp [hnone _ f hf] at ha
    · obtain rfl := Option.some.inj ha
      exact ho

/-! ### The marks of the message in flight -/

/-- Every mark was set by an acknowledgement that is in the channel. -/
def Marked (claims : UInt16 → List UInt8 → Prop) (p : Peer) : Prop :=
  ∀ pd, p.pending = some pd → pd.acked.length = pd.frames.length ∧
    ∀ i : ℕ, pd.acked[i]? = some true →
      ∃ seq bits, pd.seq? = some seq ∧ claims seq bits ∧ bitSet bits i = true

theorem marked_fresh (claims : UInt16 → List UInt8 → Prop) {pd : Pending}
    (h : pd.acked = pd.frames.map fun _ => false) : pd.acked.length = pd.frames.length ∧
    ∀ i : ℕ, pd.acked[i]? = some true →
      ∃ seq bits, pd.seq? = some seq ∧ claims seq bits ∧ bitSet bits i = true := by
  refine ⟨by rw [h, List.length_map], fun i hi => ?_⟩
  rw [h, List.getElem?_map] at hi
  cases hf : pd.frames[i]? <;> simp [hf] at hi

theorem Marked.advance {claims : UInt16 → List UInt8 → Prop} {p q : Peer} (h : Marked claims p)
    (ha : Advances p q) : Marked claims q := by
  intro pd hpd
  rcases ha.marks pd hpd with ⟨old, hold, hframes, hacked⟩ | hfresh
  · have := h old hold
    rwa [Pending.seq?, hframes, hacked]
  · exact marked_fresh claims hfresh

theorem Marked.applyAck {claims : UInt16 → List UInt8 → Prop} {p : Peer} (h : Marked claims p)
    {seq : UInt16} {bitmap : Option (List UInt8)}
    (hbits : ∀ bits, bitmap = some bits → claims seq bits) :
    Marked claims (applyAck p seq bitmap).1 := by
  obtain ⟨hr, -⟩ | ⟨pd, bits, hp, hs, hb, -, -, hr⟩ | ⟨pd, -, -, -, hr⟩ := applyAck_cases p seq bitmap
  · rw [hr]
    exact h
  · rw [hr]
    intro pd' hpd'
    obtain rfl := Option.some.inj hpd'
    obtain ⟨hlen, hold⟩ := h pd hp
    refine ⟨by simpa [Pending.mark] using hlen, fun i hi => ?_⟩
    simp only [Pending.mark, List.getElem?_mapIdx, Option.map_eq_some_iff, Bool.or_eq_true] at hi
    obtain ⟨flag, hflag, hi | hi⟩ := hi
    · exact hold i (by rw [hflag, hi])
    · exact ⟨seq, bits, hs, hbits bits hb, hi⟩
  · rw [hr]
    exact h.advance (releasePending_advances p)

theorem mem_ackCompletes {p : Peer} {seq : UInt16} {bitmap : Option (List UInt8)}
    {frames : List AircFrame} (h : frames ∈ ackCompletes p seq bitmap) :
    ∃ pd, p.pending = some pd ∧ pd.frames = frames ∧ pd.seq? = some seq ∧
      pd.completedBy bitmap = true := by
  unfold ackCompletes at h
  cases hp : p.pending with
  | none => simp [hp] at h
  | some pd =>
    simp only [hp] at h
    split_ifs at h with hc
    · exact ⟨pd, rfl, (List.mem_singleton.mp h).symm, hc.1, hc.2⟩
    · exact absurd h List.not_mem_nil

section

variable {messages : List Message} {wanted : UInt16 → Prop} {q : Peer} {d : List AircFrame}

/-- A message completed by a true acknowledgement was delivered. -/
theorem delivered_of_completed {claims : UInt16 → List UInt8 → Prop} {p : Peer} {pd : Pending}
    {m : Message} {bitmap : Option (List UInt8)} (hin : Inbox messages wanted q d)
    (hv : ∀ m ∈ messages, m.Valid)
    (hunique : ∀ m ∈ messages, ∀ m' ∈ messages, m.seq = m'.seq → m = m')
    (hclaims : ∀ seq bits, claims seq bits → Backed messages wanted q d seq (some bits))
    (hmarked : Marked claims p) (hp : p.pending = some pd) (hm : m ∈ messages)
    (hframes : m.frames = pd.frames) (hw : wanted m.seq)
    (hack : Backed messages wanted q d m.seq bitmap) (hc : pd.completedBy bitmap = true) :
    Delivered d m := by
  have backed : ∀ bits, Backed messages wanted q d m.seq (some bits) → ∀ i, bitSet bits i = true →
      Arrived q d m i := by
    rintro bits ⟨m', hm', hs, ha⟩ i hi
    obtain rfl := hunique m' hm' m hm hs
    exact ha hw i hi
  have hseq : pd.seq? = some m.seq := by
    rw [Pending.seq?, ← hframes, Message.head_frames (hv m hm)]
  cases bitmap with
  | none =>
    obtain ⟨m', hm', hs, hd⟩ := hack
    rwa [← hunique m' hm' m hm hs]
  | some bits =>
    obtain ⟨hlen, hold⟩ := hmarked pd hp
    refine delivered_of_arrived hin hm (hv m hm) hunique fun i hi => ?_
    have hi' : i < pd.acked.length := by
      rwa [hlen, ← hframes, Message.length_frames]
    have hmark := List.all_eq_true.mp hc
    have hbit : (pd.acked[i] || bitSet bits i) = true := by
      apply hmark
      exact List.mem_mapIdx.mpr ⟨i, hi', rfl⟩
    rcases Bool.or_eq_true_iff.mp hbit with hbit | hbit
    · obtain ⟨seq, bits', hs, hclaim, hset⟩ := hold i (by rw [List.getElem?_eq_getElem hi', hbit])
      obtain rfl := Option.some.inj (hseq.symm.trans hs)
      exact backed bits' (hclaims _ _ hclaim) i hset
    · exact backed bits hack i hbit

end

/-! ### Agreement -/

/-- What a frame of the receiver acknowledges is true. -/
structure Truthful (messages : List Message) (wanted : UInt16 → Prop) (q : Peer)
    (d : List AircFrame) (f : AircFrame) : Prop where
  ack : f.kind = .ack → ∀ seq bitmap, parseAckPayload f.payload = some (seq, bitmap) →
    Backed messages wanted q d seq bitmap
  piggyback : ∀ seq, f.piggybackSeq = some seq → Backed messages wanted q d seq none

/-- A bitmap that is in the channel. -/
def Link.Claims (l : Link) (seq : UInt16) (bits : List UInt8) : Prop :=
  ∃ f ∈ l.backward, f.kind = .ack ∧ parseAckPayload f.payload = some (seq, some bits)

structure Agree (a b : Callsign) (l : Link) : Prop where
  valid : ∀ m ∈ l.messages, m.Valid
  unique : ∀ m ∈ l.messages, ∀ m' ∈ l.messages, m.seq = m'.seq → m = m'
  flying : ∀ f ∈ l.forward, f.kind ≠ .ack → ∃ m ∈ l.messages, m.IsFragment f
  outbox : ∀ frames ∈ (l.sender.record b).outbox, ∃ m ∈ l.messages, m.frames = frames
  marked : Marked l.Claims (l.sender.record b)
  inbox : Inbox l.messages (l.Unfinished b) (l.receiver.record a) l.delivered
  truthful : ∀ f ∈ l.backward,
    Truthful l.messages (l.Unfinished b) (l.receiver.record a) l.delivered f
  replies : ∀ frames ∈ (l.receiver.record a).outbox, ∀ f ∈ frames,
    f.kind ≠ .ack ∧ f.piggybackSeq = none
  done : ∀ frames ∈ l.completed, ∃ m ∈ l.messages, m.frames = frames ∧ Delivered l.delivered m

section

variable {a b : Callsign} {l : Link}

theorem agree_initial (cfg : SessionConfig) : Agree a b (initial cfg) where
  valid m hm := absurd hm List.not_mem_nil
  unique m hm := absurd hm List.not_mem_nil
  flying f hf := absurd hf List.not_mem_nil
  outbox frames hf := absurd hf List.not_mem_nil
  marked pd hpd := by simp [initial, Sessions.record, Sessions.peer, Sessions.new, Peer.new] at hpd
  inbox := inbox_blank 0
  truthful f hf := absurd hf List.not_mem_nil
  replies frames hf := absurd hf List.not_mem_nil
  done frames hf := absurd hf List.not_mem_nil

theorem Truthful.mono {messages messages' : List Message} {wanted wanted' : UInt16 → Prop}
    {q : Peer} {d : List AircFrame} {f : AircFrame} (h : Truthful messages wanted q d f)
    (hm : ∀ m ∈ messages, m ∈ messages') (hw : ∀ m ∈ messages, wanted' m.seq → wanted m.seq) :
    Truthful messages' wanted' q d f where
  ack hk seq bitmap hp := (h.ack hk seq bitmap hp).mono hm hw
  piggyback seq hs := (h.piggyback seq hs).mono hm hw

/-- A step of the sender, which may take in one message. -/
theorem Agree.sender_step (h : Agree a b l) {s : Sessions} {out : List AircFrame}
    {new : Option Message} {completed : List (List AircFrame)}
    (hnew : ∀ m, new = some m → m.Valid ∧ ∀ m' ∈ l.messages, m'.seq ≠ m.seq)
    (hout : ∀ f ∈ out, f.kind ≠ .ack → ∃ m ∈ l.messages ++ new.toList, m.IsFragment f)
    (hbox : ∀ frames ∈ (s.record b).outbox,
      frames ∈ (l.sender.record b).outbox ∨ ∃ m, new = some m ∧ m.frames = frames)
    (hmarked : Marked l.Claims (s.record b))
    (hdone : ∀ frames ∈ completed, ∃ m ∈ l.messages, m.frames = frames ∧ Delivered l.delivered m) :
    Agree a b ⟨s, l.receiver, l.forward ++ out, l.backward, l.messages ++ new.toList,
      l.completed ++ completed, l.delivered⟩ := by
  have hold : ∀ m ∈ l.messages, m ∈ l.messages ++ new.toList :=
    fun m hm => List.mem_append_left _ hm
  have hcases : ∀ m ∈ l.messages ++ new.toList, m ∈ l.messages ∨ new = some m := by
    intro m hm
    rcases List.mem_append.mp hm with hm | hm
    · exact .inl hm
    · exact .inr (Option.mem_toList.mp hm)
  -- what is unfinished for an old message was so before
  have hwanted : ∀ m ∈ l.messages,
      Link.Unfinished b ⟨s, l.receiver, l.forward ++ out, l.backward, l.messages ++ new.toList,
        l.completed ++ completed, l.delivered⟩ m.seq → l.Unfinished b m.seq := by
    rintro m hm ⟨frames, hf, hseq⟩
    rcases hbox frames hf with hf | ⟨m', hm', rfl⟩
    · exact ⟨frames, hf, hseq⟩
    · obtain ⟨hv, hfresh⟩ := hnew m' hm'
      rw [Message.head_frames hv] at hseq
      exact absurd (Option.some.inj hseq).symm (hfresh m hm)
  refine ⟨?_, ?_, ?_, ?_, hmarked, h.inbox.mono hold hwanted, ?_, h.replies, ?_⟩
  · intro m hm
    rcases hcases m hm with hm | hm
    · exact h.valid m hm
    · exact (hnew m hm).1
  · intro m hm m' hm' hs
    rcases hcases m hm with hm | hm
    · rcases hcases m' hm' with hm' | hm'
      · exact h.unique m hm m' hm' hs
      · exact absurd hs ((hnew m' hm').2 m hm)
    · rcases hcases m' hm' with hm' | hm'
      · exact absurd hs.symm ((hnew m hm).2 m' hm')
      · exact Option.some.inj (hm.symm.trans hm')
  · intro f hf hk
    rcases List.mem_append.mp hf with hf | hf
    · obtain ⟨m, hm, hfrag⟩ := h.flying f hf hk
      exact ⟨m, hold m hm, hfrag⟩
    · exact hout f hf hk
  · intro frames hf
    rcases hbox frames hf with hf | ⟨m, hm, hframes⟩
    · obtain ⟨m, hm, hframes⟩ := h.outbox frames hf
      exact ⟨m, hold m hm, hframes⟩
    · exact ⟨m, List.mem_append_right _ (Option.mem_toList.mpr hm), hframes⟩
  · exact fun f hf => (h.truthful f hf).mono hold hwanted
  · intro frames hf
    have hdelivered : ∃ m ∈ l.messages, m.frames = frames ∧ Delivered l.delivered m := by
      rcases List.mem_append.mp hf with hf | hf
      · exact h.done frames hf
      · exact hdone frames hf
    obtain ⟨m, hm, hframes⟩ := hdelivered
    exact ⟨m, hold m hm, hframes⟩

/-- A step of the receiver, which forgets no part the sender counts on. -/
theorem Agree.receiver_step (h : Agree a b l) {s : Sessions} {out dl : List AircFrame}
    (hin : Inbox l.messages (l.Unfinished b) (s.record a) (l.delivered ++ dl))
    (hcarry : Carries l.messages (l.Kept a b) (l.receiver.record a) l.delivered (s.record a)
      (l.delivered ++ dl))
    (hout : ∀ f ∈ out,
      Truthful l.messages (l.Unfinished b) (s.record a) (l.delivered ++ dl) f)
    (hreplies : ∀ frames ∈ (s.record a).outbox, ∀ f ∈ frames,
      f.kind ≠ .ack ∧ f.piggybackSeq = none) :
    Agree a b ⟨l.sender, s, l.forward, l.backward ++ out, l.messages, l.completed,
      l.delivered ++ dl⟩ := by
  refine ⟨h.valid, h.unique, h.flying, h.outbox, ?_, hin, ?_, hreplies, ?_⟩
  · intro pd hpd
    obtain ⟨hlen, hold⟩ := h.marked pd hpd
    refine ⟨hlen, fun i hi => ?_⟩
    obtain ⟨seq, bits, hs, ⟨f, hf, hclaim⟩, hset⟩ := hold i hi
    exact ⟨seq, bits, hs, ⟨f, List.mem_append_left _ hf, hclaim⟩, hset⟩
  · intro f hf
    rcases List.mem_append.mp hf with hf | hf
    · have htrue := h.truthful f hf
      constructor
      · intro hk seq bitmap hp
        refine (htrue.ack hk seq bitmap hp).carry hcarry fun hb hw => ⟨hw, .inl ⟨f, hf, hk, ?_⟩⟩
        simp [hp, hb]
      · intro seq hs
        exact (htrue.piggyback seq hs).carry hcarry fun hb => by simp at hb
    · exact hout f hf
  · intro frames hf
    obtain ⟨m, hm, hframes, hd⟩ := h.done frames hf
    exact ⟨m, hm, hframes, hd.append dl⟩

/-! ### The steps of the sender -/

/-- The frames that were sent for the messages that wait. -/
theorem Agree.fragment_of (h : Agree a b l) {f : AircFrame}
    (hf : FromOutbox (l.sender.record b).outbox f) : ∃ m ∈ l.messages, m.IsFragment f := by
  obtain ⟨frames, hframes, g, hg, hfg⟩ := hf
  obtain ⟨m, hm, rfl⟩ := h.outbox frames hframes
  have hfrag := Message.isFragment_of_mem (h.valid m hm) hg
  rcases hfg with rfl | rfl
  · exact ⟨m, hm, hfrag⟩
  · exact ⟨m, hm, hfrag.retry⟩

theorem Agree.sender_advance (h : Agree a b l) {s : Sessions} {out : List AircFrame}
    (hadv : Advances (l.sender.record b) (s.record b))
    (hout : ∀ f ∈ out, f.kind = .ack ∨ FromOutbox (l.sender.record b).outbox f) :
    Agree a b (l.put .sender s out) := by
  have := @Agree.sender_step a b l h s out none [] (by simp) ?_
    (fun frames hf => .inl (hadv.outbox frames hf)) (h.marked.advance hadv) (by simp)
  · simpa [Link.put] using this
  · intro f hf hk
    obtain ⟨m, hm, hfrag⟩ := h.fragment_of ((hout f hf).resolve_left hk)
    exact ⟨m, List.mem_append_left _ hm, hfrag⟩

theorem advances_of_peer {s t : Sessions} {call : Callsign}
    (h : t.peer call = s.peer call ∨ t.peer call = none) :
    Advances (s.record call) (t.record call) := by
  rcases h with h | h
  · rw [Sessions.record_of_peer h]
    exact SameOutbox.advances ⟨rfl, rfl⟩
  · rw [show t.record call = Peer.new 0 by rw [Sessions.record, h]; rfl]
    exact advances_blank _ 0

theorem Agree.enqueue_sender (h : Agree a b l) {dst : Callsign} {kind : Kind}
    {payload : List UInt8} {reliable : Bool} {now : ℕ}
    (hg : Guard a b l (.enqueue .sender dst kind payload reliable now)) (hk : kind ≠ .ack) :
    Agree a b (next a b l (.enqueue .sender dst kind payload reliable now)) := by
  obtain ⟨t, -, ht, hr | ⟨p, hin, hout, hr⟩⟩ :=
    l.sender.enqueue_cases dst kind payload reliable now
  · have hadv : Advances (l.sender.record b) (t.record b) :=
      advances_of_peer ((ht b).imp_right And.right)
    have := @Agree.sender_advance a b l h t [] hadv (by simp)
    simpa [next, Link.session, hr, SendOutcome.dropped] using this
  · by_cases hd : dst = b
    · subst hd
      have hbox := hout.outbox
      obtain ⟨hdrop, hsame⟩ | ⟨hacc, hv, hfrag, hadds, hpend⟩ :=
        enqueue_outbox l.sender.config p l.sender.nextSeq payload reliable hk rfl
      · have hadv : Advances (l.sender.record dst)
            ((t.store dst (p.enqueue l.sender.config l.sender.nextSeq kind payload reliable).1).record
              dst) := by
          rw [Sessions.record_store_self]
          exact hout.advances.trans hsame.advances
        have := @Agree.sender_advance a dst l h _ [] hadv (by simp)
        simpa [next, Link.session, hr, hdrop, SendOutcome.dropped] using this
      · have hm : messageOf l.sender dst kind payload reliable =
            ⟨kind, l.sender.nextSeq, reliable, payload,
              p.parts l.sender.config payload reliable⟩ := by
          rw [messageOf, parts_congr hin hout]
        have := @Agree.sender_step a dst l h
          (t.store dst (p.enqueue l.sender.config l.sender.nextSeq kind payload reliable).1)
          (p.enqueue l.sender.config l.sender.nextSeq kind payload reliable).2.frames
          (some (messageOf l.sender dst kind payload reliable)) [] ?_ ?_ ?_ ?_ (by simp)
        · simpa [next, Link.session, hr, hacc, remote, Link.put] using this
        · intro m hm'
          obtain rfl := Option.some.inj hm'
          rw [hm]
          exact ⟨hv, hg.2 rfl⟩
        · intro f hf _
          rw [hm]
          exact ⟨_, List.mem_append_right _ (List.mem_singleton.mpr rfl), hfrag f hf⟩
        · intro frames hf
          rw [Sessions.record_store_self] at hf
          rw [← hbox, hm]
          rcases hadds frames hf with hf | hf
          · exact .inl hf
          · exact .inr ⟨_, rfl, hf⟩
        · rw [Sessions.record_store_self]
          intro pd hpd
          rcases hpend pd hpd with hpd | hfresh
          · exact h.marked pd (hout.pending ▸ hpd)
          · exact marked_fresh _ hfresh
    · have hadv : Advances (l.sender.record b)
          ((t.store dst (p.enqueue l.sender.config l.sender.nextSeq kind payload reliable).1).record
            b) := by
        rw [Sessions.record_store_ne _ (Ne.symm hd)]
        exact advances_of_peer ((ht b).imp_right And.right)
      have := @Agree.sender_advance a b l h _ [] hadv (by simp)
      simpa [next, Link.session, hr, remote, hd] using this

/-- What an acknowledgement completes was delivered. -/
theorem Agree.completed (h : Agree a b l) {p : Peer} {seq : UInt16}
    {bitmap : Option (List UInt8)} (hmarked : Marked l.Claims p)
    (hbox : ∀ frames ∈ p.outbox, frames ∈ (l.sender.record b).outbox)
    (hack : Backed l.messages (l.Unfinished b) (l.receiver.record a) l.delivered seq bitmap)
    {frames : List AircFrame} (hf : frames ∈ ackCompletes p seq bitmap) :
    ∃ m ∈ l.messages, m.frames = frames ∧ Delivered l.delivered m := by
  obtain ⟨pd, hp, rfl, hs, hc⟩ := mem_ackCompletes hf
  have hmem : pd.frames ∈ (l.sender.record b).outbox := hbox _ (by simp [Peer.outbox, hp])
  obtain ⟨m, hm, hframes⟩ := h.outbox pd.frames hmem
  have hhead : pd.frames.head?.map AircFrame.seq = some m.seq :=
    hframes ▸ Message.head_frames (h.valid m hm)
  obtain rfl := Option.some.inj (hs.symm.trans hhead)
  refine ⟨m, hm, hframes, ?_⟩
  refine delivered_of_completed h.inbox h.valid h.unique ?_ hmarked hp hm hframes
    ⟨pd.frames, hmem, hhead⟩ hack hc
  rintro seq bits ⟨f, hf, hk, hparse⟩
  exact (h.truthful f hf).ack hk seq (some bits) hparse

theorem Agree.receive_sender (h : Agree a b l) {f : AircFrame} {now : ℕ} {addressedToUs : Bool}
    (hf : f ∈ l.backward) : Agree a b (next a b l (.receive .sender f now addressedToUs)) := by
  obtain ⟨ht, hr⟩ | ⟨p, ht, hr⟩ := l.sender.onReceive_cases b f now addressedToUs
  · have := @Agree.sender_advance a b l h l.sender [] (SameOutbox.advances ⟨rfl, rfl⟩) (by simp)
    simpa [next, hr, ht, RxOutcome.default, Link.put] using this
  · obtain ⟨-, hsame, -⟩ := Sessions.touched_same ht
    have hbox := hsame.outbox
    obtain ⟨hkeep, hsent⟩ := receive_outbox l.sender.config p f now addressedToUs
    have htrue := h.truthful f hf
    have hreset : Advances (l.sender.record b) (helloReset p.noteAirc f) :=
      hsame.advances.trans (helloReset_advances p f)
    have hmarked : Marked l.Claims (p.piggybacked f) := by
      rw [Peer.piggybacked, applyPiggyback]
      cases f.piggybackSeq with
      | none => exact h.marked.advance hreset
      | some seq => exact (h.marked.advance hreset).applyAck (by simp)
    have hpiggy : ∀ frames ∈ (p.piggybacked f).outbox, frames ∈ (l.sender.record b).outbox := by
      intro frames hframes
      exact hreset.outbox frames ((applyPiggyback_outbox (helloReset p.noteAirc f) f).1 frames hframes)
    have := @Agree.sender_step a b l h (l.sender.store b (p.receive l.sender.config f now addressedToUs).1)
      (p.receive l.sender.config f now addressedToUs).2.transmit none (completions p f) (by simp)
      ?_ ?_ ?_ ?_
    · simpa [next, hr, ht, Link.put] using this
    · intro g hg _
      rw [hbox] at hsent
      obtain ⟨m, hm, hfrag⟩ := h.fragment_of (hsent g hg)
      exact ⟨m, List.mem_append_left _ hm, hfrag⟩
    · intro frames hframes
      rw [Sessions.record_store_self] at hframes
      rw [hbox] at hkeep
      exact .inl (hkeep frames hframes)
    · rw [Sessions.record_store_self]
      by_cases hk : f.kind = .ack
      · rw [receive_of_ack hk]
        cases hparse : parseAckPayload f.payload with
        | none => exact hmarked
        | some parsed =>
          refine hmarked.applyAck fun bits hb => ⟨f, hf, hk, ?_⟩
          rw [hparse, ← hb]
      · rw [receive_of_message hk]
        exact hmarked.advance
          (receiveMessage_outbox l.sender.config (p.piggybacked f) f now addressedToUs).advances
    · intro frames hframes
      rcases List.mem_append.mp hframes with hframes | hframes
      · cases hs : f.piggybackSeq with
        | none => simp [hs] at hframes
        | some seq =>
          simp only [hs] at hframes
          exact h.completed (h.marked.advance hreset) hreset.outbox (htrue.piggyback seq hs) hframes
      · split_ifs at hframes with hk
        · cases hparse : parseAckPayload f.payload with
          | none => simp [hparse] at hframes
          | some parsed =>
            simp only [hparse] at hframes
            exact h.completed hmarked hpiggy (htrue.ack hk parsed.1 parsed.2 hparse) hframes
        · exact absurd hframes List.not_mem_nil

theorem Agree.tick_sender (h : Agree a b l) (now : ℕ) (retry : Bool) :
    Agree a b (next a b l (.tick .sender now retry)) := by
  apply h.sender_advance
  · change Advances (l.sender.record b) ((l.sender.tickRetries now retry).1.record b)
    have hpeer := l.sender.tickRetries_peer now retry b
    rw [Sessions.record, Sessions.record, hpeer]
    cases hp : l.sender.peer b with
    | none => exact SameOutbox.advances ⟨rfl, rfl⟩
    | some p =>
      simp only [Option.bind_some, Option.getD_some]
      cases ht : (l.sender.ticked now retry p).1 with
      | none => exact advances_blank p 0
      | some q => exact (ticked_after ht).advances
  · intro f hf
    obtain ⟨p, hp, hf⟩ := @Sessions.mem_tickRetries l.sender now retry b f (mem_framesTo.mp hf)
    rcases hf with hf | hf
    · exact .inr (by rwa [Sessions.record, hp])
    · obtain ⟨e, -, rfl⟩ := List.mem_map.mp hf
      exact .inl rfl

theorem toFrame_kind (o : OwedAck) : o.toFrame.kind = .ack := by
  rcases o with ⟨seq, - | bits⟩ <;> rfl

theorem Agree.drainAcks_sender (h : Agree a b l) :
    Agree a b (next a b l (.drainAcks .sender)) := by
  apply h.sender_advance
  · change Advances (l.sender.record b) (l.sender.drainAcks.1.record b)
    rw [Sessions.record, Sessions.record, Sessions.drainAcks_peer]
    cases l.sender.peer b <;> exact SameOutbox.advances ⟨rfl, rfl⟩
  · intro f hf
    obtain ⟨p, o, -, -, rfl⟩ := Sessions.mem_drainAcks (mem_framesTo.mp hf)
    exact .inl (toFrame_kind o)

theorem onKeyed_record (s : Sessions) (dest : Callsign) (seq : UInt16) (now : ℕ)
    (call : Callsign) :
    (s.onKeyed dest seq now).record call = s.record call ∨
    (s.onKeyed dest seq now).record call = (s.record call).onKeyed s.config seq now := by
  rw [Sessions.record, Sessions.onKeyed_peer, Sessions.record]
  split_ifs
  · refine .inr ?_
    cases s.peer call <;> rfl
  · exact .inl rfl

theorem Agree.keyed_sender (h : Agree a b l) (dest : Callsign) (seq : UInt16) (now : ℕ) :
    Agree a b (next a b l (.keyed .sender dest seq now)) := by
  refine h.sender_advance ?_ (fun f hf => absurd hf List.not_mem_nil)
  change Advances (l.sender.record b) ((l.sender.onKeyed dest seq now).record b)
  rcases onKeyed_record l.sender dest seq now b with hr | hr
  · rw [hr]
    exact SameOutbox.advances ⟨rfl, rfl⟩
  · rw [hr]
    exact onKeyed_advances l.sender.config (l.sender.record b) seq now

/-! ### The steps of the receiver -/

theorem Agree.owed_kept (_ : Agree a b l) : ∀ o, (l.receiver.record a).owedAck = some o →
    o.bitmap.isSome → l.Unfinished b o.seq → l.Kept a b o.seq :=
  fun o ho hb hw => ⟨hw, .inr ⟨o, ho, rfl, hb⟩⟩

/-- A step that leaves the buffers alone: what it says of them was owed. -/
structure Quiet (p q : Peer) (out : List AircFrame) : Prop where
  seen : q.seen = p.seen
  reasm : q.reasm = p.reasm
  owedAck : q.owedAck = p.owedAck ∨ q.owedAck = none
  ack : ∀ f ∈ out, f.kind = .ack → ∃ o, p.owedAck = some o ∧ f = o.toFrame
  piggyback : ∀ f ∈ out, ∀ seq, f.piggybackSeq = some seq → p.owedAck = some ⟨seq, none⟩
  replies : ∀ frames ∈ q.outbox, frames ∈ p.outbox ∨
    ∀ f ∈ frames, f.kind ≠ .ack ∧ f.piggybackSeq = none

theorem quiet_same {p q : Peer} (h : q = p) : Quiet p q [] where
  seen := by rw [h]
  reasm := by rw [h]
  owedAck := .inl (by rw [h])
  ack f hf := absurd hf List.not_mem_nil
  piggyback f hf := absurd hf List.not_mem_nil
  replies frames hf := .inl (h ▸ hf)

theorem Agree.receiver_quiet (h : Agree a b l) {s : Sessions} {out : List AircFrame}
    (hq : Quiet (l.receiver.record a) (s.record a) out) : Agree a b (l.put .receiver s out) := by
  have hcarry : Carries l.messages (l.Kept a b) (l.receiver.record a) l.delivered (s.record a)
      l.delivered := by
    have := @carries_of_reasm l.messages (l.Kept a b) _ _ l.delivered hq.reasm []
    rwa [List.append_nil] at this
  have hbacked : ∀ o, (l.receiver.record a).owedAck = some o →
      o.bitmap ≠ some [] ∧
        Backed l.messages (l.Unfinished b) (s.record a) l.delivered o.seq o.bitmap :=
    fun o ho => ⟨(h.inbox.owed o ho).1, (h.inbox.owed o ho).2.carry hcarry (h.owed_kept o ho)⟩
  have := @Agree.receiver_step a b l h s out [] ?_ ?_ ?_ ?_
  · simpa [Link.put] using this
  · rw [List.append_nil]
    refine ⟨?_, ?_, ?_⟩
    · rw [hq.reasm]
      exact h.inbox.buffers
    · rw [hq.seen]
      exact h.inbox.seen
    · intro o ho
      rcases hq.owedAck with hs | hs
      · exact hbacked o (hs ▸ ho)
      · rw [hs] at ho
        simp at ho
  · rwa [List.append_nil]
  · rw [List.append_nil]
    intro f hf
    constructor
    · intro hk seq bitmap hparse
      obtain ⟨o, ho, rfl⟩ := hq.ack f hf hk
      obtain ⟨hne, hb⟩ := hbacked o ho
      rw [parseAckPayload_toFrame hne] at hparse
      obtain ⟨rfl, rfl⟩ := Prod.mk.inj (Option.some.inj hparse)
      exact hb
    · intro seq hs
      exact (hbacked _ (hq.piggyback f hf seq hs)).2
  · intro frames hf
    exact (hq.replies frames hf).elim (h.replies frames) id

theorem Agree.reply_of (h : Agree a b l) {f : AircFrame}
    (hf : FromOutbox (l.receiver.record a).outbox f) : f.kind ≠ .ack ∧ f.piggybackSeq = none := by
  obtain ⟨frames, hframes, g, hg, rfl | rfl⟩ := hf
  · exact h.replies frames hframes f hg
  · exact h.replies frames hframes g hg

/-- A new message of the receiver, while no record is removed for it. -/
theorem enqueue_quiet {s : Sessions} {call dst : Callsign} {kind : Kind} {payload : List UInt8}
    {reliable : Bool} {now : ℕ} (hk : kind ≠ .ack)
    (hkeep : (s.peer call).isSome → ((s.enqueue dst kind payload reliable now).1.peer call).isSome) :
    Quiet (s.record call) ((s.enqueue dst kind payload reliable now).1.record call)
      (if dst = call then (s.enqueue dst kind payload reliable now).2.frames else []) := by
  have stays : ∀ t : Sessions, (∀ j, t.peer j = s.peer j ∨ j ≠ dst ∧ t.peer j = none) →
      ((s.peer call).isSome → (t.peer call).isSome) → t.record call = s.record call := by
    intro t ht hsome
    apply Sessions.record_of_peer
    rcases ht call with hp | ⟨-, hp⟩
    · exact hp
    · rw [hp] at hsome ⊢
      cases hpa : s.peer call with
      | none => rfl
      | some p => simp [hpa] at hsome
  obtain ⟨t, -, ht, hr | ⟨p, hin, hout, hr⟩⟩ := s.enqueue_cases dst kind payload reliable now
  · rw [hr] at hkeep ⊢
    simp only [SendOutcome.dropped, ite_self]
    exact quiet_same (stays t ht hkeep)
  · rw [hr] at hkeep ⊢
    by_cases hd : dst = call
    · subst hd
      obtain ⟨hseen, hreasm, howed, hpiggy⟩ :=
        enqueue_inbox s.config p s.nextSeq kind payload reliable
      have hbox := enqueue_outbox s.config p s.nextSeq payload reliable hk rfl
      rw [if_pos rfl]
      constructor
      · rw [Sessions.record_store_self, hseen, hin.seen]
      · rw [Sessions.record_store_self, hreasm, hin.reasm]
      · rw [Sessions.record_store_self, ← hin.owedAck]
        exact howed
      · intro f hf hack
        rcases hbox with ⟨hdrop, -⟩ | ⟨-, hv, hfrag, -⟩
        · rw [hdrop] at hf
          exact absurd hf List.not_mem_nil
        · rw [(hfrag f hf).kind] at hack
          exact absurd hack hk
      · intro f hf seq hs
        rw [← hin.owedAck]
        exact hpiggy f hf seq hs
      · rw [Sessions.record_store_self]
        intro frames hframes
        rcases hbox with ⟨-, hsame⟩ | ⟨-, hv, -, hadds, -⟩
        · rw [hsame.outbox, hout.outbox] at hframes
          exact .inl hframes
        · rcases hadds frames hframes with hframes | rfl
          · rw [hout.outbox] at hframes
            exact .inl hframes
          · exact .inr fun f hf => ⟨Message.kind_of_mem hv hf, Message.piggybackSeq_of_mem hf⟩
    · rw [if_neg hd]
      apply quiet_same
      rw [Sessions.record_store_ne _ (Ne.symm hd)]
      apply stays t ht
      simpa [Sessions.peer_store, Ne.symm hd] using hkeep

theorem drainAcks_quiet (s : Sessions) (call : Callsign) :
    Quiet (s.record call) (s.drainAcks.1.record call) (framesTo call s.drainAcks.2) := by
  have hrecord : s.drainAcks.1.record call = { s.record call with owedAck := none } := by
    rw [Sessions.record, Sessions.drainAcks_peer, Sessions.record]
    cases s.peer call <;> rfl
  rw [hrecord]
  refine ⟨rfl, rfl, .inr rfl, ?_, ?_, fun frames hf => .inl hf⟩
  · intro f hf _
    obtain ⟨p, o, hp, ho, rfl⟩ := @Sessions.mem_drainAcks s call f (mem_framesTo.mp hf)
    exact ⟨o, by rw [Sessions.record, hp]; exact ho, rfl⟩
  · intro f hf seq hs
    obtain ⟨p, ⟨oseq, - | bits⟩, -, -, rfl⟩ :=
      @Sessions.mem_drainAcks s call f (mem_framesTo.mp hf)
    · simp [OwedAck.toFrame, ackFor, AircFrame.new] at hs
    · simp [OwedAck.toFrame, ackWithBitmap, AircFrame.new] at hs

theorem keyed_quiet (s : Sessions) (dest : Callsign) (seq : UInt16) (now : ℕ) (call : Callsign) :
    Quiet (s.record call) ((s.onKeyed dest seq now).record call) [] := by
  rcases onKeyed_record s dest seq now call with hr | hr
  · exact quiet_same hr
  · have hin := onKeyed_inbox s.config (s.record call) seq now
    rw [hr]
    refine ⟨hin.seen, hin.reasm, .inl hin.owedAck, fun f hf => absurd hf List.not_mem_nil,
      fun f hf => absurd hf List.not_mem_nil, ?_⟩
    intro frames hframes
    exact .inl ((onKeyed_advances s.config (s.record call) seq now).outbox frames hframes)

/-- What a tick leaves of a record that it does not remove: the buffers that have not timed out.
A buffer that has is reported if an acknowledgement was asked for. -/
structure TickLeaves (cfg : SessionConfig) (now : ℕ) (p q : Peer) (out : List AircFrame) :
    Prop where
  seen : q.seen = p.seen
  reasm : ∀ seq r, q.reasm.get seq = some r ↔ p.reasm.get seq = some r ∧ ¬ expiredReasm cfg now r
  owedAck : q.owedAck = p.owedAck
  outbox : ∀ frames ∈ q.outbox, frames ∈ p.outbox
  out : ∀ f ∈ out, FromOutbox p.outbox f ∨ ∃ seq r, p.reasm.get seq = some r ∧
    expiredReasm cfg now r ∧ r.wantAck = true ∧
    f = ackWithBitmap seq (bitmapFromParts r.parts)

theorem tick_leaves {s : Sessions} {now : ℕ} {retry : Bool} {call : Callsign}
    (hkeep : (s.peer call).isSome → ((s.tickRetries now retry).1.peer call).isSome) :
    TickLeaves s.config now (s.record call) ((s.tickRetries now retry).1.record call)
      (framesTo call (s.tickRetries now retry).2.transmit) := by
  have hpeer := s.tickRetries_peer now retry call
  cases hp : s.peer call with
  | none =>
    have hsame : (s.tickRetries now retry).1.record call = s.record call := by
      apply Sessions.record_of_peer
      rw [hpeer, hp]
      rfl
    have hblank : s.record call = Peer.new 0 := by
      rw [Sessions.record, hp]
      rfl
    rw [hsame]
    refine ⟨rfl, ?_, rfl, fun frames hf => hf, ?_⟩
    · intro seq r
      rw [hblank]
      exact ⟨fun h => (by cases h), fun h => h.1⟩
    · intro f hf
      obtain ⟨p, hp', -⟩ := Sessions.mem_tickRetries (mem_framesTo.mp hf)
      simp [hp] at hp'
  | some p =>
    have hrecord : s.record call = p := by rw [Sessions.record, hp]; rfl
    rw [hpeer, hp, Option.bind_some] at hkeep
    obtain ⟨q, hq⟩ := Option.isSome_iff_exists.mp (hkeep rfl)
    have hrecord' : (s.tickRetries now retry).1.record call = q := by
      rw [Sessions.record, hpeer, hp, Option.bind_some, hq]
      rfl
    have hafter := ticked_after hq
    rw [hrecord, hrecord']
    refine ⟨hafter.seen, ?_, hafter.owedAck, hafter.advances.outbox, ?_⟩
    · intro seq r
      rw [hafter.reasm, expireReasm, Table.get_filterMap, Option.bind_eq_some_iff]
      constructor
      · rintro ⟨r', hr', hr⟩
        split_ifs at hr with he
        obtain rfl := Option.some.inj hr
        exact ⟨hr', he⟩
      · rintro ⟨hr, he⟩
        exact ⟨r, hr, if_neg he⟩
    · intro f hf
      obtain ⟨p', hp', hf⟩ := Sessions.mem_tickRetries (mem_framesTo.mp hf)
      obtain rfl := Option.some.inj (hp.symm.trans hp')
      rcases hf with hf | hf
      · exact .inl hf
      · obtain ⟨⟨seq, r⟩, he, rfl⟩ := List.mem_map.mp hf
        obtain ⟨he, hexp⟩ := List.mem_filter.mp he
        rw [Bool.and_eq_true] at hexp
        exact .inr ⟨seq, r, Table.mem_entries_iff.mp he, hexp.1, hexp.2, rfl⟩

theorem Agree.receive_receiver (h : Agree a b l) {f : AircFrame} {now : ℕ} {addressedToUs : Bool}
    (hf : f ∈ l.forward) (hg : Retains a b l (.receive .receiver f now addressedToUs)) :
    Agree a b (next a b l (.receive .receiver f now addressedToUs)) := by
  obtain ⟨hrestart, hroom⟩ := hg
  obtain ⟨ht, hr⟩ | ⟨p, ht, hr⟩ := l.receiver.onReceive_cases a f now addressedToUs
  · have := @Agree.receiver_quiet a b l h l.receiver [] (quiet_same rfl)
    simpa [next, hr, RxOutcome.default, Link.put] using this
  · obtain ⟨hin, hout, hepoch⟩ := Sessions.touched_same ht
    obtain ⟨hinbox, hcarry⟩ := @Inbox.congr _ _ (l.Kept a b) _ _ _ h.inbox hin
    have hroom' : NoneEvicted l.receiver.config (l.Kept a b) p f := by
      unfold NoneEvicted evictReasm at hroom ⊢
      rwa [hin.seen, hin.reasm]
    obtain ⟨hinbox', hcarry'⟩ := @receive_inbox _ _ (l.Kept a b) p _ l.receiver.config f now
      addressedToUs hinbox h.valid h.unique (h.flying f hf)
      (fun o ho => h.owed_kept o (hin.owedAck ▸ ho))
      (by rw [hepoch, hin.reasm]; exact hrestart) hroom'
    obtain ⟨hbox, hsent⟩ := receive_outbox l.receiver.config p f now addressedToUs
    rw [hout.outbox] at hbox hsent
    have := @Agree.receiver_step a b l h
      (l.receiver.store a (p.receive l.receiver.config f now addressedToUs).1)
      (p.receive l.receiver.config f now addressedToUs).2.transmit
      (p.receive l.receiver.config f now addressedToUs).2.deliver.toList ?_ ?_ ?_ ?_
    · simpa [next, hr, Link.put] using this
    · rw [Sessions.record_store_self]
      exact hinbox'
    · rw [Sessions.record_store_self]
      exact hcarry.trans hcarry'
    · intro g hg
      obtain ⟨hk, hs⟩ := h.reply_of (hsent g hg)
      exact ⟨fun hack => absurd hack hk, fun seq hseq => by simp [hs] at hseq⟩
    · rw [Sessions.record_store_self]
      exact fun frames hframes => h.replies frames (hbox frames hframes)

theorem Agree.tick_receiver (h : Agree a b l) {now : ℕ} {retry : Bool}
    (hg : Guard a b l (.tick .receiver now retry)) :
    Agree a b (next a b l (.tick .receiver now retry)) := by
  obtain ⟨hkeep, hretain⟩ := hg
  have hleft : TickLeaves l.receiver.config now (l.receiver.record a)
      ((l.receiver.tickRetries now retry).1.record a)
      (framesTo a (l.receiver.tickRetries now retry).2.transmit) := tick_leaves hkeep
  change Agree a b (l.put .receiver (l.receiver.tickRetries now retry).1
    (framesTo a (l.receiver.tickRetries now retry).2.transmit))
  have hcarry : Carries l.messages (l.Kept a b) (l.receiver.record a) l.delivered
      ((l.receiver.tickRetries now retry).1.record a) l.delivered := by
    refine ⟨fun _ hd => hd, ?_⟩
    intro m hm hk i hi
    rcases hi with hd | ⟨r, hr, hi⟩
    · exact .inl hd
    · refine .inr ⟨r, (hleft.reasm m.seq r).mpr ⟨hr, fun he => ?_⟩, hi⟩
      exact hretain _ (Table.mem_entries_iff.mpr hr) he hk.1 (.inr hk.2)
  have := @Agree.receiver_step a b l h (l.receiver.tickRetries now retry).1
    (framesTo a (l.receiver.tickRetries now retry).2.transmit) [] ?_ ?_ ?_ ?_
  · simpa [Link.put] using this
  · rw [List.append_nil]
    refine ⟨?_, ?_, ?_⟩
    · exact fun seq r hr => h.inbox.buffers seq r ((hleft.reasm seq r).mp hr).1
    · rw [hleft.seen]
      exact h.inbox.seen
    · intro o ho
      rw [hleft.owedAck] at ho
      exact ⟨(h.inbox.owed o ho).1, (h.inbox.owed o ho).2.carry hcarry (h.owed_kept o ho)⟩
  · rwa [List.append_nil]
  · intro f hf
    rcases hleft.out f hf with hf | ⟨seq, r, hr, he, hwant, rfl⟩
    · obtain ⟨hk, hs⟩ := h.reply_of hf
      exact ⟨fun hack => absurd hack hk, fun seq hseq => by simp [hs] at hseq⟩
    · refine ⟨fun _ seq' bitmap hparse => ?_,
        fun seq' hs => by simp [ackWithBitmap, AircFrame.new] at hs⟩
      rw [parseAckPayload_ackWithBitmap seq (bitmapFromParts_ne_nil _)] at hparse
      obtain ⟨rfl, rfl⟩ := Prod.mk.inj (Option.some.inj hparse)
      obtain ⟨m, hm, hs, -⟩ := h.inbox.buffers seq r hr
      -- the report is about parts just thrown away, so nobody may wait for them
      refine ⟨m, hm, hs, fun hw => ?_⟩
      exact absurd (.inl hwant) (hretain (seq, r) (Table.mem_entries_iff.mpr hr) he hw)
  · exact fun frames hframes => h.replies frames (hleft.outbox frames hframes)

theorem agree_step {e : Event} (h : Agree a b l) (hg : Guard a b l e) (he : Enabled a b l e) :
    Agree a b (next a b l e) := by
  cases e with
  | enqueue side dst kind payload reliable now =>
    cases side with
    | sender => exact h.enqueue_sender hg he
    | receiver => exact h.receiver_quiet (enqueue_quiet he hg.1)
  | receive side f now addressedToUs =>
    cases side with
    | sender => exact h.receive_sender he
    | receiver => exact h.receive_receiver he hg.2
  | foreign side src f now addressedToUs =>
    cases side with
    | sender =>
      refine h.sender_advance ?_ (fun f hf => absurd hf List.not_mem_nil)
      exact advances_of_peer (.inl (l.sender.onReceive_peer (Ne.symm he) f now addressedToUs))
    | receiver =>
      apply h.receiver_quiet
      exact quiet_same (Sessions.record_of_peer (l.receiver.onReceive_peer (Ne.symm he) f now addressedToUs))
  | tick side now retry =>
    cases side with
    | sender => exact h.tick_sender now retry
    | receiver => exact h.tick_receiver hg
  | drainAcks side =>
    cases side with
    | sender => exact h.drainAcks_sender
    | receiver => exact h.receiver_quiet (drainAcks_quiet l.receiver a)
  | keyed side dest seq now =>
    cases side with
    | sender => exact h.keyed_sender dest seq now
    | receiver => exact h.receiver_quiet (keyed_quiet l.receiver dest seq now a)
  | drawSeq side =>
    cases side with
    | sender =>
      exact h.sender_advance (advances_of_peer (.inl rfl)) (fun f hf => absurd hf List.not_mem_nil)
    | receiver => exact h.receiver_quiet (quiet_same rfl)

end

/-- A message completed by an acknowledgement has been delivered whole. -/
theorem acknowledged_message_delivered (cfg : SessionConfig) (a b : Callsign) {l : Link}
    (h : Reachable (system cfg a b) (Guard a b) l) :
    ∀ frames ∈ l.completed, ∃ m ∈ l.messages, m.frames = frames ∧
      ∃ d ∈ l.delivered, d.kind = m.kind ∧ d.seq = m.seq ∧ d.payload = m.payload := by
  have hl : Agree a b l := by
    refine (Inductive.ofNext ?_ ?_).reachable h
    · rintro l rfl
      exact agree_initial cfg
    · intro l e hl hg he
      exact agree_step hl hg he
  exact hl.done

/-! ### Two runs of a message of two fragments -/

def cfg : SessionConfig := { SessionConfig.default with paclen := 24 }
def station : Callsign := ⟨"SM0ABC", 7⟩
def gateway : Callsign := ⟨"SK0MT", 1⟩

/-- Two fragments: seventeen octets where sixteen fit. -/
def text : Message := ⟨.msg, 1, true, .replicate 17 120, [.replicate 16 120, [120]]⟩

def fragment (i : ℕ) : AircFrame :=
  ⟨.msg, Flags.ackReq, 1, .ofNat i, 2, if i = 0 then .replicate 16 120 else [120], none⟩

/-- The second fragment is lost, and everything is repeated. A bitmap asks for the second alone. -/
def repairedRun : List Event :=
  [.enqueue .sender gateway .msg text.payload true 0,
    .receive .receiver (fragment 0) (secs 1) true,
    .keyed .sender gateway 1 (secs 1),
    .tick .sender (secs 20) true,
    .receive .receiver (retryFrame (fragment 0)) (secs 21) true,
    .drainAcks .receiver,
    .receive .sender (ackWithBitmap 1 [1]) (secs 22) true,
    .receive .receiver (retryFrame (fragment 1)) (secs 23) true,
    .drainAcks .receiver,
    .receive .sender (ackFor 1) (secs 24) true]

theorem acknowledged_message_delivered_repaired :
    (repairedRun.foldl (next station gateway) (initial cfg)).completed = [text.frames] ∧
    ∀ frames ∈ (repairedRun.foldl (next station gateway) (initial cfg)).completed,
      ∃ m ∈ (repairedRun.foldl (next station gateway) (initial cfg)).messages, m.frames = frames ∧
        ∃ d ∈ (repairedRun.foldl (next station gateway) (initial cfg)).delivered,
          d.kind = m.kind ∧ d.seq = m.seq ∧ d.payload = m.payload := by
  refine ⟨by decide +kernel, ?_⟩
  apply acknowledged_message_delivered cfg station gateway
  exact (Reachable.initial rfl).run (by decide +kernel)

/-- The receiver gives up the first fragment and says that it has it, then the second. -/
def forgottenRun : List Event :=
  [.enqueue .sender gateway .msg text.payload true 0,
    .receive .receiver (fragment 0) (secs 1) true,
    .tick .receiver (secs 61) true,
    .receive .sender (ackWithBitmap 1 [1]) (secs 62) true,
    .receive .receiver (retryFrame (fragment 1)) (secs 63) true,
    .drainAcks .receiver,
    .receive .sender (ackWithBitmap 1 [2]) (secs 64) true]

/-- The sender counts two fragments that the receiver never had at the same time. -/
theorem completed_but_forgotten :
    ∃ l, Reachable (system cfg station gateway) (KeepsPeer station gateway) l ∧
      l.completed = [text.frames] ∧ l.delivered = [] :=
  ⟨forgottenRun.foldl (next station gateway) (initial cfg),
    (Reachable.initial rfl).run (by decide +kernel), by decide +kernel, by decide +kernel⟩

end ReliableDelivery
