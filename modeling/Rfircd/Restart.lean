import Rfircd.Incarnations

/-! A station that restarts, and its correspondent that does not.
The restarted station has an empty table and counts from one again; it may announce itself with
a HELLO. Every frame ever sent stays in the channel. -/
namespace Restart

open Basics Airc AircSession KeyedTable TransitionSystem FragmentBuffers Incarnations

/-- The sender restarts, the receiver keeps its state. A frame of the sender is in the channel
with the incarnation that sent it, a frame of the receiver with the incarnation whose message it
acknowledges. `memory` is the incarnation a number is remembered for, `owed` the one of the owed
acknowledgement. `messages`, `completed` and `delivered` are about the present incarnation. -/
structure Pair where
  sender : Sessions
  receiver : Sessions
  forward : List (ℕ × AircFrame)
  backward : List (ℕ × AircFrame)
  incarnation : ℕ
  memory : UInt16 → ℕ
  owed : ℕ
  messages : List Message
  completed : List (List AircFrame)
  delivered : List AircFrame

inductive Event where
  | restart
  | toReceiver (incarnation : ℕ) (frame : AircFrame) (now : ℕ) (addressedToUs : Bool)
  | toSender (incarnation : ℕ) (frame : AircFrame) (now : ℕ) (addressedToUs : Bool)
  /-- A step that receives nothing from the other side. -/
  | step (e : ReliableDelivery.Event)

/-- The frames that belong to an incarnation. -/
def ofIncarnation (k : ℕ) (frames : List (ℕ × AircFrame)) : List AircFrame :=
  frames.filterMap fun e => if e.1 = k then some e.2 else none

namespace Pair

def mine (l : Pair) (seq : UInt16) : Bool := l.memory seq = l.incarnation

def own (l : Pair) : Bool := l.owed = l.incarnation

/-- The two sessions with nothing in the channel. -/
def bare (l : Pair) : ReliableDelivery.Link :=
  ⟨l.sender, l.receiver, [], [], l.messages, l.completed, l.delivered⟩

/-- What there is of the present incarnation. -/
def present (a : Callsign) (l : Pair) : ReliableDelivery.Link :=
  ⟨l.sender, l.receiver.store a (only (l.receiver.record a) l.mine l.own),
    ofIncarnation l.incarnation l.forward, ofIncarnation l.incarnation l.backward, l.messages,
    l.completed, l.delivered⟩

/-- The incarnation that a frame of the receiver has something to say to. A buffer that timed
out is reported under its own number. -/
def addressee (l : Pair) : ReliableDelivery.Event → AircFrame → ℕ
  | .tick _ _ _, f => if f.kind = .ack then l.memory f.seq else l.incarnation
  | _, _ => l.owed

/-- The number of a frame is remembered for its incarnation from now on; a HELLO in one frame is
taken in again. -/
def remember (l : Pair) (p : Peer) (k : ℕ) (f : AircFrame) : UInt16 → ℕ := fun seq =>
  if f.kind ≠ .ack ∧ seq = f.seq ∧ (f.seq ∉ (p.piggybacked f).seen ∨
      k = l.incarnation ∧ f.kind = .hello ∧ f.fragTotal = 1) then k
  else l.memory seq

end Pair

def next (a b : Callsign) (l : Pair) : Event → Pair
  | .restart => { l with
      sender := .new l.sender.config
      incarnation := l.incarnation + 1
      messages := []
      completed := []
      delivered := [] }
  | .toReceiver k f now addressedToUs =>
    let l' := ReliableDelivery.next a b l.bare (.receive .receiver f now addressedToUs)
    match l.receiver.touched a now with
    | none => l
    | some p => { l with
        receiver := l'.receiver
        backward := l.backward ++ l'.backward.map fun g => (l.incarnation, g)
        memory := l.remember p k f
        owed := if f.kind ≠ .ack ∧
            owes l.receiver.config (p.piggybacked f) f now addressedToUs = true
          then l.remember p k f f.seq else l.owed
        delivered := if k = l.incarnation then l'.delivered else l.delivered }
  | .toSender _ f now addressedToUs =>
    let l' := ReliableDelivery.next a b l.bare (.receive .sender f now addressedToUs)
    { l with
      sender := l'.sender
      forward := l.forward ++ l'.forward.map fun g => (l.incarnation, g)
      completed := l'.completed }
  | .step e =>
    let l' := ReliableDelivery.next a b l.bare e
    { l with
      sender := l'.sender
      receiver := l'.receiver
      forward := l.forward ++ l'.forward.map fun g => (l.incarnation, g)
      backward := l.backward ++ l'.backward.map fun g => (l.addressee e g, g)
      messages := l'.messages }

def Enabled (a b : Callsign) (l : Pair) : Event → Prop
  | .restart => True
  | .toReceiver k f _ _ => (k, f) ∈ l.forward
  | .toSender k f _ _ => (k, f) ∈ l.backward
  | .step (.receive _ _ _ _) => False
  | .step e => ReliableDelivery.Enabled a b l.bare e

def initial (cfg : SessionConfig) : Pair :=
  ⟨.new cfg, .new cfg, [], [], 0, fun _ => 0, 0, [], [], []⟩

def system (cfg : SessionConfig) (a b : Callsign) : System Pair Event :=
  .ofNext (· = initial cfg) (Enabled a b) (next a b)

/-! ### What must not be confused -/

/-- The numbers that a frame acknowledges. -/
def acknowledges (f : AircFrame) (seq : UInt16) : Prop :=
  f.piggybackSeq = some seq ∨
    f.kind = .ack ∧ (parseAckPayload f.payload).any (fun e => e.1 == seq) = true

/-- A fragment does not meet the buffer of another message under its number, and a message of
the present incarnation is not taken for an old one that is remembered. -/
def Told (a : Callsign) (l : Pair) (k : ℕ) (f : AircFrame) : Prop :=
  let p := (l.receiver.record a).piggybacked f
  (f.seq ∉ p.seen → f.seq ∈ p.reasm.keys → l.memory f.seq = k) ∧
  (k = l.incarnation → f.seq ∈ p.seen → l.memory f.seq = k ∨
    f.kind = .hello ∧ f.fragTotal = 1 ∧ f.seq ∉ p.reasm.keys)

/-- An acknowledgement of an older message is not taken for one of the message in flight. -/
def Answered (b : Callsign) (l : Pair) (k : ℕ) (f : AircFrame) : Prop :=
  k = l.incarnation ∨
    ∀ pd ∈ (l.sender.record b).pending, ∀ seq ∈ pd.seq?, ¬ acknowledges f seq

def Guard (a b : Callsign) (l : Pair) : Event → Prop
  | .restart => True
  | .toReceiver k f _ _ =>
    (f.kind ≠ .ack → Told a l k f) ∧
    (f.kind = .hello → helloEpoch f ≠ (l.receiver.record a).epoch →
      ∀ seq ∈ (l.receiver.record a).reasm.keys,
        ¬ (l.mine seq = true ∧ (l.present a).Kept a b seq)) ∧
    NoneEvicted l.receiver.config (fun seq => l.mine seq = true ∧ (l.present a).Kept a b seq)
      (l.receiver.record a) f
  | .toSender k f _ _ => Answered b l k f
  | .step e => ReliableDelivery.KeepsPeer a b l.bare e ∧
      ReliableDelivery.Retains a b (l.present a) e

/-- The frame is not delivered, for its number is known. -/
def TakenForRepetition (a : Callsign) (l : Pair) (f : AircFrame) : Prop :=
  f.kind ≠ .ack ∧ f.kind ≠ .hello ∧ f.seq ∈ ((l.receiver.record a).piggybacked f).seen

section

variable (a b : Callsign) (l : Pair) (k : ℕ) (f : AircFrame) (e : Event)

instance : Decidable (Enabled a b l e) := by
  unfold Enabled
  split <;> infer_instance

instance (seq : UInt16) : Decidable (acknowledges f seq) :=
  inferInstanceAs (Decidable (_ ∨ _))

instance : Decidable (Told a l k f) := inferInstanceAs (Decidable (_ ∧ _))

instance : Decidable (Answered b l k f) := inferInstanceAs (Decidable (_ ∨ _))

instance : Decidable (Guard a b l e) := by
  unfold Guard
  split <;> infer_instance

instance : Decidable (TakenForRepetition a l f) := inferInstanceAs (Decidable (_ ∧ _))

end

/-! ### Frames by incarnation -/

section

variable {a b : Callsign} {l : Pair}

theorem mem_ofIncarnation {k : ℕ} {frames : List (ℕ × AircFrame)} {f : AircFrame} :
    f ∈ ofIncarnation k frames ↔ (k, f) ∈ frames := by
  rw [ofIncarnation, List.mem_filterMap]
  constructor
  · rintro ⟨⟨j, g⟩, he, h⟩
    split_ifs at h with hj
    obtain rfl := Option.some.inj h
    subst hj
    exact he
  · intro h
    exact ⟨_, h, if_pos rfl⟩

@[simp] theorem ofIncarnation_append (k : ℕ) (x y : List (ℕ × AircFrame)) :
    ofIncarnation k (x ++ y) = ofIncarnation k x ++ ofIncarnation k y := List.filterMap_append

theorem ofIncarnation_map (k : ℕ) (tag : AircFrame → ℕ) (out : List AircFrame) :
    ofIncarnation k (out.map fun g => (tag g, g)) = out.filter fun g => tag g = k := by
  rw [ofIncarnation, List.filterMap_map]
  induction out with
  | nil => rfl
  | cons g out ih =>
    by_cases hg : tag g = k
    · rw [List.filterMap_cons_some (b := g) (by simp [hg]), List.filter_cons_of_pos (by simpa using hg), ih]
    · rw [List.filterMap_cons_none (by simp [hg]), List.filter_cons_of_neg (by simpa using hg), ih]

@[simp] theorem ofIncarnation_same (k : ℕ) (out : List AircFrame) :
    ofIncarnation k (out.map fun g => (k, g)) = out := by
  rw [ofIncarnation_map, List.filter_eq_self]
  simp

theorem present_record (a : Callsign) (l : Pair) :
    (l.present a).receiver.record a = only (l.receiver.record a) l.mine l.own :=
  Sessions.record_store_self ..

/-- What the invariant says besides the agreement: nothing is tagged for a later incarnation. -/
structure Invariant (a b : Callsign) (l : Pair) : Prop where
  agree : ReliableDelivery.Agree a b (l.present a)
  memory : ∀ seq, l.memory seq ≤ l.incarnation
  owed : l.owed ≤ l.incarnation
  forward : ∀ e ∈ l.forward, e.1 ≤ l.incarnation
  backward : ∀ e ∈ l.backward, e.1 ≤ l.incarnation

/-! ### Restarting -/

/-- Nothing is known of an incarnation that has sent nothing. -/
theorem agree_blank {s : Sessions} {l : ReliableDelivery.Link} (hs : s.record b = Peer.new 0)
    (hseen : (l.receiver.record a).seen = []) (hreasm : ∀ seq, (l.receiver.record a).reasm.get seq = none)
    (howed : (l.receiver.record a).owedAck = none)
    (hreplies : ∀ frames ∈ (l.receiver.record a).outbox, ∀ f ∈ frames,
      f.kind ≠ .ack ∧ f.piggybackSeq = none) :
    ReliableDelivery.Agree a b ⟨s, l.receiver, [], [], [], [], []⟩ where
  valid m hm := absurd hm List.not_mem_nil
  unique m hm := absurd hm List.not_mem_nil
  flying f hf := absurd hf List.not_mem_nil
  outbox frames hf := by
    change frames ∈ (s.record b).outbox at hf
    rw [hs] at hf
    exact absurd hf List.not_mem_nil
  marked pd hpd := by
    change (s.record b).pending = some pd at hpd
    rw [hs] at hpd
    simp [Peer.new] at hpd
  inbox := by
    refine ⟨?_, ?_, ?_⟩
    · intro seq r hr
      rw [hreasm] at hr
      cases hr
    · intro seq hs
      rw [hseen] at hs
      exact absurd hs List.not_mem_nil
    · intro o ho
      rw [howed] at ho
      cases ho
  truthful f hf := absurd hf List.not_mem_nil
  replies := hreplies
  done frames hf := absurd hf List.not_mem_nil

theorem invariant_initial (cfg : SessionConfig) : Invariant a b (initial cfg) where
  agree := by
    apply @agree_blank a b (.new cfg) ((initial cfg).present a) rfl
    · rw [present_record]
      rfl
    · intro seq
      rw [present_record]
      rfl
    · rw [present_record]
      rfl
    · rw [present_record]
      exact fun frames hf => absurd hf List.not_mem_nil
  memory _ := le_rfl
  owed := le_rfl
  forward _ he := absurd he List.not_mem_nil
  backward _ he := absurd he List.not_mem_nil

theorem Invariant.restart (h : Invariant a b l) : Invariant a b (next a b l .restart) := by
  have hmine : ∀ seq, (next a b l .restart).mine seq = false := by
    intro seq
    have := h.memory seq
    exact decide_eq_false (by simp only [next]; omega)
  have hown : (next a b l .restart).own = false := by
    have := h.owed
    exact decide_eq_false (by simp only [next]; omega)
  have hnone : ∀ frames : List (ℕ × AircFrame), (∀ e ∈ frames, e.1 ≤ l.incarnation) →
      ofIncarnation (l.incarnation + 1) frames = [] := by
    intro frames hle
    apply List.eq_nil_iff_forall_not_mem.mpr
    intro f hf
    have := hle _ (mem_ofIncarnation.mp hf)
    simp only at this
    omega
  have hpresent : (next a b l .restart).present a = ⟨.new l.sender.config,
      l.receiver.store a (only (l.receiver.record a) (fun _ => false) false), [], [], [], [], []⟩ := by
    simp only [Pair.present, show (next a b l .restart).mine = fun _ => false from funext hmine, hown]
    simp [next, hnone _ h.forward, hnone _ h.backward]
  refine ⟨?_, ?_, ?_, ?_, ?_⟩
  · rw [hpresent]
    refine @agree_blank a b _ ⟨.new l.sender.config, l.receiver.store a
      (only (l.receiver.record a) (fun _ => false) false), [], [], [], [], []⟩ rfl ?_ ?_ ?_ ?_
    · simp [only]
    · intro seq
      rw [Sessions.record_store_self, only_get]
      simp
    · simp [only]
    · rw [Sessions.record_store_self]
      have := h.agree.replies
      simp only [Pair.present, Sessions.record_store_self] at this
      exact this
  · exact fun seq => Nat.le_succ_of_le (h.memory seq)
  · exact Nat.le_succ_of_le h.owed
  · exact fun e he => Nat.le_succ_of_le (h.forward e he)
  · exact fun e he => Nat.le_succ_of_le (h.backward e he)

/-! ### The steps of the sender -/

/-- A step of the sender: it says what it says in the present incarnation. -/
theorem Invariant.sender_side (h : Invariant a b l) {s : Sessions} {out : List AircFrame}
    {messages : List Message} {completed : List (List AircFrame)}
    (hagree : ReliableDelivery.Agree a b ⟨s, (l.present a).receiver, (l.present a).forward ++ out,
      (l.present a).backward, messages, completed, l.delivered⟩) :
    Invariant a b { l with
      sender := s
      forward := l.forward ++ out.map fun g => (l.incarnation, g)
      messages := messages
      completed := completed } := by
  refine ⟨?_, h.memory, h.owed, ?_, h.backward⟩
  · simp only [Pair.present, ofIncarnation_append, ofIncarnation_same] at hagree ⊢
    exact hagree
  · intro e he
    rcases List.mem_append.mp he with he | he
    · exact h.forward e he
    · obtain ⟨g, -, rfl⟩ := List.mem_map.mp he
      exact le_rfl

/-- An acknowledgement of another number leaves what is in flight alone. -/
theorem applyAck_other {p : Peer} {seq : UInt16} (bitmap : Option (List UInt8))
    (h : ∀ pd ∈ p.pending, pd.seq? ≠ some seq) :
    applyAck p seq bitmap = (p, []) ∧ ReliableDelivery.ackCompletes p seq bitmap = [] := by
  rw [applyAck, ReliableDelivery.ackCompletes]
  cases hp : p.pending with
  | none => exact ⟨rfl, rfl⟩
  | some pd =>
    have hne := h pd hp
    exact ⟨if_pos hne, if_neg fun hc => hne hc.1⟩

theorem receive_unanswered {cfg : SessionConfig} {p : Peer} {f : AircFrame} {now : ℕ}
    {addressedToUs : Bool}
    (h : ∀ pd ∈ p.pending, ∀ seq ∈ pd.seq?, ¬ acknowledges f seq) :
    Advances p (p.receive cfg f now addressedToUs).1 ∧
      (p.receive cfg f now addressedToUs).2.transmit = [] ∧
      ReliableDelivery.completions p f = [] := by
  have hreset : ∀ pd ∈ (helloReset p.noteAirc f).pending, pd ∈ p.pending := by
    intro pd hpd
    rw [helloReset] at hpd
    split_ifs at hpd
    · cases hpd
    · exact hpd
  have hpiggy : applyPiggyback (helloReset p.noteAirc f) f = (helloReset p.noteAirc f, []) ∧
      ∀ seq, f.piggybackSeq = some seq →
        ReliableDelivery.ackCompletes (helloReset p.noteAirc f) seq none = [] := by
    rw [applyPiggyback]
    cases hs : f.piggybackSeq with
    | none => exact ⟨rfl, fun seq hseq => by cases hseq⟩
    | some seq =>
      have hother := @applyAck_other (helloReset p.noteAirc f) seq none
        fun pd hpd hseq => h pd (hreset pd hpd) seq hseq (.inl hs)
      refine ⟨hother.1, fun seq' hseq' => ?_⟩
      obtain rfl := Option.some.inj hseq'
      exact hother.2
  have hbase : p.piggybacked f = helloReset p.noteAirc f := by
    rw [Peer.piggybacked, hpiggy.1]
  have hadv : Advances p (p.piggybacked f) := hbase ▸ helloReset_advances p f
  have hack : f.kind = .ack → ∀ parsed, parseAckPayload f.payload = some parsed →
      applyAck (p.piggybacked f) parsed.1 parsed.2 = (p.piggybacked f, []) ∧
        ReliableDelivery.ackCompletes (p.piggybacked f) parsed.1 parsed.2 = [] := by
    intro hk parsed hparse
    apply applyAck_other
    intro pd hpd hseq
    refine h pd (hreset pd (hbase ▸ hpd)) parsed.1 hseq (.inr ⟨hk, ?_⟩)
    simp [hparse]
  have hcompletions : ReliableDelivery.completions p f = [] := by
    rw [ReliableDelivery.completions, List.append_eq_nil_iff]
    constructor
    · split
      · rfl
      · exact hpiggy.2 _ ‹_›
    · split_ifs with hk
      · cases hparse : parseAckPayload f.payload with
        | none => rfl
        | some parsed => exact (hack hk parsed hparse).2
      · rfl
  by_cases hk : f.kind = .ack
  · rw [receive_of_ack hk, hpiggy.1]
    cases hparse : parseAckPayload f.payload with
    | none => exact ⟨hadv, rfl, hcompletions⟩
    | some parsed =>
      have hother := (hack hk parsed hparse).1
      simp only [hother]
      exact ⟨hadv, rfl, hcompletions⟩
  · rw [receive_of_message hk, hpiggy.1]
    exact ⟨hadv.trans (receiveMessage_outbox cfg (p.piggybacked f) f now addressedToUs).advances,
      rfl, hcompletions⟩

theorem Invariant.toSender (h : Invariant a b l) {k : ℕ} {f : AircFrame} {now : ℕ}
    {addressedToUs : Bool} (he : (k, f) ∈ l.backward) (hg : Answered b l k f) :
    Invariant a b (next a b l (.toSender k f now addressedToUs)) := by
  by_cases hk : k = l.incarnation
  · have hmem : f ∈ (l.present a).backward := mem_ofIncarnation.mpr (hk ▸ he)
    have hagree := @ReliableDelivery.Agree.receive_sender _ _ _ h.agree f now addressedToUs hmem
    exact h.sender_side hagree
  · obtain ⟨ht, hr⟩ | ⟨p, ht, hr⟩ := l.sender.onReceive_cases b f now addressedToUs
    · have hsame : next a b l (.toSender k f now addressedToUs) = l := by
        simp [next, ReliableDelivery.next, Pair.bare, ReliableDelivery.Link.put, hr, ht,
          RxOutcome.default]
      rw [hsame]
      exact h
    · obtain ⟨-, hsame, -⟩ := Sessions.touched_same ht
      obtain ⟨hadv, htransmit, hcompletions⟩ := @receive_unanswered l.sender.config p f now
        addressedToUs fun pd hpd => hg.resolve_left hk pd (hsame.pending ▸ hpd)
      have hnext : next a b l (.toSender k f now addressedToUs) = { l with
          sender := l.sender.store b (p.receive l.sender.config f now addressedToUs).1 } := by
        simp [next, ReliableDelivery.next, Pair.bare, ReliableDelivery.Link.put, hr, ht, htransmit,
          hcompletions]
      have hagree := @ReliableDelivery.Agree.sender_advance a b (l.present a) h.agree
        (l.sender.store b (p.receive l.sender.config f now addressedToUs).1) [] ?_ (by simp)
      · have hside := @Invariant.sender_side a b l h _ [] _ _ hagree
        rw [List.map_nil, List.append_nil] at hside
        rw [hnext]
        exact hside
      · rw [Sessions.record_store_self]
        exact hsame.advances.trans hadv

/-- A step in which the sender acts alone. -/
theorem Invariant.sender_acts (h : Invariant a b l) {e : ReliableDelivery.Event}
    (hagree : ReliableDelivery.Agree a b (ReliableDelivery.next a b (l.present a) e))
    (hnext : ∃ s out messages, ∀ r fw bw,
      ReliableDelivery.next a b ⟨l.sender, r, fw, bw, l.messages, l.completed, l.delivered⟩ e =
        ⟨s, r, fw ++ out, bw, messages, l.completed, l.delivered⟩) :
    Invariant a b (next a b l (.step e)) := by
  obtain ⟨s, out, messages, hnext⟩ := hnext
  have hpair : next a b l (.step e) = { l with
      sender := s
      forward := l.forward ++ out.map fun g => (l.incarnation, g)
      messages := messages
      completed := l.completed } := by
    simp [next, Pair.bare, hnext]
  rw [hpair]
  apply h.sender_side
  rw [Pair.present, hnext] at hagree
  exact hagree

theorem enqueue_acts (l : Pair) (dst : Callsign) (kind : Kind) (payload : List UInt8)
    (reliable : Bool) (now : ℕ) : ∃ s out messages, ∀ r fw bw,
      ReliableDelivery.next a b ⟨l.sender, r, fw, bw, l.messages, l.completed, l.delivered⟩
        (.enqueue .sender dst kind payload reliable now) =
          ⟨s, r, fw ++ out, bw, messages, l.completed, l.delivered⟩ := by
  refine ⟨(l.sender.enqueue dst kind payload reliable now).1,
    if dst = ReliableDelivery.remote a b .sender then
      (l.sender.enqueue dst kind payload reliable now).2.frames else [],
    if dst = b ∧ (l.sender.enqueue dst kind payload reliable now).2.accepted = true then
      l.messages ++ [ReliableDelivery.messageOf l.sender dst kind payload reliable]
    else l.messages, fun r fw bw => ?_⟩
  simp only [ReliableDelivery.next, ReliableDelivery.Link.put, ReliableDelivery.Link.session,
    true_and]
  by_cases hadds : dst = b ∧ (l.sender.enqueue dst kind payload reliable now).2.accepted = true
  · rw [if_pos hadds, if_pos hadds]
  · rw [if_neg hadds, if_neg hadds]

theorem Invariant.enqueue_sender (h : Invariant a b l) {dst : Callsign} {kind : Kind}
    {payload : List UInt8} {reliable : Bool} {now : ℕ}
    (hg : Guard a b l (.step (.enqueue .sender dst kind payload reliable now))) (hk : kind ≠ .ack) :
    Invariant a b (next a b l (.step (.enqueue .sender dst kind payload reliable now))) := by
  apply h.sender_acts _ (enqueue_acts l dst kind payload reliable now)
  apply h.agree.enqueue_sender _ hk
  refine ⟨?_, hg.2⟩
  obtain ⟨s, out, messages, hnext⟩ := @enqueue_acts a b l dst kind payload reliable now
  intro hp
  rw [Pair.present, hnext]
  exact hp

/-! ### The steps of the receiver -/

/-- A step of the receiver that receives nothing from the sender; its frames are tagged. -/
theorem Invariant.receiver_side (h : Invariant a b l) {s : Sessions} {out : List AircFrame}
    {tag : AircFrame → ℕ} (htag : ∀ f ∈ out, tag f ≤ l.incarnation)
    (hagree : ReliableDelivery.Agree a b ((l.present a).put .receiver
      (s.store a (only (s.record a) l.mine l.own)) (out.filter fun g => tag g = l.incarnation))) :
    Invariant a b { l with
      receiver := s
      backward := l.backward ++ out.map fun g => (tag g, g) } := by
  refine ⟨?_, h.memory, h.owed, h.forward, ?_⟩
  · simp only [Pair.present, ofIncarnation_append, ofIncarnation_map]
    exact hagree
  · intro e he
    rcases List.mem_append.mp he with he | he
    · exact h.backward e he
    · obtain ⟨g, hg, rfl⟩ := List.mem_map.mp he
      exact htag g hg

theorem only_quiet {p q : Peer} {out : List AircFrame} (h : ReliableDelivery.Quiet p q out)
    (mine : UInt16 → Bool) (own : Bool) :
    ReliableDelivery.Quiet (only p mine own) (only q mine own) (out.filter fun _ => own) where
  seen := by rw [only, only, h.seen]
  reasm := by rw [only, only, h.reasm]
  owedAck := by
    cases own with
    | false => exact .inr rfl
    | true => exact h.owedAck
  ack f hf hk := by
    obtain ⟨hout, rfl⟩ := List.mem_filter.mp hf
    exact h.ack f hout hk
  piggyback f hf seq hs := by
    obtain ⟨hout, rfl⟩ := List.mem_filter.mp hf
    exact h.piggyback f hout seq hs
  replies := h.replies

theorem Invariant.receiver_quiet (h : Invariant a b l) {s : Sessions} {out : List AircFrame}
    (hq : ReliableDelivery.Quiet (l.receiver.record a) (s.record a) out) :
    Invariant a b { l with
      receiver := s
      backward := l.backward ++ out.map fun g => (l.owed, g) } := by
  apply h.receiver_side fun _ _ => h.owed
  apply h.agree.receiver_quiet
  rw [present_record, Sessions.record_store_self]
  exact only_quiet hq l.mine l.own

/-- A step of the receiver that leaves the buffers alone. -/
theorem Invariant.quiet_step (h : Invariant a b l) {e : ReliableDelivery.Event} {s : Sessions}
    {out : List AircFrame} (hq : ReliableDelivery.Quiet (l.receiver.record a) (s.record a) out)
    (hnext : next a b l (.step e) = { l with
      receiver := s
      backward := l.backward ++ out.map fun g => (l.owed, g) }) :
    Invariant a b (next a b l (.step e)) := by
  rw [hnext]
  exact h.receiver_quiet hq

theorem Invariant.tick_receiver (h : Invariant a b l) {now : ℕ} {retry : Bool}
    (hg : Guard a b l (.step (.tick .receiver now retry))) :
    Invariant a b (next a b l (.step (.tick .receiver now retry))) := by
  obtain ⟨hkeep, hretain⟩ := hg
  have hleft : ReliableDelivery.TickLeaves l.receiver.config now (l.receiver.record a)
      ((l.receiver.tickRetries now retry).1.record a)
      (framesTo a (l.receiver.tickRetries now retry).2.transmit) :=
    ReliableDelivery.tick_leaves hkeep
  have hnext : next a b l (.step (.tick .receiver now retry)) = { l with
      receiver := (l.receiver.tickRetries now retry).1
      backward := l.backward ++ (framesTo a (l.receiver.tickRetries now retry).2.transmit).map
        fun g => (if g.kind = .ack then l.memory g.seq else l.incarnation, g) } := by
    simp [next, ReliableDelivery.next, Pair.bare, ReliableDelivery.Link.put,
      ReliableDelivery.Link.session, ReliableDelivery.remote, Pair.addressee]
  rw [hnext]
  have hin := h.agree.inbox
  have howed := h.agree.owed_kept
  change ∀ e ∈ ((l.present a).receiver.record a).reasm.entries,
    expiredReasm l.receiver.config now e.2 → _ at hretain
  rw [present_record] at hin howed hretain
  generalize (l.receiver.tickRetries now retry).1 = s,
    framesTo a (l.receiver.tickRetries now retry).2.transmit = out at hleft ⊢
  have hcarry : Carries l.messages ((l.present a).Kept a b)
      (only (l.receiver.record a) l.mine l.own) l.delivered
      (only (s.record a) l.mine l.own) l.delivered := by
    have := @carries_only l.messages ((l.present a).Kept a b) (l.receiver.record a) (s.record a)
      l.delivered [] l.mine l.mine l.own l.own ?_
    · rwa [List.append_nil] at this
    · intro m hm hk hmine r hr
      refine .inr ⟨hmine, r, (hleft.reasm m.seq r).mpr ⟨hr, fun he => ?_⟩, fun _ hi => hi⟩
      exact hretain _ (Table.mem_entries_iff.mpr (only_get_some.mpr ⟨hmine, hr⟩)) he hk.1 (.inr hk.2)
  apply h.receiver_side
  · intro f _
    split_ifs
    · exact h.memory f.seq
    · exact le_rfl
  have := @ReliableDelivery.Agree.receiver_step a b (l.present a) h.agree
    (s.store a (only (s.record a) l.mine l.own))
    (out.filter fun g => (if g.kind = .ack then l.memory g.seq else l.incarnation) = l.incarnation)
    [] ?_ ?_ ?_ ?_
  · simpa [ReliableDelivery.Link.put] using this
  · rw [List.append_nil, Sessions.record_store_self]
    refine ⟨?_, ?_, ?_⟩
    · intro seq r hr
      obtain ⟨hmine, hr⟩ := only_get_some.mp hr
      exact hin.buffers seq r (only_get_some.mpr ⟨hmine, ((hleft.reasm seq r).mp hr).1⟩)
    · intro seq hs
      obtain ⟨hs, hmine⟩ := mem_only_seen.mp hs
      exact hin.seen seq (mem_only_seen.mpr ⟨hleft.seen ▸ hs, hmine⟩)
    · intro o ho
      have ho' : (only (l.receiver.record a) l.mine l.own).owedAck = some o := by
        rw [only, hleft.owedAck] at ho
        exact ho
      exact ⟨(hin.owed o ho').1, (hin.owed o ho').2.carry hcarry (howed o ho')⟩
  · rw [List.append_nil, Sessions.record_store_self, present_record]
    exact hcarry
  · intro f hf
    obtain ⟨hf, htag⟩ := List.mem_filter.mp hf
    rcases hleft.out f hf with hf | ⟨seq, r, hr, he, hwant, rfl⟩
    · have hbox : FromOutbox ((l.present a).receiver.record a).outbox f := by
        rw [present_record]
        exact hf
      obtain ⟨hk, hs⟩ := h.agree.reply_of hbox
      exact ⟨fun hack => absurd hack hk, fun seq hseq => by simp [hs] at hseq⟩
    · refine ⟨fun _ seq' bitmap hparse => ?_,
        fun seq' hs => by simp [ackWithBitmap, AircFrame.new] at hs⟩
      rw [parseAckPayload_ackWithBitmap seq (bitmapFromParts_ne_nil _)] at hparse
      obtain ⟨rfl, rfl⟩ := Prod.mk.inj (Option.some.inj hparse)
      have hmine : l.mine seq = true := by simpa [ackWithBitmap, AircFrame.new, Pair.mine] using htag
      have hget : (only (l.receiver.record a) l.mine l.own).reasm.get seq = some r :=
        only_get_some.mpr ⟨hmine, hr⟩
      obtain ⟨m, hm, hs, -⟩ := hin.buffers seq r hget
      -- the report is about parts just thrown away, so nobody may wait for them
      refine ⟨m, hm, hs, fun hw => ?_⟩
      exact absurd (.inl hwant) (hretain (seq, r) (Table.mem_entries_iff.mpr hget) he hw)
  · rw [Sessions.record_store_self]
    intro frames hframes
    apply h.agree.replies frames
    rw [present_record]
    exact hleft.outbox frames hframes

/-- Two records that know the same numbers know the same once a frame was looked at. -/
theorem piggybacked_congr {p q : Peer} (h : SameInbox p q) (he : q.epoch = p.epoch)
    (f : AircFrame) : SameInbox (p.piggybacked f) (q.piggybacked f) := by
  have hp := applyPiggyback_inbox (helloReset p.noteAirc f) f
  have hq := applyPiggyback_inbox (helloReset q.noteAirc f) f
  have hbase : SameInbox (helloReset p.noteAirc f) (helloReset q.noteAirc f) := by
    rw [helloReset, helloReset, show q.noteAirc.epoch = p.noteAirc.epoch from he]
    split_ifs
    · exact ⟨rfl, rfl, rfl⟩
    · exact ⟨h.seen, h.reasm, h.owedAck⟩
  exact ⟨hq.seen.trans (hbase.seen.trans hp.seen.symm),
    hq.reasm.trans (hbase.reasm.trans hp.reasm.symm),
    hq.owedAck.trans (hbase.owedAck.trans hp.owedAck.symm)⟩

/-- Nothing is remembered for a later incarnation. -/
theorem remember_le (h : Invariant a b l) {k : ℕ} (hk : k ≤ l.incarnation) (p : Peer)
    (f : AircFrame) (seq : UInt16) : l.remember p k f seq ≤ l.incarnation := by
  rw [Pair.remember]
  split_ifs
  · exact hk
  · exact h.memory seq

/-- The numbers of the present incarnation after a frame. -/
theorem remember_mine (p : Peer) (k : ℕ) (f : AircFrame) (seq : UInt16) :
    decide (l.remember p k f seq = l.incarnation) =
      mineAfter l.mine p f (decide (k = l.incarnation)) seq := by
  rw [Pair.remember, mineAfter]
  by_cases hk : f.kind = .ack
  · simp [hk, Pair.mine]
  · simp only [hk, rebound, Pair.mine, decide_eq_true_eq, not_false_eq_true, true_and, ne_eq,
      if_false]
    split_ifs <;> rfl

/-- What the fragment buffers are assumed to be about, from what the numbers are. -/
theorem Told.attributed {k : ℕ} {f : AircFrame} (h : Told a l k f) {p : Peer}
    (hin : SameInbox (l.receiver.record a) p) (hepoch : p.epoch = (l.receiver.record a).epoch) :
    Attributed l.mine (p.piggybacked f) f (decide (k = l.incarnation)) := by
  have hsame := piggybacked_congr hin hepoch f
  obtain ⟨hbuffer, hseen⟩ := h
  rw [← hsame.seen, ← hsame.reasm] at hbuffer hseen
  constructor
  · intro hn hkey
    rw [Pair.mine, hbuffer hn hkey]
  · intro hours hs
    have hours : k = l.incarnation := of_decide_eq_true hours
    rcases hseen hours hs with hm | hm
    · exact .inl (decide_eq_true (hm.trans hours))
    · exact .inr hm

/-- A frame that no longer concerns the present incarnation changes only what is remembered. -/
theorem Invariant.toReceiver (h : Invariant a b l) {k : ℕ} {f : AircFrame} {now : ℕ}
    {addressedToUs : Bool} (he : (k, f) ∈ l.forward)
    (hg : Guard a b l (.toReceiver k f now addressedToUs)) :
    Invariant a b (next a b l (.toReceiver k f now addressedToUs)) := by
  obtain ⟨htold, hrestart, hroom⟩ := hg
  have hk := h.forward _ he
  obtain ⟨ht, -⟩ | ⟨p, ht, hr⟩ := l.receiver.onReceive_cases a f now addressedToUs
  · have hsame : next a b l (.toReceiver k f now addressedToUs) = l := by
      simp [next, ht]
    rw [hsame]
    exact h
  obtain ⟨hin, hout, hepoch⟩ := Sessions.touched_same ht
  -- what the frame says of the present incarnation
  obtain ⟨ours, hours⟩ : ∃ ours, ours = decide (k = l.incarnation) := ⟨_, rfl⟩
  obtain ⟨dl, hdl⟩ : ∃ dl, dl = if ours then
      (p.receive l.receiver.config f now addressedToUs).2.deliver.toList else [] := ⟨_, rfl⟩
  have hinbox := h.agree.inbox
  have howed := h.agree.owed_kept
  rw [present_record] at hinbox howed
  obtain ⟨hinbox, hcarry⟩ := @Inbox.congr _ _ ((l.present a).Kept a b) _ _ _ hinbox
    (only_inbox hin l.mine l.own)
  have hroom' : NoneEvicted l.receiver.config
      (fun seq => l.mine seq = true ∧ (l.present a).Kept a b seq) p f := by
    unfold NoneEvicted evictReasm at hroom ⊢
    rwa [hin.seen, hin.reasm]
  have hflying : f.kind ≠ .ack → ours = true → ∃ m ∈ l.messages, m.IsFragment f := by
    intro hack ho
    have hki : k = l.incarnation := of_decide_eq_true (hours ▸ ho)
    exact h.agree.flying f (mem_ofIncarnation.mpr (hki ▸ he)) hack
  have hattributed : f.kind ≠ .ack → Attributed l.mine (p.piggybacked f) f ours :=
    fun hack => hours ▸ (htold hack).attributed hin hepoch
  have howed' : ∀ o, (only p l.mine l.own).owedAck = some o → o.bitmap.isSome →
      (l.present a).Unfinished b o.seq → (l.present a).Kept a b o.seq :=
    fun o ho => howed o ((only_inbox hin l.mine l.own).owedAck ▸ ho)
  have hrestart' : f.kind = .hello → helloEpoch f ≠ p.epoch → ∀ seq ∈ p.reasm.keys,
      ¬ (l.mine seq = true ∧ (l.present a).Kept a b seq) := by
    rwa [hepoch, hin.reasm]
  obtain ⟨hinbox', hcarry'⟩ := receive_only hinbox h.agree.valid h.agree.unique hflying
    hattributed howed' hrestart' hroom' hdl
  obtain ⟨q, hq⟩ : ∃ q, q = (p.receive l.receiver.config f now addressedToUs).1 := ⟨_, rfl⟩
  have hnext : next a b l (.toReceiver k f now addressedToUs) = { l with
      receiver := l.receiver.store a q
      backward := l.backward ++ (p.receive l.receiver.config f now addressedToUs).2.transmit.map
        fun g => (l.incarnation, g)
      memory := l.remember p k f
      owed := if f.kind ≠ .ack ∧ owes l.receiver.config (p.piggybacked f) f now addressedToUs = true
        then l.remember p k f f.seq else l.owed
      delivered := l.delivered ++ dl } := by
    simp [next, ht, hr, ReliableDelivery.next, Pair.bare, ReliableDelivery.Link.put, hq, hdl, hours]
    split_ifs <;> simp
  have hmine : (next a b l (.toReceiver k f now addressedToUs)).mine =
      mineAfter l.mine p f ours := by
    rw [hnext, hours]
    exact funext fun seq => remember_mine p k f seq
  have hown : (next a b l (.toReceiver k f now addressedToUs)).own =
      ownAfter l.receiver.config l.mine l.own p f now addressedToUs ours := by
    rw [hnext, hours]
    simp only [Pair.own, ownAfter]
    split_ifs with hc
    · have := remember_mine (l := l) p k f f.seq
      rwa [mineAfter, if_neg hc.1] at this
    · rfl
  have hpresent : (next a b l (.toReceiver k f now addressedToUs)).present a =
      ⟨l.sender, (l.receiver.store a q).store a (only q (mineAfter l.mine p f ours)
          (ownAfter l.receiver.config l.mine l.own p f now addressedToUs ours)),
        (l.present a).forward, (l.present a).backward ++
          (p.receive l.receiver.config f now addressedToUs).2.transmit, l.messages, l.completed,
        l.delivered ++ dl⟩ := by
    rw [Pair.present, hmine, hown, hnext]
    simp [Pair.present]
  obtain ⟨hbox, hsent⟩ := receive_outbox l.receiver.config p f now addressedToUs
  rw [hout.outbox] at hbox hsent
  have hreplies := h.agree.replies
  rw [present_record] at hreplies
  have hsent' : ∀ g ∈ (p.receive l.receiver.config f now addressedToUs).2.transmit,
      g.kind ≠ .ack ∧ g.piggybackSeq = none := by
    intro g hg
    apply h.agree.reply_of
    rw [present_record]
    exact hsent g hg
  refine ⟨?_, ?_, ?_, ?_, ?_⟩
  · rw [hpresent]
    apply h.agree.receiver_step
    · rw [Sessions.record_store_self, hq]
      exact hinbox'
    · rw [Sessions.record_store_self, present_record, hq]
      exact hcarry.trans hcarry'
    · intro g hg
      obtain ⟨hk, hs⟩ := hsent' g hg
      exact ⟨fun hack => absurd hack hk, fun seq hseq => by simp [hs] at hseq⟩
    · rw [Sessions.record_store_self, hq]
      exact fun frames hframes => hreplies frames (hbox frames hframes)
  · rw [hnext]
    exact remember_le h hk p f
  · rw [hnext]
    change (if _ then _ else _) ≤ l.incarnation
    split_ifs
    · exact remember_le h hk p f f.seq
    · exact h.owed
  · rw [hnext]
    exact h.forward
  · rw [hnext]
    intro e he
    rcases List.mem_append.mp he with he | he
    · exact h.backward e he
    · obtain ⟨g, -, rfl⟩ := List.mem_map.mp he
      exact le_rfl

/-- A step in which the receiver acts alone. -/
theorem acts_alone {e : ReliableDelivery.Event} {s : Sessions} {out : List AircFrame}
    (h : ReliableDelivery.next a b l.bare e = l.bare.put .receiver s out)
    (htag : l.addressee e = fun _ => l.owed) :
    next a b l (.step e) = { l with
      receiver := s
      backward := l.backward ++ out.map fun g => (l.owed, g) } := by
  simp only [next, h, htag]
  simp [ReliableDelivery.Link.put, Pair.bare]

theorem invariant_step {e : Event} (h : Invariant a b l) (hg : Guard a b l e)
    (he : Enabled a b l e) : Invariant a b (next a b l e) := by
  cases e with
  | restart => exact h.restart
  | toReceiver k f now addressedToUs => exact h.toReceiver he hg
  | toSender k f now addressedToUs => exact h.toSender he hg
  | step e =>
    cases e with
    | enqueue side dst kind payload reliable now =>
      cases side with
      | sender => exact h.enqueue_sender hg he
      | receiver => exact h.quiet_step (ReliableDelivery.enqueue_quiet he hg.1) (acts_alone rfl rfl)
    | receive side f now addressedToUs => exact absurd he id
    | foreign side src f now addressedToUs =>
      cases side with
      | sender =>
        refine h.sender_acts (ReliableDelivery.agree_step h.agree ⟨fun hp => hp, trivial⟩ he) ?_
        exact ⟨(l.sender.onReceive src f now addressedToUs).1, [], l.messages, fun r fw bw => rfl⟩
      | receiver =>
        refine h.quiet_step (s := (l.receiver.onReceive src f now addressedToUs).1)
          (ReliableDelivery.quiet_same (Sessions.record_of_peer ?_)) (acts_alone rfl rfl)
        exact l.receiver.onReceive_peer (Ne.symm he) f now addressedToUs
    | tick side now retry =>
      cases side with
      | sender =>
        refine h.sender_acts (h.agree.tick_sender now retry) ?_
        exact ⟨(l.sender.tickRetries now retry).1,
          framesTo b (l.sender.tickRetries now retry).2.transmit, l.messages, fun r fw bw => rfl⟩
      | receiver => exact h.tick_receiver hg
    | drainAcks side =>
      cases side with
      | sender =>
        refine h.sender_acts h.agree.drainAcks_sender ?_
        exact ⟨l.sender.drainAcks.1, framesTo b l.sender.drainAcks.2, l.messages,
          fun r fw bw => rfl⟩
      | receiver => exact h.quiet_step (ReliableDelivery.drainAcks_quiet l.receiver a) (acts_alone rfl rfl)
    | keyed side dest seq now =>
      cases side with
      | sender =>
        refine h.sender_acts (h.agree.keyed_sender dest seq now) ?_
        exact ⟨l.sender.onKeyed dest seq now, [], l.messages, fun r fw bw => rfl⟩
      | receiver =>
        exact h.quiet_step (ReliableDelivery.keyed_quiet l.receiver dest seq now a) (acts_alone rfl rfl)
    | drawSeq side =>
      cases side with
      | sender =>
        refine h.sender_acts (ReliableDelivery.agree_step h.agree ⟨fun hp => hp, trivial⟩ he) ?_
        exact ⟨l.sender.drawSeq.2, [], l.messages, fun r fw bw => rfl⟩
      | receiver =>
        exact h.quiet_step (s := l.receiver.drawSeq.2) (ReliableDelivery.quiet_same rfl)
          (acts_alone rfl rfl)

end

/-- After a restart too, a message completed by an acknowledgement has been delivered whole, and
a frame taken for a repetition is one of a message that was delivered. -/
theorem restart_swallows_nothing (cfg : SessionConfig) (a b : Callsign) {l : Pair}
    (h : Reachable (system cfg a b) (Guard a b) l) :
    (∀ frames ∈ l.completed, ∃ m ∈ l.messages, m.frames = frames ∧
      ∃ d ∈ l.delivered, d.kind = m.kind ∧ d.seq = m.seq ∧ d.payload = m.payload) ∧
    ∀ f now addressedToUs, Enabled a b l (.toReceiver l.incarnation f now addressedToUs) →
      Guard a b l (.toReceiver l.incarnation f now addressedToUs) → TakenForRepetition a l f →
      ∃ m ∈ l.messages, m.seq = f.seq ∧
        ∃ d ∈ l.delivered, d.kind = m.kind ∧ d.seq = m.seq ∧ d.payload = m.payload := by
  have hl : Invariant a b l := by
    refine (Inductive.ofNext ?_ ?_).reachable h
    · rintro l rfl
      exact invariant_initial cfg
    · intro l e hl hg he
      exact invariant_step hl hg he
  refine ⟨hl.agree.done, ?_⟩
  intro f now addressedToUs _ hg ⟨hack, hhello, hseen⟩
  have hmine : l.memory f.seq = l.incarnation :=
    ((hg.1 hack).2 rfl hseen).resolve_right fun hc => hhello hc.1
  have hknown : f.seq ∈ (l.receiver.record a).seen := by
    rcases piggybacked_cases (l.receiver.record a) f with hs | ⟨hs, -⟩
    · exact hs.seen ▸ hseen
    · rw [hs] at hseen
      exact absurd hseen List.not_mem_nil
  apply hl.agree.inbox.seen
  rw [present_record]
  exact mem_only_seen.mpr ⟨hknown, decide_eq_true hmine⟩

/-! ### Two restarts -/

def station : Callsign := ⟨"SM0ABC", 7⟩
def gateway : Callsign := ⟨"SK0MT", 1⟩

/-- A HELLO from `x`, with an epoch or without. -/
def hello (epoch : List UInt8) : List UInt8 := 120 :: epoch

def message (kind : Kind) (seq : UInt16) (payload : List UInt8) : AircFrame :=
  ⟨kind, Flags.ackReq, seq, 0, 1, payload, none⟩

/-- The station says HELLO and sends one text; both are acknowledged, the text as one of the
incarnation `j`. -/
def spoken (k j : ℕ) (epoch text : List UInt8) : List Event :=
  [.step (.enqueue .sender gateway .hello (hello epoch) true 0),
    .toReceiver k (message .hello 1 (hello epoch)) (secs 1) true,
    .step (.drainAcks .receiver),
    .toSender k (ackFor 1) (secs 2) true,
    .step (.enqueue .sender gateway .msg text true (secs 3)),
    .toReceiver k (message .msg 2 text) (secs 4) true,
    .step (.drainAcks .receiver),
    .toSender j (ackFor 2) (secs 5) true]

/-- Each time the station has another epoch. -/
def announcedRun : List Event :=
  spoken 0 0 [31, 49] [97] ++ [.restart] ++ spoken 1 1 [31, 50] [98]

/-- The text of the second time arrives once more, and was delivered. -/
theorem restart_swallows_nothing_announced :
    let l := announcedRun.foldl (next station gateway) (initial .default)
    (∀ frames ∈ l.completed, ∃ m ∈ l.messages, m.frames = frames ∧
      ∃ d ∈ l.delivered, d.kind = m.kind ∧ d.seq = m.seq ∧ d.payload = m.payload) ∧
    ∃ m ∈ l.messages, m.seq = 2 ∧
      ∃ d ∈ l.delivered, d.kind = m.kind ∧ d.seq = m.seq ∧ d.payload = m.payload := by
  have h := restart_swallows_nothing .default station gateway
    (l := announcedRun.foldl (next station gateway) (initial .default))
    ((Reachable.initial rfl).run (by decide +kernel))
  exact ⟨h.1, h.2 (message .msg 2 [98]) (secs 6) true (by decide +kernel) (by decide +kernel)
    (by decide +kernel)⟩

/-- The station has no epoch, and its second text is taken for the first. -/
def unannouncedRun : List Event := spoken 0 0 [] [97] ++ [.restart] ++ spoken 1 0 [] [98]

/-- The second text is acknowledged and thrown away. -/
theorem second_text_swallowed :
    ∃ l, Reachable (system .default station gateway) (fun _ _ => True) l ∧
      ¬ ∀ frames ∈ l.completed, ∃ m ∈ l.messages, m.frames = frames ∧
        ∃ d ∈ l.delivered, d.kind = m.kind ∧ d.seq = m.seq ∧ d.payload = m.payload :=
  ⟨unannouncedRun.foldl (next station gateway) (initial .default),
    (Reachable.initial rfl).run (by decide +kernel), by decide +kernel⟩

end Restart
