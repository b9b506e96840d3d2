import Rfircd.FifoLedger
import Rfircd.RetryAllowance
import Rfircd.RetryTimers
import Rfircd.SessionTable

/-! What becomes of the reliable messages for one station, and when their frames go out. -/
namespace StopAndWait

open Basics Airc AircSession KeyedTable TransitionSystem FifoLedger RetryAllowance RetryTimers
open SessionTable

/-! ### What each operation does to the messages -/

def discards (p : Peer) : List (Entry AircFrame) :=
  List.replicate p.outbox.length (.settle .discarded)

def completes (p : Peer) (seq : UInt16) (bitmap : Option (List UInt8)) : Bool :=
  p.pending.any fun pd => pd.seq? == some seq && pd.completedBy bitmap

def ackEntries (p : Peer) (seq : UInt16) (bitmap : Option (List UInt8)) : List (Entry AircFrame) :=
  (if completes p seq bitmap then [.settle .completed] else []) ++ putAll (applyAck p seq bitmap).2

def piggybackEntries (p : Peer) (f : AircFrame) : List (Entry AircFrame) :=
  match f.piggybackSeq with
  | none => []
  | some seq => ackEntries p seq none

def payloadEntries (p : Peer) (f : AircFrame) : List (Entry AircFrame) :=
  if f.kind = .ack then
    match parseAckPayload f.payload with
    | none => []
    | some (seq, bitmap) => ackEntries p seq bitmap
  else []

/-- A HELLO with a new epoch throws everything away; then come the acknowledgements. -/
def receiveEntries (p : Peer) (f : AircFrame) : List (Entry AircFrame) :=
  (if f.kind = .hello ∧ helloEpoch f ≠ p.epoch then discards p else []) ++
    piggybackEntries (helloReset p.noteAirc f) f ++ payloadEntries (p.piggybacked f) f

def enqueueEntries (cfg : SessionConfig) (p : Peer) (seq : UInt16) (kind : Kind)
    (payload : List UInt8) (reliable : Bool) : List (Entry AircFrame) :=
  let out := (p.enqueue cfg seq kind payload reliable).2
  if reliable && out.accepted then
    .accept (fragments kind seq reliable (p.parts cfg payload reliable)) :: putAll out.frames
  else []

/-- What the retry timer does; the frames before are reports of what was received. -/
def tickEntries (cfg : SessionConfig) (p : Peer) (now : ℕ) (retry : Bool) :
    List (Entry AircFrame) :=
  match p.tick cfg now retry with
  | (_, frames, .keep) => putAll (frames.drop (expireReasm cfg p now).2.length)
  | (_, _, .lost) => discards p
  | (q, _, .givingUp) => .settle .givenUp :: putAll ((q.abandon.map Prod.snd).getD [])

section

variable (c : Callsign)

/-- The record of the station goes, and its messages with it. -/
def goneEntries (s t : Sessions) : List (Entry AircFrame) :=
  if (s.peer c).isSome ∧ (t.peer c).isNone then discards (s.record c) else []

/-- What an operation means to the messages for the station. -/
def entries (s : Sessions) (e : Operation) : List (Entry AircFrame) :=
  match e with
  | .receive src f now _ =>
    if src = c then ((s.touched src now).map (receiveEntries · f)).getD []
    else goneEntries c s (apply s e)
  | .enqueue dst kind payload reliable now =>
    if dst = c then
      if s.config.maxPeers = 0 then [] else
      (((s.drawSeq.2.evictPeer dst).touched dst now).map
        (enqueueEntries s.config · s.nextSeq kind payload reliable)).getD []
    else goneEntries c s (apply s e)
  | .tick now retry => ((s.peer c).map (tickEntries s.config · now retry)).getD []
  | _ => goneEntries c s (apply s e)

/-- Every frame for the station that an operation hands over. -/
def handed (s : Sessions) : Operation → List AircFrame
  | .receive src f now addressedToUs =>
    if src = c then (s.onReceive src f now addressedToUs).2.transmit else []
  | .enqueue dst kind payload reliable now =>
    if dst = c then (s.enqueue dst kind payload reliable now).2.frames else []
  | .tick now retry => framesTo c (s.tickRetries now retry).2.transmit
  | .drainAcks => framesTo c s.drainAcks.2
  | _ => []

/-- Those of them that belong to no reliable message: acknowledgements of what was received, and
messages that are sent once. -/
def apart (s : Sessions) : Operation → List AircFrame
  | .enqueue dst kind payload false now =>
    if dst = c then (s.enqueue dst kind payload false now).2.frames else []
  | .tick now _ => ((s.peer c).map fun p => (expireReasm s.config p now).2).getD []
  | .drainAcks => framesTo c s.drainAcks.2
  | _ => []

structure Run where
  sessions : Sessions
  ledger : Ledger AircFrame

def Run.next (r : Run) (e : Operation) : Run :=
  ⟨apply r.sessions e, r.ledger.enter (entries c r.sessions e)⟩

def system (cfg : SessionConfig) : System Run Operation :=
  .ofNext (· = ⟨.new cfg, .empty⟩) (fun r e => Enabled r.sessions e) (Run.next c)

end

/-! ### One record -/

/-- The messages for the station are the same, and the same one is in flight. -/
structure Kept (p q : Peer) : Prop where
  frames : q.pending.map Pending.frames = p.pending.map Pending.frames
  queue : q.queue = p.queue

/-- A message that asks for an acknowledgement, cut into frames. -/
def Reliable (m : List AircFrame) : Prop :=
  ∃ kind seq parts, parts.length ≤ 255 ∧ m = fragments kind seq true parts

def stamp (flags : UInt8) : Entry AircFrame → Entry AircFrame
  | .put f => .put (f.withFlags flags)
  | e => e

/-- What a step can do to the messages for a station, with its entries. What goes out when it is
accepted is stamped with the flags of its message. -/
inductive Move (flags : UInt8) : Peer → Peer → List (Entry AircFrame) → Prop where
  | stays {p q} (hk : Kept p q) : Move flags p q []
  | discards {p q} (hp : q.pending = none) (hq : q.queue = []) :
      Move flags p q (StopAndWait.discards p)
  | repeats {p q pd frames} (hp : p.pending = some pd) (hk : Kept p q)
      (hf : ∀ f ∈ frames, ∃ g ∈ pd.frames, f = retryFrame g) : Move flags p q (putAll frames)
  | ends {p q pd} (fate : Fate) (hp : p.pending = some pd) (hempty : p.queue = [])
      (hnone : q.pending = none) (hq : q.queue = []) : Move flags p q [.settle fate]
  | advances {p q pd m} (fate : Fate) (hp : p.pending = some pd) (hnext : p.queue = m :: q.queue)
      (hm : q.pending.map Pending.frames = some m) :
      Move flags p q (.settle fate :: putAll m)
  | waits {p q m} (hm : Reliable m) (hp : p.pending.isSome = true)
      (hf : q.pending.map Pending.frames = p.pending.map Pending.frames)
      (hq : q.queue = p.queue ++ [m]) : Move flags p q [.accept m]
  | starts {p q m frames} (hm : Reliable m) (hp : p.pending = none) (hempty : p.queue = [])
      (hf : q.pending.map Pending.frames = some m) (hq : q.queue = [])
      (hout : frames = m ∨ ∃ acked, frames = m.modifyHead (·.attachPiggyback acked)) :
      Move flags p q (.accept m :: putAll (frames.map (·.withFlags flags)))

inductive Moves (flags : UInt8) : Peer → Peer → List (Entry AircFrame) → Prop where
  | one {p q es} (h : Move flags p q es) : Moves flags p q es
  | trans {p q r es es'} (h : Moves flags p q es) (h' : Moves flags q r es') :
      Moves flags p r (es ++ es')

/-! ### What one record may still send -/

/-- What the message in flight may still send. -/
def left (maxRetries : ℕ) (p : Peer) : ℕ := (p.pending.map (allowance maxRetries)).getD 0

/-- As `Kept`, and the frames that went out are taken off what is left. -/
structure Paid (maxRetries : ℕ) (p q : Peer) (sent : ℕ) : Prop where
  frames : q.pending.map Pending.frames = p.pending.map Pending.frames
  queue : q.queue = p.queue
  paid : sent + left maxRetries q ≤ left maxRetries p

/-- As `Move`, with what is left for the message in flight. -/
inductive Spend (maxRetries : ℕ) (flags : UInt8) : Peer → Peer → List (Entry AircFrame) → Prop where
  | stays {p q} (hk : Paid maxRetries p q 0) : Spend maxRetries flags p q []
  | discards {p q} (hp : q.pending = none) (hq : q.queue = []) :
      Spend maxRetries flags p q (StopAndWait.discards p)
  | repeats {p q pd frames} (hp : p.pending = some pd) (hk : Paid maxRetries p q frames.length)
      (hf : ∀ f ∈ frames, ∃ g ∈ pd.frames, f = retryFrame g) :
      Spend maxRetries flags p q (putAll frames)
  | ends {p q pd} (fate : Fate) (hp : p.pending = some pd) (hempty : p.queue = [])
      (hnone : q.pending = none) (hq : q.queue = []) : Spend maxRetries flags p q [.settle fate]
  | advances {p q pd m} (fate : Fate) (hp : p.pending = some pd) (hnext : p.queue = m :: q.queue)
      (hm : q.pending = some (fresh m)) :
      Spend maxRetries flags p q (.settle fate :: putAll m)
  | waits {p q m} (hm : Reliable m) (hp : p.pending.isSome = true) (hf : q.pending = p.pending)
      (hq : q.queue = p.queue ++ [m]) : Spend maxRetries flags p q [.accept m]
  | starts {p q m frames} (hm : Reliable m) (hp : p.pending = none) (hempty : p.queue = [])
      (hf : q.pending = some (fresh m)) (hq : q.queue = [])
      (hout : frames = m ∨ ∃ acked, frames = m.modifyHead (·.attachPiggyback acked)) :
      Spend maxRetries flags p q (.accept m :: putAll (frames.map (·.withFlags flags)))

inductive Spends (maxRetries : ℕ) (flags : UInt8) : Peer → Peer → List (Entry AircFrame) → Prop where
  | one {p q es} (h : Spend maxRetries flags p q es) : Spends maxRetries flags p q es
  | trans {p q r es es'} (h : Spends maxRetries flags p q es)
      (h' : Spends maxRetries flags q r es') : Spends maxRetries flags p r (es ++ es')

variable {cfg : SessionConfig} {p q : Peer} {l : Ledger AircFrame} {maxRetries : ℕ} {flags : UInt8}

theorem Paid.kept {sent : ℕ} (h : Paid maxRetries p q sent) : Kept p q := ⟨h.frames, h.queue⟩

theorem Spend.move {es : List (Entry AircFrame)} (h : Spend maxRetries flags p q es) :
    Move flags p q es := by
  cases h with
  | stays hk => exact .stays hk.kept
  | discards hp hq => exact .discards hp hq
  | repeats hp hk hf => exact .repeats hp hk.kept hf
  | ends fate hp hempty hnone hq => exact .ends fate hp hempty hnone hq
  | advances fate hp hnext hm => exact .advances fate hp hnext (congrArg (Option.map _) hm)
  | waits hm hp hf hq => exact .waits hm hp (congrArg (Option.map _) hf) hq
  | starts hm hp hempty hf hq hout =>
    exact .starts hm hp hempty (congrArg (Option.map _) hf) hq hout

theorem Spends.moves {es : List (Entry AircFrame)} (h : Spends maxRetries flags p q es) :
    Moves flags p q es := by
  induction h with
  | one h => exact .one h.move
  | trans _ _ ih ih' => exact ih.trans ih'

theorem paid_of_same (h : SameOutbox p q) : Paid maxRetries p q 0 where
  frames := by rw [h.pending]
  queue := h.queue
  paid := by rw [left, h.pending, Nat.zero_add, left]

theorem Spends.same (h : SameOutbox p q) : Spends maxRetries flags p q [] :=
  .one (.stays (paid_of_same h))

/-- The message in flight comes to its end and the next one goes out. -/
theorem release_spend {pd : Pending} (hp : p.pending = some pd) (fate : Fate) :
    Spend maxRetries flags p (releasePending p).1 (.settle fate :: putAll (releasePending p).2) := by
  unfold releasePending
  cases hq : p.queue with
  | nil => exact .ends fate hp hq rfl rfl
  | cons next queue => exact .advances fate hp hq rfl

theorem ack_spend (hgood : Outbox cfg p) (seq : UInt16) (bitmap : Option (List UInt8)) :
    Spend maxRetries flags p (applyAck p seq bitmap).1 (ackEntries p seq bitmap) := by
  obtain ⟨hr, hnot⟩ | ⟨pd, bits, hp, hseq, -, hc, hnew, hr⟩ | ⟨pd, hp, hseq, hc, hr⟩ :=
    applyAck_cases p seq bitmap
  · have hcompletes : completes p seq bitmap = false := by
      rw [completes, Option.any_eq_false]
      intro pd hp
      simpa using hnot pd hp
    rw [ackEntries, hcompletes, hr]
    exact .stays (paid_of_same ⟨rfl, rfl⟩)
  · have hcompletes : completes p seq bitmap = false := by
      rw [completes, hp, Option.any_some, hc, Bool.and_false]
    rw [ackEntries, hcompletes, hr]
    refine .repeats hp ⟨by rw [hp]; rfl, rfl, ?_⟩ ?_
    · rw [left, left, hp]
      exact allowance_mark maxRetries (hgood.marks pd hp).1 hnew
    · intro f hf
      obtain ⟨g, hg, rfl⟩ := Pending.missing_from hf
      exact ⟨g, hg, rfl⟩
  · have hcompletes : completes p seq bitmap = true := by
      simp [completes, hp, hseq, hc]
    rw [ackEntries, hcompletes, hr]
    exact release_spend hp .completed

theorem reset_spend (p : Peer) (f : AircFrame) :
    Spend maxRetries flags p (helloReset p.noteAirc f)
      (if f.kind = .hello ∧ helloEpoch f ≠ p.epoch then discards p else []) := by
  unfold helloReset
  by_cases hr : f.kind = .hello ∧ helloEpoch f ≠ p.epoch
  · rw [if_pos hr, if_pos (show f.kind = .hello ∧ helloEpoch f ≠ p.noteAirc.epoch from hr)]
    exact .discards rfl rfl
  · rw [if_neg hr, if_neg (show ¬ (f.kind = .hello ∧ helloEpoch f ≠ p.noteAirc.epoch) from hr)]
    exact .stays (paid_of_same ⟨rfl, rfl⟩)

theorem receive_spends (hgood : Outbox cfg p) (f : AircFrame) (now : ℕ) (addressedToUs : Bool) :
    Spends maxRetries flags p (p.receive cfg f now addressedToUs).1 (receiveEntries p f) := by
  have hreset := helloReset_outbox hgood f
  have hpiggybacked : Outbox cfg (p.piggybacked f) := applyPiggyback_outbox hreset f
  have hpiggy : Spends maxRetries flags p (p.piggybacked f)
      ((if f.kind = .hello ∧ helloEpoch f ≠ p.epoch then discards p else []) ++
        piggybackEntries (helloReset p.noteAirc f) f) := by
    apply Spends.trans (.one (reset_spend p f))
    unfold Peer.piggybacked applyPiggyback piggybackEntries
    cases f.piggybackSeq with
    | none => exact .same ⟨rfl, rfl⟩
    | some seq => exact .one (ack_spend hreset seq none)
  rw [receiveEntries]
  apply hpiggy.trans
  by_cases hk : f.kind = .ack
  · rw [receive_of_ack hk, payloadEntries, if_pos hk]
    cases parseAckPayload f.payload with
    | none => exact .same ⟨rfl, rfl⟩
    | some ack => exact .one (ack_spend hpiggybacked ack.1 ack.2)
  · rw [receive_of_message hk, payloadEntries, if_neg hk]
    exact .same (receiveMessage_outbox ..)

theorem stamp_putAll (flags : UInt8) (frames : List AircFrame) :
    (putAll frames).map (stamp flags) = putAll (frames.map (·.withFlags flags)) := by
  simp [putAll, stamp, Function.comp_def]

/-- A message that is taken in goes out at once, or waits behind the one in flight. -/
theorem enqueue_spend (hgood : Outbox cfg p) (seq : UInt16) (kind : Kind) (payload : List UInt8)
    (reliable : Bool) : Spend maxRetries flags p (p.enqueue cfg seq kind payload reliable).1
      ((enqueueEntries cfg p seq kind payload reliable).map (stamp flags)) := by
  have hempty : p.pending = none → p.queue = [] := by
    intro hp
    by_contra hne
    have hsome := hgood.behind hne
    rw [hp] at hsome
    cases hsome
  obtain ⟨q, hr, -, hsame⟩ |
      ⟨hfew, ⟨hrel, hr⟩ | ⟨hrel, hp, -, hr⟩ | ⟨hrel, hp, hr⟩ | ⟨acked, hrel, hp, -, hr⟩⟩ :=
    enqueue_cases cfg p seq kind payload reliable
  · rw [enqueueEntries, hr]
    simp only [SendOutcome.dropped, Bool.and_false]
    exact .stays (paid_of_same hsame)
  · rw [enqueueEntries, hr, hrel]
    exact .stays (paid_of_same ⟨rfl, rfl⟩)
  all_goals
    subst hrel
    rw [enqueueEntries, hr]
    have hm : Reliable (fragments kind seq true (p.parts cfg payload true)) := ⟨_, _, _, hfew, rfl⟩
    simp only [Bool.true_and, if_true, List.map_cons, stamp_putAll]
  · exact .waits hm hp rfl rfl
  · exact .starts hm hp (hempty hp) rfl (hempty hp) (.inl rfl)
  · exact .starts hm hp (hempty hp) rfl (hempty hp) (.inr ⟨acked, rfl⟩)

/-- A tick leaves the message in flight alone, retries it, gives it up, or loses the station. -/
theorem tick_cases (cfg : SessionConfig) (p : Peer) (now : ℕ) (retry : Bool) :
    let q := (expireReasm cfg p now).1
    let acks := (expireReasm cfg p now).2
    p.tick cfg now retry = (q, acks, .keep) ∨ p.tick cfg now retry = (q, acks, .lost) ∨
    (∃ pd, p.pending = some pd ∧ p.tick cfg now retry = (q, acks, .givingUp)) ∨
    ∃ pd, p.pending = some pd ∧ pd.attempts < cfg.maxRetries ∧
      p.tick cfg now retry =
        ({ q with pending := some (retryPending cfg pd now).1 }, acks ++ pd.missing, .keep) := by
  have hpending : (expireReasm cfg p now).1.pending = p.pending := rfl
  simp only [Peer.tick, hpending]
  cases hp : p.pending with
  | none =>
    simp only
    split_ifs
    · exact .inr (.inl rfl)
    · exact .inl rfl
    · exact .inl rfl
  | some pd =>
    simp only
    split_ifs with _ _ _ htries
    · exact .inr (.inl rfl)
    · exact .inl rfl
    · exact .inl rfl
    · exact .inr (.inr (.inl ⟨pd, rfl, rfl⟩))
    · exact .inr (.inr (.inr ⟨pd, rfl, Nat.lt_of_not_le htries, rfl⟩))

theorem abandon_cases (p : Peer) : p.queue = [] ∧ p.abandon = none ∨
    p.abandon = some (releasePending { p with dropped := p.dropped + 1 }) := by
  unfold Peer.abandon
  split
  · exact .inl ⟨by assumption, rfl⟩
  · exact .inr rfl

/-- The record after a tick, if the station still has one. -/
theorem tick_spends (s : Sessions) (p : Peer) (now : ℕ) (retry : Bool) :
    Spends s.config.maxRetries flags p (((s.ticked now retry p).1).getD (Peer.new 0))
      (tickEntries s.config p now retry) := by
  rcases tick_cases s.config p now retry with ht | ht | ⟨pd, hp, ht⟩ | ⟨pd, hp, htries, ht⟩
  · rw [Sessions.ticked, tickEntries, ht]
    simp only [List.drop_length, Option.getD_some]
    exact .same ⟨rfl, rfl⟩
  · rw [Sessions.ticked, tickEntries, ht]
    exact .one (.discards rfl rfl)
  · have hexpire : SameOutbox p (expireReasm s.config p now).1 := ⟨rfl, rfl⟩
    rw [Sessions.ticked, tickEntries, ht]
    generalize (expireReasm s.config p now).1 = q at hexpire
    rcases abandon_cases q with ⟨hq, ha⟩ | ha
    · simp only [ha]
      exact .one (.ends .givenUp hp (hexpire.queue ▸ hq) rfl rfl)
    · have hdropped : SameOutbox p { q with dropped := q.dropped + 1 } :=
        ⟨hexpire.pending, hexpire.queue⟩
      simp only [ha]
      exact (Spends.same hdropped).trans
        (.one (release_spend (hdropped.pending.trans hp) .givenUp))
  · rw [Sessions.ticked, tickEntries, ht]
    simp only [List.drop_left, Option.getD_some]
    refine .one (.repeats hp ⟨?_, rfl, ?_⟩ ?_)
    · rw [hp]
      rfl
    · rw [left, left, hp]
      exact (allowance_retry now htries).le
    · intro f hf
      exact Pending.missing_from hf

/-! ### All stations -/

section

variable {s t : Sessions} {c : Callsign}

/-- What every other operation does to the record. -/
theorem gone_spend (ht : t.peer c = none ∨ Paid maxRetries (s.record c) (t.record c) 0) :
    Spend maxRetries flags (s.record c) (t.record c) (goneEntries c s t) := by
  unfold goneEntries
  by_cases hgone : (s.peer c).isSome ∧ (t.peer c).isNone
  · have hrecord : t.record c = Peer.new 0 := by
      rw [Sessions.record, Option.isNone_iff_eq_none.mp hgone.2, Option.getD_none]
    rw [if_pos hgone, hrecord]
    exact .discards rfl rfl
  · rw [if_neg hgone]
    rcases ht with ht | ht
    · have hs : s.peer c = none := by simpa [ht] using hgone
      rw [Sessions.record_of_peer (ht.trans hs.symm)]
      exact .stays (paid_of_same ⟨rfl, rfl⟩)
    · exact .stays ht

/-- A report of the transmitter sets the timer only. -/
theorem onKeyed_paid (cfg : SessionConfig) (p : Peer) (seq : UInt16) (now : ℕ) :
    Paid maxRetries p (p.onKeyed cfg seq now) 0 := by
  unfold Peer.onKeyed
  cases hp : p.pending with
  | none => exact paid_of_same ⟨rfl, rfl⟩
  | some pd =>
    simp only
    split_ifs
    · exact paid_of_same ⟨rfl, rfl⟩
    · refine ⟨by rw [hp]; rfl, rfl, ?_⟩
      rw [Nat.zero_add, left, left, hp]
      exact le_rfl

theorem touch_paid (s : Sessions) (call c : Callsign) (now : ℕ) :
    Paid maxRetries (s.record c) ((touch s call now).record c) 0 := by
  unfold touch
  cases ht : s.touched call now with
  | none => exact paid_of_same ⟨rfl, rfl⟩
  | some p =>
    by_cases hc : c = call
    · subst hc
      rw [Sessions.record_store_self]
      exact paid_of_same (Sessions.touched_same ht).2.1
    · rw [Sessions.record_store_ne _ hc]
      exact paid_of_same ⟨rfl, rfl⟩

theorem touch_peer_ne (s : Sessions) {call c : Callsign} (h : c ≠ call) (now : ℕ) :
    (touch s call now).peer c = s.peer c := by
  unfold touch
  cases s.touched call now with
  | none => rfl
  | some p => rw [Sessions.peer_store, if_neg h]

theorem enqueue_paid (s : Sessions) {dst c : Callsign} (h : c ≠ dst) (kind : Kind)
    (payload : List UInt8) (reliable : Bool) (now : ℕ) :
    (s.enqueue dst kind payload reliable now).1.peer c = none ∨
    Paid maxRetries (s.record c) ((s.enqueue dst kind payload reliable now).1.record c) 0 := by
  obtain ⟨t, -, hpeers, hr⟩ := s.enqueue_cases dst kind payload reliable now
  have hpeer : (s.enqueue dst kind payload reliable now).1.peer c = t.peer c := by
    rcases hr with hr | ⟨p, -, -, hr⟩
    · rw [hr]
    · rw [hr, Sessions.peer_store, if_neg h]
  rcases hpeers c with ht | ⟨-, ht⟩
  · right
    rw [Sessions.record_of_peer (hpeer.trans ht)]
    exact paid_of_same ⟨rfl, rfl⟩
  · exact .inl (hpeer.trans ht)

/-- The operations that are not about the messages for the station. -/
def Beside (c : Callsign) : Operation → Prop
  | .receive src .. => src ≠ c
  | .enqueue dst .. => dst ≠ c
  | .tick .. => False
  | _ => True

theorem apply_beside (s : Sessions) {e : Operation} (h : Beside c e) :
    (apply s e).peer c = none ∨ Paid maxRetries (s.record c) ((apply s e).record c) 0 := by
  cases e with
  | touch call now => exact .inr (touch_paid s call c now)
  | forceTouch call now =>
    simp only [apply, forceTouch]
    split_ifs
    · exact .inr (paid_of_same ⟨rfl, rfl⟩)
    by_cases hc : c = call
    · subst hc
      have hsame : (s.evictPeer c).peer c = s.peer c := by
        rcases s.evictPeer_peer c c with hp | ⟨hne, -⟩
        · exact hp
        · exact absurd rfl hne
      rw [← Sessions.record_of_peer hsame]
      exact .inr (touch_paid _ c c now)
    · rcases s.evictPeer_peer call c with hp | ⟨-, hp⟩
      · right
        rw [← Sessions.record_of_peer hp]
        exact touch_paid _ call c now
      · exact .inl ((touch_peer_ne _ hc now).trans hp)
  | receive src f now addressedToUs =>
    right
    have hpeer := s.onReceive_peer (Ne.symm h) f now addressedToUs
    rw [apply, Sessions.record_of_peer hpeer]
    exact paid_of_same ⟨rfl, rfl⟩
  | enqueue dst kind payload reliable now =>
    exact enqueue_paid s (Ne.symm h) kind payload reliable now
  | tick now retry => exact absurd h id
  | keyed dest seq now =>
    right
    rw [apply, Sessions.record, Sessions.record, Sessions.onKeyed_peer]
    split_ifs with hc
    · cases s.peer c with
      | none => exact paid_of_same ⟨rfl, rfl⟩
      | some p => exact onKeyed_paid s.config p seq now
    · exact paid_of_same ⟨rfl, rfl⟩
  | drainAcks =>
    right
    rw [apply, Sessions.record, Sessions.record, Sessions.drainAcks_peer]
    cases s.peer c <;> exact paid_of_same ⟨rfl, rfl⟩
  | forget call =>
    by_cases hc : c = call
    · left
      rw [apply, Sessions.forget, Sessions.peer, Table.get_erase, if_pos hc]
    · right
      have hpeer : (s.forget call).peer c = s.peer c := by
        rw [Sessions.forget, Sessions.peer, Table.get_erase, if_neg hc, Sessions.peer]
      rw [apply, Sessions.record_of_peer hpeer]
      exact paid_of_same ⟨rfl, rfl⟩
  | markKicked call channel =>
    right
    rw [apply, SessionTable.markKicked]
    cases hp : s.peer call with
    | none => exact paid_of_same ⟨rfl, rfl⟩
    | some p =>
      by_cases hc : c = call
      · subst hc
        rw [Sessions.record_store_self, Sessions.record, hp]
        exact paid_of_same ⟨rfl, rfl⟩
      · rw [Sessions.record_store_ne _ hc]
        exact paid_of_same ⟨rfl, rfl⟩
  | nextSeq => exact .inr (paid_of_same ⟨rfl, rfl⟩)

end

/-! ### What goes out -/

@[simp] theorem frames_putAll (frames : List AircFrame) :
    (putAll frames).filterMap Entry.frame = frames := by
  rw [putAll, List.filterMap_map]
  exact List.filterMap_some

@[simp] theorem frames_discards (p : Peer) : (discards p).filterMap Entry.frame = [] := by
  apply List.filterMap_eq_nil_iff.mpr
  intro e he
  rw [List.eq_of_mem_replicate he]
  rfl

@[simp] theorem frames_ackEntries (p : Peer) (seq : UInt16) (bitmap : Option (List UInt8)) :
    (ackEntries p seq bitmap).filterMap Entry.frame = (applyAck p seq bitmap).2 := by
  unfold ackEntries
  rw [List.filterMap_append, frames_putAll]
  split_ifs <;> rfl

theorem frames_receiveEntries (cfg : SessionConfig) (p : Peer) (f : AircFrame) (now : ℕ)
    (addressedToUs : Bool) : (receiveEntries p f).filterMap Entry.frame =
      (p.receive cfg f now addressedToUs).2.transmit := by
  have hreset : (if f.kind = .hello ∧ helloEpoch f ≠ p.epoch then discards p else []).filterMap
      Entry.frame = [] := by
    split_ifs
    · exact frames_discards p
    · rfl
  have hpiggy : (piggybackEntries (helloReset p.noteAirc f) f).filterMap Entry.frame =
      (applyPiggyback (helloReset p.noteAirc f) f).2 := by
    unfold piggybackEntries applyPiggyback
    cases f.piggybackSeq with
    | none => rfl
    | some seq => exact frames_ackEntries _ seq none
  rw [receiveEntries, List.filterMap_append, List.filterMap_append, hreset, hpiggy,
    List.nil_append]
  by_cases hk : f.kind = .ack
  · rw [receive_of_ack hk, payloadEntries, if_pos hk]
    cases parseAckPayload f.payload with
    | none => exact List.append_nil _
    | some ack => simp only [frames_ackEntries]
  · rw [receive_of_message hk, payloadEntries, if_neg hk]
    exact List.append_nil _

theorem frames_enqueueEntries (cfg : SessionConfig) (p : Peer) (seq : UInt16) (kind : Kind)
    (payload : List UInt8) : (enqueueEntries cfg p seq kind payload true).filterMap Entry.frame =
      (p.enqueue cfg seq kind payload true).2.frames := by
  unfold enqueueEntries
  simp only [Bool.true_and]
  split_ifs with ha
  · rw [List.filterMap_cons]
    exact frames_putAll _
  · obtain ⟨q, hr, -, -⟩ | ⟨-, ⟨-, hr⟩ | ⟨-, -, -, hr⟩ | ⟨-, -, hr⟩ | ⟨acked, -, -, -, hr⟩⟩ :=
      enqueue_cases cfg p seq kind payload true
    · rw [hr]
      rfl
    all_goals
      rw [hr] at ha
      exact absurd rfl ha

theorem frames_tickEntries (s : Sessions) (p : Peer) (now : ℕ) (retry : Bool) :
    (s.ticked now retry p).2.1 ++ (s.ticked now retry p).2.2 =
      (expireReasm s.config p now).2 ++
        (tickEntries s.config p now retry).filterMap Entry.frame := by
  rcases tick_cases s.config p now retry with ht | ht | ⟨pd, -, ht⟩ | ⟨pd, -, -, ht⟩
  · simp [Sessions.ticked, tickEntries, ht]
  · simp [Sessions.ticked, tickEntries, ht]
  · rw [Sessions.ticked, tickEntries, ht]
    rcases abandon_cases (expireReasm s.config p now).1 with ⟨-, ha⟩ | ha
    · simp only [ha]
      rfl
    · simp only [ha, List.filterMap_cons, Entry.frame, Option.map_some, Option.getD_some,
        frames_putAll]
  · simp [Sessions.ticked, tickEntries, ht]

theorem framesTo_append (c : Callsign) (l l' : List (Callsign × AircFrame)) :
    framesTo c (l ++ l') = framesTo c l ++ framesTo c l' := List.filterMap_append

/-- The frames for one station are those of its record. -/
theorem framesTo_entries (c : Callsign) (peers : Table Callsign Peer)
    (frames : Peer → List AircFrame) :
    framesTo c (peers.entries.flatMap fun e => (frames e.2).map fun f => (e.1, f)) =
      ((peers.get c).map frames).getD [] := by
  have hown : ∀ e : Callsign × Peer, framesTo c ((frames e.2).map fun f => (e.1, f)) =
      if e.1 = c then frames e.2 else [] := by
    intro e
    rw [framesTo, List.filterMap_map]
    split_ifs with hc
    · rw [List.filterMap_congr (g := some) fun f _ => by simp [hc]]
      exact List.filterMap_some
    · exact List.filterMap_eq_nil_iff.mpr fun f _ => by simp [hc]
  rcases peers with ⟨l, hl⟩
  rw [Table.get]
  induction l with
  | nil => rfl
  | cons e l ih =>
    rw [List.map_cons, List.nodup_cons] at hl
    rw [List.flatMap_cons, framesTo_append, hown, ih hl.2, List.find?_cons]
    by_cases hc : e.1 = c
    · have hnone : l.find? (·.1 = c) = none := by
        rw [List.find?_eq_none]
        intro x hx hxc
        exact hl.1 (List.mem_map.mpr ⟨x, hx, by rw [hc]; simpa using hxc⟩)
      simp [hc, hnone]
    · simp [hc]

section

variable {s : Sessions} {c : Callsign} {e : Operation}

theorem entries_beside (h : Beside c e) : entries c s e = goneEntries c s (apply s e) := by
  cases e with
  | receive src f now addressedToUs => exact if_neg h
  | enqueue dst kind payload reliable now => exact if_neg h
  | tick now retry => exact absurd h id
  | _ => rfl

theorem frames_goneEntries (c : Callsign) (s t : Sessions) :
    (goneEntries c s t).filterMap Entry.frame = [] := by
  unfold goneEntries
  split_ifs
  · exact frames_discards _
  · rfl

/-- What an operation on another station hands over for this one belongs to no reliable message. -/
theorem handed_beside (h : Beside c e) : handed c s e = apart c s e := by
  cases e with
  | receive src f now addressedToUs => exact if_neg h
  | enqueue dst kind payload reliable now =>
    have hdst : dst ≠ c := h
    cases reliable <;> simp [handed, apart, hdst]
  | tick now retry => exact absurd h id
  | _ => rfl

/-- Every frame that is handed over for the station is accounted for, or belongs to no reliable
message. -/
theorem handed_eq (c : Callsign) (s : Sessions) (e : Operation) :
    handed c s e = apart c s e ++ (entries c s e).filterMap Entry.frame := by
  by_cases hb : Beside c e
  · rw [handed_beside hb, entries_beside hb, frames_goneEntries, List.append_nil]
  cases e with
  | receive src f now addressedToUs =>
    obtain rfl : src = c := not_not.mp hb
    simp only [handed, apart, entries, if_true, List.nil_append]
    obtain ⟨ht, hr⟩ | ⟨p, ht, hr⟩ := s.onReceive_cases src f now addressedToUs
    · rw [hr, ht]
      rfl
    · rw [hr, ht]
      exact (frames_receiveEntries s.config p f now addressedToUs).symm
  | enqueue dst kind payload reliable now =>
    obtain rfl : dst = c := not_not.mp hb
    have hconfig : (s.drawSeq.2.evictPeer dst).config = s.config := s.drawSeq.2.evictPeer_config dst
    have hlimit : s.drawSeq.2.config.maxPeers = s.config.maxPeers := rfl
    simp only [handed, entries, if_true, Sessions.enqueue, hlimit]
    cases reliable with
    | false =>
      have hapart : apart dst s (.enqueue dst kind payload false now) =
          (s.enqueue dst kind payload false now).2.frames := if_pos rfl
      rw [hapart, Sessions.enqueue]
      simp only [hlimit]
      split_ifs
      · rfl
      · cases (s.drawSeq.2.evictPeer dst).touched dst now with
        | none => rfl
        | some p => simp [enqueueEntries]
    | true =>
      rw [show apart dst s (.enqueue dst kind payload true now) = [] from rfl, List.nil_append]
      split_ifs
      · rfl
      · cases (s.drawSeq.2.evictPeer dst).touched dst now with
        | none => rfl
        | some p =>
          simp only [hconfig, Option.map_some, Option.getD_some, frames_enqueueEntries]
          rfl
  | tick now retry =>
    simp only [handed, apart, entries, Sessions.tickRetries, framesTo_append]
    have hfirst := framesTo_entries c s.peers fun p => (s.ticked now retry p).2.1
    have hsecond := framesTo_entries c s.peers fun p => (s.ticked now retry p).2.2
    rw [hfirst, hsecond, Sessions.peer]
    cases s.peers.get c with
    | none => rfl
    | some p => exact frames_tickEntries s p now retry
  | _ => exact absurd trivial hb

/-- The entries of an operation, with the flags of the message it may take in. -/
def flagged (c : Callsign) (flags : UInt8) (s : Sessions) (e : Operation) : List (Entry AircFrame) :=
  match e with
  | .enqueue .. => (entries c s e).map (stamp flags)
  | _ => entries c s e

theorem stamp_goneEntries (flags : UInt8) (s t : Sessions) :
    (goneEntries c s t).map (stamp flags) = goneEntries c s t := by
  unfold goneEntries
  split_ifs
  · rw [discards, List.map_replicate]
    rfl
  · rfl

/-- Everything an operation can do to the messages for the station. -/
theorem apply_spends (hgood : Good s) (flags : UInt8) (e : Operation) :
    Spends s.config.maxRetries flags (s.record c) ((apply s e).record c) (flagged c flags s e) := by
  by_cases hb : Beside c e
  · have hgone : flagged c flags s e = goneEntries c s (apply s e) := by
      unfold flagged
      split
      · rw [entries_beside hb, stamp_goneEntries]
      · exact entries_beside hb
    rw [hgone]
    exact .one (gone_spend (apply_beside s hb))
  cases e with
  | receive src f now addressedToUs =>
    obtain rfl : src = c := not_not.mp hb
    simp only [flagged, entries, if_true, apply]
    obtain ⟨ht, hr⟩ | ⟨p, ht, hr⟩ := s.onReceive_cases src f now addressedToUs
    · rw [hr, ht]
      exact .same ⟨rfl, rfl⟩
    · rw [hr, ht, Sessions.record_store_self]
      have hout := (touched_good hgood ht).2.2
      exact (Spends.same (Sessions.touched_same ht).2.1).trans
        (receive_spends hout f now addressedToUs)
  | enqueue dst kind payload reliable now =>
    obtain rfl : dst = c := not_not.mp hb
    have hdraw : Good s.drawSeq.2 := ⟨hgood.room, hgood.inbox, hgood.outbox⟩
    have hrecord : (s.drawSeq.2.evictPeer dst).record dst = s.record dst := by
      apply Sessions.record_of_peer
      rcases s.drawSeq.2.evictPeer_peer dst dst with hp | ⟨hne, -⟩
      · exact hp
      · exact absurd rfl hne
    have hconfig : (s.drawSeq.2.evictPeer dst).config = s.config := s.drawSeq.2.evictPeer_config dst
    have hlimit : s.drawSeq.2.config.maxPeers = s.config.maxPeers := rfl
    simp only [flagged, entries, if_true, apply, Sessions.enqueue, hlimit]
    split_ifs
    · exact .same ⟨rfl, rfl⟩
    · cases ht : (s.drawSeq.2.evictPeer dst).touched dst now with
      | none =>
        change Spends s.config.maxRetries flags (s.record dst)
          ((s.drawSeq.2.evictPeer dst).record dst) []
        rw [hrecord]
        exact .same ⟨rfl, rfl⟩
      | some p =>
        have hsame := (Sessions.touched_same ht).2.1
        have hout := (touched_good (evictPeer_good hdraw dst) ht).2.2
        rw [hrecord] at hsame
        rw [hconfig] at hout
        simp only [Sessions.record_store_self, hconfig, Option.map_some, Option.getD_some]
        exact (Spends.same hsame).trans (.one (enqueue_spend hout s.nextSeq kind payload reliable))
  | tick now retry =>
    simp only [flagged, entries, apply]
    rw [Sessions.record, Sessions.record, Sessions.tickRetries_peer]
    cases hp : s.peer c with
    | none => exact .same ⟨rfl, rfl⟩
    | some p => exact tick_spends s p now retry
  | _ => exact absurd trivial hb

theorem apply_moves (hgood : Good s) (flags : UInt8) (e : Operation) :
    Moves flags (s.record c) ((apply s e).record c) (flagged c flags s e) :=
  (apply_spends hgood flags e).moves

end

/-! ### The accounts -/

/-- The accounts agree with what is in flight and what waits. -/
def Accounted (p : Peer) (l : Ledger AircFrame) : Prop :=
  Balanced CopyOf (p.pending.map Pending.frames) p.queue l

/-- The frames stand for those of the message, each for one and one for each. -/
theorem copies_of_out {m frames : List AircFrame} (flags : UInt8)
    (h : frames = m ∨ ∃ acked, frames = m.modifyHead (·.attachPiggyback acked)) :
    (∀ g ∈ m, ∃ f ∈ frames.map (·.withFlags flags), CopyOf g f) ∧
    ∀ f ∈ frames.map (·.withFlags flags), ∃ g ∈ m, CopyOf g f := by
  have hplain : (∀ g ∈ m, ∃ f ∈ frames, CopyOf g f) ∧ ∀ f ∈ frames, ∃ g ∈ m, CopyOf g f := by
    rcases h with rfl | ⟨acked, rfl⟩
    · exact ⟨fun g hg => ⟨g, hg, .refl g⟩, fun f hf => ⟨f, hf, .refl f⟩⟩
    cases m with
    | nil => exact ⟨fun g hg => absurd hg List.not_mem_nil, fun f hf => absurd hf List.not_mem_nil⟩
    | cons first rest =>
      constructor
      · intro g hg
        rcases List.mem_cons.mp hg with rfl | hg
        · exact ⟨_, List.mem_cons_self, .piggyback g acked⟩
        · exact ⟨g, List.mem_cons_of_mem _ hg, .refl g⟩
      · intro f hf
        rcases List.mem_cons.mp hf with rfl | hf
        · exact ⟨first, List.mem_cons_self, .piggyback first acked⟩
        · exact ⟨f, List.mem_cons_of_mem _ hf, .refl f⟩
  constructor
  · intro g hg
    obtain ⟨f, hf, hcopy⟩ := hplain.1 g hg
    exact ⟨f.withFlags flags, List.mem_map.mpr ⟨f, hf, rfl⟩, hcopy.withFlags flags⟩
  · intro f' hmem
    obtain ⟨f, hf, rfl⟩ := List.mem_map.mp hmem
    obtain ⟨g, hg, hcopy⟩ := hplain.2 f hf
    exact ⟨g, hg, hcopy.withFlags flags⟩

theorem Accounted.move (h : Accounted p l) {es : List (Entry AircFrame)} (hm : Move flags p q es) :
    Accounted q (l.enter es) := by
  unfold Accounted at h ⊢
  cases hm with
  | stays hk =>
    rw [hk.frames, hk.queue]
    exact h
  | discards hp hq =>
    rw [hp, hq]
    exact Balanced.discard h
  | repeats hp hk hf =>
    rw [hk.frames, hk.queue, hp]
    rw [hp] at h
    refine Balanced.put h ?_
    intro f hmem
    obtain ⟨g, hg, rfl⟩ := hf f hmem
    exact ⟨g, hg, .retry g⟩
  | ends fate hp hempty hnone hq =>
    rw [hp, hempty] at h
    rw [hnone, hq]
    exact Balanced.settle h fate
  | advances fate hp hnext hm =>
    rw [hp, hnext] at h
    rw [hm]
    exact (Balanced.settle h fate).start _ (fun g hg => ⟨g, hg, .refl g⟩) fun f hf => ⟨f, hf, .refl f⟩
  | waits hm hp hf hq =>
    rw [hf, hq]
    exact Balanced.accept h _
  | starts hm hp hempty hf hq hout =>
    rw [hp, hempty] at h
    rw [hf, hq]
    obtain ⟨hall, hcopies⟩ := copies_of_out flags hout
    exact (Balanced.accept h _).start _ hall hcopies

theorem Accounted.moves (h : Accounted p l) {es : List (Entry AircFrame)}
    (hm : Moves flags p q es) : Accounted q (l.enter es) := by
  induction hm generalizing l with
  | one hm => exact h.move hm
  | trans _ _ ih ih' =>
    rw [Ledger.enter_append]
    exact ih' (ih h)

theorem flagged_zero (c : Callsign) (s : Sessions) (e : Operation) :
    flagged c 0 s e = entries c s e := by
  have hstamp : stamp 0 = id := by
    funext e
    cases e with
    | put f => simp [stamp, AircFrame.withFlags]
    | accept m => rfl
    | settle fate => rfl
  unfold flagged
  split
  · rw [hstamp, List.map_id]
  · rfl

/-- An operation and its entries keep the accounts. -/
theorem accounted_apply {s : Sessions} {c : Callsign} {e : Operation} (hgood : Good s)
    (h : Accounted (s.record c) l) :
    Accounted ((apply s e).record c) (l.enter (entries c s e)) := by
  rw [← flagged_zero]
  exact h.moves (apply_moves hgood 0 e)

/-- The reliable messages for a station go out one at a time, in the order they were accepted in,
and each of them is in flight, waits, or has come to its end. -/
theorem stop_and_wait (cfg : SessionConfig) (c : Callsign) {r : Run}
    (h : Reachable (system c cfg) (fun _ _ => True) r) :
    let p := r.sessions.record c
    Balanced CopyOf (p.pending.map Pending.frames) p.queue r.ledger ∧
    (p.queue ≠ [] → p.pending.isSome) ∧
    ∀ e, handed c r.sessions e =
      apart c r.sessions e ++ (entries c r.sessions e).filterMap Entry.frame := by
  have hinv : Inductive (system c cfg) (fun _ _ => True) fun r =>
      Good r.sessions ∧ Accounted (r.sessions.record c) r.ledger := by
    refine .ofNext ?_ ?_
    · rintro r rfl
      exact ⟨good_new cfg, balanced_empty⟩
    · intro r e ⟨hgood, hacc⟩ _ _
      exact ⟨apply_good hgood e, accounted_apply hgood hacc⟩
  obtain ⟨hgood, hacc⟩ := hinv.reachable h
  refine ⟨hacc, ?_, handed_eq c r.sessions⟩
  rw [Sessions.record]
  cases hp : r.sessions.peer c with
  | none => exact fun hne => absurd rfl hne
  | some p => exact (hgood.outbox c p hp).behind

/-! ### An acknowledgement and a removal -/

def asked : List Operation :=
  [.enqueue asker .notice [104] true 0, .enqueue asker .notice [105] true 0,
    .enqueue asker .notice [106] true 0, .receive asker (ackFor 1) 1 true, .forget asker]

/-- The first message was acknowledged, the second had gone out when the station was removed. -/
theorem stop_and_wait_removed :
    let r := asked.foldl (Run.next asker) ⟨.new .default, .empty⟩
    Balanced CopyOf ((r.sessions.record asker).pending.map Pending.frames)
      (r.sessions.record asker).queue r.ledger ∧
    r.ledger.accepted.length = 3 ∧ r.ledger.fates = [.completed, .discarded, .discarded] ∧
    r.ledger.puts.map Prod.fst = [0, 1] := by
  have hinitial : Reachable (system asker .default) (fun _ _ => True) ⟨.new .default, .empty⟩ :=
    Reachable.initial rfl
  have hruns : Runs (fun _ _ => True) (fun r e => Enabled r.sessions e) (Run.next asker)
      ⟨.new .default, .empty⟩ asked := by decide +kernel
  exact ⟨(stop_and_wait .default asker (hinitial.run hruns)).1, by decide +kernel,
    by decide +kernel, by decide +kernel⟩

end StopAndWait
