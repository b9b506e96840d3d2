import Rfircd.StopAndWait
import Rfircd.RadioSteps

/-! Which flags the frames of a message bear when they go out.
The radio layer stamps what the session layer hands back at once; what is sent later comes from
the copy that the session layer kept. -/
namespace MessageFlags

open Basics Airc AircSession TransitionSystem FifoLedger RetryTimers SessionTable StopAndWait
open RadioGateway (Gateway TxClass)

/-- An operation of the session layer, with the flags the radio layer was given for it. -/
structure Request where
  operation : Operation
  flags : UInt8

/-- `atOnce` is a message that no other one was in front of. -/
structure Given where
  flags : UInt8
  atOnce : Bool
  deriving DecidableEq

/-- `given` has the flags of every message that was accepted. -/
structure Book where
  ledger : Ledger AircFrame
  given : List Given

namespace Book

def record (flags : UInt8) (b : Book) (e : Entry AircFrame) : Book :=
  ⟨b.ledger.record e, match e with
    | .accept _ =>
      b.given ++ [⟨flags, decide (b.ledger.accepted.length = b.ledger.fates.length)⟩]
    | _ => b.given⟩

def enter (flags : UInt8) (b : Book) (es : List (Entry AircFrame)) : Book :=
  es.foldl (record flags) b

end Book

structure Run where
  sessions : Sessions
  book : Book

def Run.next (c : Callsign) (r : Run) (q : Request) : Run :=
  ⟨apply r.sessions q.operation,
    r.book.enter q.flags (flagged c q.flags r.sessions q.operation)⟩

def system (c : Callsign) (cfg : SessionConfig) : System Run Request :=
  .ofNext (· = ⟨.new cfg, ⟨.empty, []⟩⟩) (fun r q => Enabled r.sessions q.operation) (Run.next c)

/-- The same fragment of the message went out before. -/
def Again (before : List (ℕ × AircFrame)) (n : ℕ) (f : AircFrame) : Prop :=
  ∃ e ∈ before, e.1 = n ∧ e.2.fragIndex = f.fragIndex

instance (before : List (ℕ × AircFrame)) (n : ℕ) (f : AircFrame) :
    Decidable (Again before n f) :=
  inferInstanceAs (Decidable (∃ e ∈ before, _))

/-- All the flags of the message are there, and that of a retransmission on those alone. -/
def BearsFlags (flags : UInt8) (again : Prop) (f : AircFrame) : Prop :=
  flags &&& f.flags = flags ∧ (flags &&& Flags.retry = 0 → (f.has Flags.retry = true ↔ again))

/-- The flags add nothing to what the kept copy bears by itself. -/
def KeptFlags (flags : UInt8) (again : Prop) : Prop :=
  flags &&& Flags.ackReq = flags ∨ again ∧ flags &&& (Flags.ackReq ||| Flags.retry) = flags

/-! ### What the frames bear -/

/-- The flags of a frame, as it went out at once, later, or again. -/
inductive Stamped (g : Given) (again : Prop) (f : AircFrame) : Prop where
  | atOnce (hfirst : ¬ again) (hg : g.atOnce = true)
      (hf : f.flags = Flags.ackReq ||| g.flags ∨
        f.flags = Flags.ackReq ||| Flags.piggyack ||| g.flags)
  | later (hfirst : ¬ again) (hg : g.atOnce = false) (hf : f.flags = Flags.ackReq)
  | repeated (hagain : again) (hf : f.flags = Flags.ackReq ||| Flags.retry)

/-- What holds of every octet of flags is checked on all of them. -/
theorem forall_octet {P : UInt8 → Prop} (h : ∀ b : BitVec 8, P ⟨b⟩) (flags : UInt8) : P flags :=
  h flags.toBitVec

theorem stamped_bits (flags : UInt8) :
    flags &&& (Flags.ackReq ||| flags) = flags ∧
    flags &&& (Flags.ackReq ||| Flags.piggyack ||| flags) = flags ∧
    ((Flags.ackReq ||| flags) &&& Flags.retry = flags &&& Flags.retry) ∧
    ((Flags.ackReq ||| Flags.piggyack ||| flags) &&& Flags.retry = flags &&& Flags.retry) := by
  revert flags
  refine forall_octet ?_
  decide +kernel

theorem kept_bits (flags : UInt8) : flags &&& Flags.ackReq = flags →
    flags &&& (Flags.ackReq ||| Flags.retry) = flags := by
  revert flags
  refine forall_octet ?_
  decide +kernel

/-- A frame is right when it went out at once, or when the kept copy has the flags already. -/
theorem Stamped.bears_iff {g : Given} {again : Prop} {f : AircFrame} (h : Stamped g again f) :
    BearsFlags g.flags again f ↔ g.atOnce = true ∧ ¬ again ∨ KeptFlags g.flags again := by
  obtain ⟨habsorb, habsorb', hretry, hretry'⟩ := stamped_bits g.flags
  cases h with
  | atOnce hfirst hg hf =>
    have hright : BearsFlags g.flags again f := by
      unfold BearsFlags AircFrame.has
      rcases hf with hf | hf
      · rw [hf, habsorb, hretry]
        simp [hfirst]
      · rw [hf, habsorb', hretry']
        simp [hfirst]
    exact iff_of_true hright (.inl ⟨hg, hfirst⟩)
  | later hfirst hg hf =>
    have hplain : f.has Flags.retry = false := by
      rw [AircFrame.has, hf]
      rfl
    rw [BearsFlags, KeptFlags, hf, hg, hplain]
    simp [hfirst]
  | repeated hagain hf =>
    have hmarked : f.has Flags.retry = true := by
      rw [AircFrame.has, hf]
      rfl
    have hmore := kept_bits g.flags
    rw [BearsFlags, KeptFlags, hf, hmarked]
    constructor
    · intro h
      exact .inr (.inr ⟨hagain, h.1⟩)
    · rintro (⟨-, hfirst⟩ | h | ⟨-, h⟩)
      · exact absurd hagain hfirst
      · exact ⟨hmore h, fun _ => iff_of_true rfl hagain⟩
      · exact ⟨h, fun _ => iff_of_true rfl hagain⟩

/-- Every frame that went out is as it should be after those before it. -/
def Borne (given : List Given) (puts : List (ℕ × AircFrame)) : Prop :=
  ∀ before n f after, puts = before ++ (n, f) :: after →
    ∃ g, given[n]? = some g ∧ Stamped g (Again before n f) f

theorem borne_nil (given : List Given) : Borne given [] := by
  intro before n f after h
  simp at h

theorem Borne.accept {given : List Given} {puts : List (ℕ × AircFrame)} (h : Borne given puts)
    (g : Given) : Borne (given ++ [g]) puts := by
  intro before n f after heq
  obtain ⟨g', hg', hstamped⟩ := h before n f after heq
  refine ⟨g', ?_, hstamped⟩
  rw [List.getElem?_append_left (List.getElem?_eq_some_iff.mp hg').1]
  exact hg'

/-- More frames of one message. -/
theorem Borne.append {given : List Given} {puts : List (ℕ × AircFrame)} (h : Borne given puts)
    {n : ℕ} {g : Given} (hg : given[n]? = some g) {frames : List AircFrame}
    (hnew : ∀ fs f gs, frames = fs ++ f :: gs → Stamped g (Again (puts ++ fs.map (n, ·)) n f) f) :
    Borne given (puts ++ frames.map (n, ·)) := by
  have hlate : ∀ as m f after, frames.map (n, ·) = as ++ (m, f) :: after →
      ∃ g, given[m]? = some g ∧ Stamped g (Again (puts ++ as) m f) f := by
    intro as m f after heq
    obtain ⟨fs, rest, rfl, rfl, hrest⟩ := List.map_eq_append_iff.mp heq
    obtain ⟨f', gs, rfl, hf', -⟩ := List.map_eq_cons_iff.mp hrest
    obtain ⟨rfl, rfl⟩ := Prod.mk.inj hf'
    exact ⟨g, hg, hnew fs f' gs rfl⟩
  intro before m f after heq
  rcases List.append_eq_append_iff.mp heq with ⟨as, rfl, has⟩ | ⟨bs, hbs, hrest⟩
  · exact hlate as m f after has
  · cases bs with
    | nil =>
      rw [List.append_nil] at hbs
      have := hlate [] m f after hrest.symm
      rwa [List.append_nil, hbs] at this
    | cons e bs =>
      obtain ⟨rfl, -⟩ := List.cons.inj hrest
      exact h before m f bs hbs

/-! ### One record -/

variable {p q : Peer} {b : Book} {flags : UInt8}

theorem Book.enter_append (b : Book) (es es' : List (Entry AircFrame)) :
    b.enter flags (es ++ es') = (b.enter flags es).enter flags es' := List.foldl_append

theorem Book.enter_puts (b : Book) (frames : List AircFrame) :
    b.enter flags (putAll frames) = ⟨b.ledger.enter (putAll frames), b.given⟩ := by
  induction frames generalizing b with
  | nil => rfl
  | cons f frames ih => exact ih _

theorem Book.enter_discards (b : Book) (k : ℕ) :
    b.enter flags (List.replicate k (.settle .discarded)) =
      ⟨b.ledger.enter (List.replicate k (.settle .discarded)), b.given⟩ := by
  induction k generalizing b with
  | zero => rfl
  | succ k ih => exact ih _

theorem fragments_bare {kind : Kind} {seq : UInt16} {parts : List (List UInt8)} {f : AircFrame}
    (h : f ∈ fragments kind seq true parts) : f.flags = Flags.ackReq := by
  obtain ⟨i, hi, rfl⟩ := List.mem_mapIdx.mp h
  rfl

theorem reliable_bare {m : List AircFrame} (h : Reliable m) : ∀ f ∈ m, f.flags = Flags.ackReq := by
  obtain ⟨kind, seq, parts, -, rfl⟩ := h
  exact fun f hf => fragments_bare hf

/-- No two frames of a message are the same fragment. -/
theorem reliable_nodup {m : List AircFrame} (h : Reliable m) :
    (m.map AircFrame.fragIndex).Nodup := by
  obtain ⟨kind, seq, parts, hfew, rfl⟩ := h
  by_cases hne : parts = []
  · subst hne
    exact List.nodup_nil
  · have hindices := (inParts_fragments kind seq true hne hfew).indices
    apply List.Nodup.of_map UInt8.toNat
    rw [List.map_map]
    exact hindices ▸ List.nodup_range

/-- The frames of a message that goes out under a number none went out under before. -/
theorem Borne.first {given : List Given} {puts : List (ℕ × AircFrame)} (h : Borne given puts)
    {n : ℕ} {g : Given} (hg : given[n]? = some g) (hfresh : ∀ e ∈ puts, e.1 < n)
    {frames : List AircFrame} (hnodup : (frames.map AircFrame.fragIndex).Nodup)
    (hstamped : ∀ f ∈ frames, ∀ again, ¬ again → Stamped g again f) :
    Borne given (puts ++ frames.map (n, ·)) := by
  apply h.append hg
  rintro fs f gs rfl
  refine hstamped f (by simp) _ ?_
  rintro ⟨e, he, hn, hindex⟩
  rcases List.mem_append.mp he with he | he
  · have := hfresh e he
    omega
  · obtain ⟨f', hf', rfl⟩ := List.mem_map.mp he
    rw [List.map_append, List.map_cons, List.nodup_append'] at hnodup
    exact hnodup.2.2 (List.mem_map.mpr ⟨f', hf', hindex⟩) List.mem_cons_self

structure Marked (p : Peer) (b : Book) : Prop where
  accounted : Accounted p b.ledger
  given : b.given.length = b.ledger.accepted.length
  unsent : p.pending = none → ∀ e ∈ b.ledger.puts, e.1 < b.ledger.fates.length
  behind : ∀ n g, b.ledger.fates.length < n → b.given[n]? = some g → g.atOnce = false
  messages : ∀ m ∈ p.outbox, Reliable m
  borne : Borne b.given b.ledger.puts

theorem kept_outbox (h : Kept p q) : q.outbox = p.outbox := by
  rw [Peer.outbox, h.frames, h.queue, Peer.outbox]

theorem pending_none_of_frames (h : q.pending.map Pending.frames = p.pending.map Pending.frames)
    (hq : q.pending = none) : p.pending = none := by
  rw [hq] at h
  cases hp : p.pending with
  | none => rfl
  | some pd => simp [hp] at h

theorem Marked.given_of_accepted (h : Marked p b) {n : ℕ} {m : List AircFrame}
    (hm : b.ledger.accepted[n]? = some m) : ∃ g, b.given[n]? = some g := by
  have hlt := (List.getElem?_eq_some_iff.mp hm).1
  rw [← h.given] at hlt
  exact ⟨_, List.getElem?_eq_getElem hlt⟩

theorem Marked.stays (h : Marked p b) (hk : Kept p q) : Marked q b where
  accounted := h.accounted.move (.stays hk : Move 0 p q _)
  given := h.given
  unsent hq := h.unsent (pending_none_of_frames hk.frames hq)
  behind := h.behind
  messages := kept_outbox hk ▸ h.messages
  borne := h.borne

theorem Marked.discards (h : Marked p b) (hp : q.pending = none) (hq : q.queue = []) :
    Marked q (b.enter flags (StopAndWait.discards p)) := by
  have hbalanced : Accounted q (b.ledger.enter (StopAndWait.discards p)) :=
    h.accounted.move (.discards hp hq : Move 0 p q _)
  have hall : (b.ledger.fates ++ List.replicate p.outbox.length Fate.discarded).length =
      b.ledger.accepted.length := by
    have hleft := congrArg List.length h.accounted.left
    have hsettled := h.accounted.settled
    rw [List.length_drop] at hleft
    rw [List.length_append, List.length_replicate, Peer.outbox, ← hleft]
    omega
  rw [StopAndWait.discards] at hbalanced
  rw [StopAndWait.discards, Book.enter_discards]
  rw [Ledger.enter_discards] at hbalanced ⊢
  refine ⟨hbalanced, h.given, ?_, ?_, ?_, h.borne⟩
  · intro _ e he
    obtain ⟨m, hm, -⟩ := h.accounted.content e.1 e.2 he
    exact lt_of_lt_of_le (List.getElem?_eq_some_iff.mp hm).1 hall.ge
  · intro n g hn hg
    refine h.behind n g (lt_of_le_of_lt ?_ hn) hg
    rw [List.length_append]
    exact Nat.le_add_right _ _
  · intro m hm
    rw [Peer.outbox, hp, hq] at hm
    exact absurd hm List.not_mem_nil

/-- A repetition bears the mark of one; the fragment went out before. -/
theorem Marked.repeats (h : Marked p b) {pd : Pending} {frames : List AircFrame}
    (hp : p.pending = some pd) (hk : Kept p q)
    (hf : ∀ f ∈ frames, ∃ g ∈ pd.frames, f = retryFrame g) :
    Marked q (b.enter flags (putAll frames)) := by
  have hbalanced : Accounted q (b.ledger.enter (putAll frames)) :=
    h.accounted.move (.repeats hp hk hf : Move 0 p q _)
  have hflying : p.pending.map Pending.frames = some pd.frames := by
    rw [hp]
    rfl
  have hreliable : Reliable pd.frames := h.messages pd.frames (by simp [Peer.outbox, hp])
  have hcurrent : b.ledger.accepted[b.ledger.fates.length]? = some pd.frames :=
    h.accounted.current (show _ ++ _ = pd.frames :: p.queue by rw [hflying]; rfl)
  obtain ⟨g, hg⟩ := h.given_of_accepted hcurrent
  rw [Book.enter_puts]
  rw [putAll, Ledger.enter_puts] at hbalanced ⊢
  refine ⟨hbalanced, h.given, ?_, h.behind, ?_, ?_⟩
  · intro hq
    have hnone := pending_none_of_frames hk.frames hq
    rw [hp] at hnone
    cases hnone
  · exact kept_outbox hk ▸ h.messages
  · apply h.borne.append hg
    rintro fs f gs rfl
    obtain ⟨part, hpart, rfl⟩ := hf f (by simp)
    obtain ⟨f', hput, hcopy⟩ := h.accounted.started pd.frames hflying part hpart
    refine .repeated ⟨_, List.mem_append_left _ hput, rfl, hcopy.index⟩ ?_
    rw [retryFrame, reliable_bare hreliable part hpart]

/-- The end of the message in flight, before another one goes out. -/
theorem Marked.settled (h : Marked p b) (fate : Fate) :
    (∀ e ∈ b.ledger.puts, e.1 < (b.ledger.fates ++ [fate]).length) ∧
    ∀ n g, (b.ledger.fates ++ [fate]).length ≤ n → b.given[n]? = some g → g.atOnce = false := by
  rw [List.length_append, List.length_singleton]
  constructor
  · intro e he
    exact Nat.lt_succ_of_le (h.accounted.past e.1 e.2 he)
  · intro n g hn hg
    exact h.behind n g hn hg

theorem Marked.ends (h : Marked p b) {pd : Pending} (fate : Fate) (hp : p.pending = some pd)
    (hempty : p.queue = []) (hnone : q.pending = none) (hq : q.queue = []) :
    Marked q (b.enter flags [.settle fate]) := by
  obtain ⟨hunsent, hbehind⟩ := h.settled fate
  refine ⟨h.accounted.move (.ends fate hp hempty hnone hq : Move 0 p q _), h.given, fun _ => hunsent,
    fun n g hn => hbehind n g hn.le, ?_, h.borne⟩
  intro m hm
  rw [Peer.outbox, hnone, hq] at hm
  exact absurd hm List.not_mem_nil

/-- A message that had to wait goes out as it was kept. -/
theorem Marked.advances (h : Marked p b) {pd : Pending} {m : List AircFrame} (fate : Fate)
    (hp : p.pending = some pd) (hnext : p.queue = m :: q.queue)
    (hm : q.pending.map Pending.frames = some m) :
    Marked q (b.enter flags (.settle fate :: putAll m)) := by
  obtain ⟨hunsent, hbehind⟩ := h.settled fate
  have hbalanced : Accounted q (b.ledger.enter (.settle fate :: putAll m)) :=
    h.accounted.move (.advances fate hp hnext hm : Move 0 p q _)
  have hmessages : ∀ m' ∈ q.outbox, Reliable m' := by
    intro m' hm'
    rw [Peer.outbox, hm] at hm'
    refine h.messages m' (List.mem_append_right _ ?_)
    rw [hnext]
    exact hm'
  have hreliable : Reliable m := hmessages m (by simp [Peer.outbox, hm])
  have hbook : b.enter flags (.settle fate :: putAll m) =
      ⟨(b.ledger.record (.settle fate)).enter (putAll m), b.given⟩ := Book.enter_puts _ m
  have hledger : b.ledger.enter (.settle fate :: putAll m) =
      (b.ledger.record (.settle fate)).enter (putAll m) := rfl
  have hcurrent : b.ledger.accepted[(b.ledger.fates ++ [fate]).length]? = some m := by
    rw [hledger, putAll, Ledger.enter_puts] at hbalanced
    exact hbalanced.current (show _ ++ _ = m :: q.queue by rw [hm]; rfl)
  obtain ⟨g, hg⟩ := h.given_of_accepted hcurrent
  rw [hbook]
  rw [hledger] at hbalanced
  rw [putAll, Ledger.enter_puts] at hbalanced ⊢
  refine ⟨hbalanced, h.given, ?_, fun n g hn => hbehind n g hn.le, hmessages, ?_⟩
  · intro hq
    rw [hq] at hm
    cases hm
  · refine h.borne.first hg hunsent (reliable_nodup hreliable) ?_
    intro f hf again hfirst
    exact .later hfirst (hbehind _ g le_rfl hg) (reliable_bare hreliable f hf)

theorem Marked.waits (h : Marked p b) {m : List AircFrame} (hm : Reliable m)
    (hp : p.pending.isSome = true)
    (hf : q.pending.map Pending.frames = p.pending.map Pending.frames)
    (hq : q.queue = p.queue ++ [m]) : Marked q (b.enter flags [.accept m]) := by
  obtain ⟨pd, hp⟩ := Option.isSome_iff_exists.mp hp
  have hflying : p.pending.map Pending.frames = some pd.frames := by
    rw [hp]
    rfl
  have hcurrent : b.ledger.accepted[b.ledger.fates.length]? = some pd.frames :=
    h.accounted.current (show _ ++ _ = pd.frames :: p.queue by rw [hflying]; rfl)
  have hmore := (List.getElem?_eq_some_iff.mp hcurrent).1
  refine ⟨h.accounted.move (.waits hm (by rw [hp]; rfl) hf hq : Move 0 p q _), ?_, ?_, ?_, ?_,
    h.borne.accept _⟩
  · change (b.given ++ [_]).length = (b.ledger.accepted ++ [m]).length
    rw [List.length_append, List.length_append, h.given]
    rfl
  · intro hnone
    have hnone := pending_none_of_frames hf hnone
    rw [hp] at hnone
    cases hnone
  · intro n g hn hg
    change (b.given ++ [_])[n]? = some g at hg
    rw [List.getElem?_append] at hg
    split_ifs at hg with hold
    · exact h.behind n g hn hg
    · obtain rfl := List.mem_singleton.mp (List.mem_of_getElem? hg)
      exact decide_eq_false (by omega)
  · intro m' hm'
    rw [Peer.outbox, hf, hq, ← List.append_assoc] at hm'
    rcases List.mem_append.mp hm' with hm' | hm'
    · exact h.messages m' hm'
    · exact List.mem_singleton.mp hm' ▸ hm

theorem stamped_atOnce {m frames : List AircFrame} (hm : Reliable m)
    (hout : frames = m ∨ ∃ acked, frames = m.modifyHead (·.attachPiggyback acked)) :
    ∀ f ∈ frames.map (·.withFlags flags), ∀ again, ¬ again → Stamped ⟨flags, true⟩ again f := by
  intro f' hf' again hfirst
  obtain ⟨f, hf, rfl⟩ := List.mem_map.mp hf'
  refine .atOnce hfirst rfl ?_
  have hbare := reliable_bare hm
  rcases hout with rfl | ⟨acked, rfl⟩
  · exact .inl (by rw [AircFrame.withFlags, hbare f hf])
  cases m with
  | nil => exact absurd hf List.not_mem_nil
  | cons first rest =>
    rcases List.mem_cons.mp hf with rfl | hf
    · right
      change first.flags ||| Flags.piggyack ||| flags = _
      rw [hbare first List.mem_cons_self]
    · left
      rw [AircFrame.withFlags, hbare f (List.mem_cons_of_mem _ hf)]

theorem indices_out {m frames : List AircFrame} (flags : UInt8)
    (hout : frames = m ∨ ∃ acked, frames = m.modifyHead (·.attachPiggyback acked)) :
    (frames.map (·.withFlags flags)).map AircFrame.fragIndex = m.map AircFrame.fragIndex := by
  rw [List.map_map]
  rcases hout with rfl | ⟨acked, rfl⟩
  · rfl
  · cases m <;> rfl

/-- A message that no other one is in front of goes out with its flags. -/
theorem Marked.starts (h : Marked p b) {m frames : List AircFrame} (hm : Reliable m)
    (hp : p.pending = none) (hempty : p.queue = [])
    (hf : q.pending.map Pending.frames = some m) (hq : q.queue = [])
    (hout : frames = m ∨ ∃ acked, frames = m.modifyHead (·.attachPiggyback acked)) :
    Marked q (b.enter flags (.accept m :: putAll (frames.map (·.withFlags flags)))) := by
  have hbalanced : Accounted q
      (b.ledger.enter (.accept m :: putAll (frames.map (·.withFlags flags)))) :=
    h.accounted.move (.starts hm hp hempty hf hq hout : Move flags p q _)
  have hall : b.ledger.accepted.length = b.ledger.fates.length := by
    have hleft := h.accounted.left
    rw [hp, hempty] at hleft
    have hle := List.drop_eq_nil_iff.mp hleft
    exact le_antisymm hle h.accounted.settled
  have hbook : b.enter flags (.accept m :: putAll (frames.map (·.withFlags flags))) =
      ⟨(b.ledger.record (.accept m)).enter (putAll (frames.map (·.withFlags flags))),
        b.given ++ [⟨flags, true⟩]⟩ := by
    have hgiven : b.record flags (.accept m) =
        ⟨b.ledger.record (.accept m), b.given ++ [⟨flags, true⟩]⟩ := by
      rw [Book.record, decide_eq_true hall]
    change (b.record flags (.accept m)).enter flags _ = _
    rw [hgiven]
    exact Book.enter_puts _ _
  have hledger : b.ledger.enter (.accept m :: putAll (frames.map (·.withFlags flags))) =
      (b.ledger.record (.accept m)).enter (putAll (frames.map (·.withFlags flags))) := rfl
  have hgiven : (b.given ++ [(⟨flags, true⟩ : Given)])[b.ledger.fates.length]? =
      some ⟨flags, true⟩ := by
    rw [← hall, ← h.given]
    exact List.getElem?_concat_length
  have hlength : (b.given ++ [(⟨flags, true⟩ : Given)]).length =
      (b.ledger.accepted ++ [m]).length := by
    rw [List.length_append, List.length_append, h.given]
    rfl
  rw [hbook]
  rw [hledger] at hbalanced
  rw [putAll, Ledger.enter_puts] at hbalanced ⊢
  refine ⟨hbalanced, hlength, ?_, ?_, ?_, ?_⟩
  · intro hnone
    rw [hnone] at hf
    cases hf
  · intro n g hn hg
    have hlt := (List.getElem?_eq_some_iff.mp hg).1
    rw [hlength, List.length_append, List.length_singleton, hall] at hlt
    change b.ledger.fates.length < n at hn
    omega
  · intro m' hm'
    rw [Peer.outbox, hf, hq] at hm'
    exact List.mem_singleton.mp hm' ▸ hm
  · refine (h.borne.accept _).first hgiven (h.unsent hp) ?_ (stamped_atOnce hm hout)
    rw [indices_out flags hout]
    exact reliable_nodup hm

theorem Marked.move (h : Marked p b) {es : List (Entry AircFrame)} (hm : Move flags p q es) :
    Marked q (b.enter flags es) := by
  cases hm with
  | stays hk => exact h.stays hk
  | discards hp hq => exact h.discards hp hq
  | repeats hp hk hf => exact h.repeats hp hk hf
  | ends fate hp hempty hnone hq => exact h.ends fate hp hempty hnone hq
  | advances fate hp hnext hm => exact h.advances fate hp hnext hm
  | waits hm hp hf hq => exact h.waits hm hp hf hq
  | starts hm hp hempty hf hq hout => exact h.starts hm hp hempty hf hq hout

theorem Marked.moves (h : Marked p b) {es : List (Entry AircFrame)} (hm : Moves flags p q es) :
    Marked q (b.enter flags es) := by
  induction hm generalizing b with
  | one hm => exact h.move hm
  | trans _ _ ih ih' =>
    rw [Book.enter_append]
    exact ih' (ih h)

theorem marked_initial : Marked (Peer.new 0) ⟨.empty, []⟩ where
  accounted := balanced_empty
  given := rfl
  unsent _ _ he := absurd he List.not_mem_nil
  behind _ _ _ hg := by simp at hg
  messages _ hm := absurd hm List.not_mem_nil
  borne := borne_nil []

/-! ### Messages that are sent once -/

theorem bears_of_blank {f : AircFrame} (hf : f.flags = flags) : BearsFlags flags False f := by
  rw [BearsFlags, AircFrame.has, hf, UInt8.and_self]
  refine ⟨rfl, fun h => ?_⟩
  rw [h]
  decide

theorem broadcast_bears (kind : Kind) (seq : UInt16) (parts : List (List UInt8)) (flags : UInt8) :
    ∀ f ∈ Gateway.broadcastFrames kind seq parts flags, BearsFlags flags False f := by
  intro f hf
  obtain ⟨i, hi, rfl⟩ := List.mem_mapIdx.mp hf
  exact bears_of_blank (UInt8.zero_or)

/-! ### What is handed over -/

/-- Every frame for the station that goes to the transmit queue. -/
def handed (c : Callsign) (s : Sessions) (q : Request) : List AircFrame :=
  match q.operation with
  | .enqueue .. => (StopAndWait.handed c s q.operation).map (·.withFlags q.flags)
  | _ => StopAndWait.handed c s q.operation

/-- Those of them that belong to no message that asks for an acknowledgement. -/
def apart (c : Callsign) (s : Sessions) (q : Request) : List AircFrame :=
  match q.operation with
  | .enqueue .. => (StopAndWait.apart c s q.operation).map (·.withFlags q.flags)
  | _ => StopAndWait.apart c s q.operation

/-- The frames that the gateway puts in its queue for a message are those. -/
theorem unicastFlagged_hands (g : Gateway) (dst : Callsign) (kind : Kind) (payload : List UInt8)
    (reliable : Bool) (cls : TxClass) (flags : UInt8) (now : ℕ)
    (h : (g.unicastFlagged dst kind payload reliable cls flags now).1 = true) :
    (g.unicastFlagged dst kind payload reliable cls flags now).2 =
      (g.withSessions (Gateway.noteAirc
        (g.radio.sessions.enqueue dst kind payload reliable now).1 dst)).transmitAll cls
        ((handed dst g.radio.sessions ⟨.enqueue dst kind payload reliable now, flags⟩).map
          (dst, ·)) := by
  rcases g.unicastFlagged_cases dst kind payload reliable cls flags now with
    ⟨g', hr, -⟩ | ⟨-, -, -, -, ⟨-, hr⟩ | ⟨-, hr⟩⟩
  · rw [hr] at h
    cases h
  · rw [hr] at h
    cases h
  · rw [hr]
    simp [handed, StopAndWait.handed, Function.comp_def]

theorem frames_stamp (flags : UInt8) (es : List (Entry AircFrame)) :
    (es.map (stamp flags)).filterMap Entry.frame =
      (es.filterMap Entry.frame).map (·.withFlags flags) := by
  induction es with
  | nil => rfl
  | cons e es ih =>
    cases e with
    | put f => simp [stamp, Entry.frame, ih]
    | accept m => exact ih
    | settle fate => exact ih

theorem handed_flagged (c : Callsign) (s : Sessions) (q : Request) :
    handed c s q = apart c s q ++ (flagged c q.flags s q.operation).filterMap Entry.frame := by
  obtain ⟨e, flags⟩ := q
  have heq := handed_eq c s e
  cases e with
  | enqueue dst kind payload reliable now =>
    simp only [handed, apart, flagged]
    rw [heq, List.map_append, frames_stamp]
  | _ => exact heq

theorem unreliable_bears (c : Callsign) (s : Sessions) (kind : Kind) (payload : List UInt8)
    (now : ℕ) (flags : UInt8) :
    ∀ f ∈ handed c s ⟨.enqueue c kind payload false now, flags⟩, BearsFlags flags False f := by
  intro f' hf'
  simp only [handed, StopAndWait.handed, if_true] at hf'
  obtain ⟨f, hf, rfl⟩ := List.mem_map.mp hf'
  obtain ⟨t, -, -, hr | ⟨p, -, -, hr⟩⟩ := s.enqueue_cases c kind payload false now
  · rw [hr] at hf
    exact absurd hf List.not_mem_nil
  rw [hr] at hf
  obtain ⟨q, hq, -⟩ | ⟨-, ⟨-, hq⟩ | ⟨hrel, -⟩ | ⟨hrel, -⟩ | ⟨acked, hrel, -⟩⟩ :=
    enqueue_cases s.config p s.nextSeq kind payload false
  · rw [hq] at hf
    exact absurd hf List.not_mem_nil
  · rw [hq] at hf
    obtain ⟨i, hi, rfl⟩ := List.mem_mapIdx.mp hf
    exact bears_of_blank (UInt8.zero_or)
  all_goals cases hrel

/-! ### Runs -/

/-- A frame that goes out for a message bears the flags of the message, and that of a
retransmission exactly when it is one, if and only if the message went out at once and the frame
goes out for the first time, or the flags add nothing to those the kept copy bears. -/
theorem flags_borne (cfg : SessionConfig) (c : Callsign) {r : Run}
    (h : Reachable (system c cfg) (fun _ _ => True) r) :
    (∀ before n f after, r.book.ledger.puts = before ++ (n, f) :: after →
      ∃ m g, r.book.ledger.accepted[n]? = some m ∧ r.book.given[n]? = some g ∧
        (∃ part ∈ m, CopyOf part f) ∧
        (BearsFlags g.flags (Again before n f) f ↔
          g.atOnce = true ∧ ¬ Again before n f ∨ KeptFlags g.flags (Again before n f))) ∧
    (∀ q, handed c r.sessions q = apart c r.sessions q ++
      (flagged c q.flags r.sessions q.operation).filterMap Entry.frame) ∧
    (∀ kind payload now flags, ∀ f ∈ handed c r.sessions ⟨.enqueue c kind payload false now, flags⟩,
      BearsFlags flags False f) ∧
    ∀ kind seq parts flags, ∀ f ∈ Gateway.broadcastFrames kind seq parts flags,
      BearsFlags flags False f := by
  have hinv : Inductive (system c cfg) (fun _ _ => True) fun r =>
      Good r.sessions ∧ Marked (r.sessions.record c) r.book := by
    refine .ofNext ?_ ?_
    · rintro r rfl
      exact ⟨good_new cfg, marked_initial⟩
    · intro r q ⟨hgood, hmarked⟩ _ _
      exact ⟨apply_good hgood q.operation, hmarked.moves (apply_moves hgood q.flags q.operation)⟩
  obtain ⟨-, hmarked⟩ := hinv.reachable h
  refine ⟨?_, handed_flagged c r.sessions, unreliable_bears c r.sessions, broadcast_bears⟩
  intro before n f after hputs
  obtain ⟨m, hm, hpart⟩ := hmarked.accounted.content n f (by rw [hputs]; simp)
  obtain ⟨g, hg, hstamped⟩ := hmarked.borne before n f after hputs
  exact ⟨m, g, hm, hg, hpart, hstamped.bears_iff⟩

/-! ### A shortened message -/

/-- It goes out as soon as it is accepted. -/
def shortened : Run :=
  Run.next asker ⟨.new .default, ⟨.empty, []⟩⟩ ⟨.enqueue asker .notice [104] true 0, Flags.truncated⟩

theorem flags_borne_shortened :
    ∃ f g, shortened.book.ledger.puts = [(0, f)] ∧ shortened.book.given[0]? = some g ∧
      g.flags = Flags.truncated ∧ BearsFlags g.flags (Again [] 0 f) f := by
  have h : Reachable (system asker .default) (fun _ _ => True) shortened :=
    (Reachable.initial rfl).fire _ trivial trivial
  have hnumbers : shortened.book.ledger.puts.map Prod.fst = [0] := by decide +kernel
  have hgiven : shortened.book.given = [⟨Flags.truncated, true⟩] := by decide +kernel
  obtain ⟨⟨n, f⟩, hputs, rfl⟩ := List.map_eq_singleton_iff.mp hnumbers
  obtain ⟨m, g, -, hg, -, hiff⟩ := (flags_borne .default asker h).1 [] 0 f [] hputs
  have hg' : g = ⟨Flags.truncated, true⟩ := by
    rw [hgiven] at hg
    exact (Option.some.inj hg).symm
  refine ⟨f, g, hputs, hg, by rw [hg'], hiff.mpr (.inl ⟨by rw [hg'], ?_⟩)⟩
  rintro ⟨e, he, -⟩
  exact absurd he List.not_mem_nil

/-- It waits behind another one, and goes out when that one is acknowledged. -/
def released : Run :=
  [⟨.enqueue asker .notice [104] true 0, 0⟩, ⟨.enqueue asker .notice [105] true 0, Flags.truncated⟩,
    ⟨.receive asker (ackFor 1) 1 true, 0⟩].foldl (Run.next asker) ⟨.new .default, ⟨.empty, []⟩⟩

theorem flags_lost :
    ∃ r : Run, Reachable (system asker .default) (fun _ _ => True) r ∧
    ∃ before n f g, r.book.ledger.puts = before ++ [(n, f)] ∧ r.book.given[n]? = some g ∧
      g.flags = Flags.truncated ∧ ¬ BearsFlags g.flags (Again before n f) f := by
  have h : Reachable (system asker .default) (fun _ _ => True) released :=
    (Reachable.initial rfl).run (by decide +kernel)
  have hputs : released.book.ledger.puts =
      [(0, { AircFrame.new .notice 1 [104] with flags := Flags.ackReq })] ++
        [(1, { AircFrame.new .notice 2 [105] with flags := Flags.ackReq })] := by decide +kernel
  have hgiven : released.book.given[1]? = some ⟨Flags.truncated, false⟩ := by decide +kernel
  refine ⟨released, h, _, 1, _, _, hputs, hgiven, rfl, ?_⟩
  rintro ⟨hall, -⟩
  exact absurd hall (by decide)

end MessageFlags
