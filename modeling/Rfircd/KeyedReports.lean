import Rfircd.InFlight

/-! Whose timer the report of a keyed frame starts.
A report names a station and a number; which frame it was made from is a ghost here. -/
namespace KeyedReports

open Basics Airc AircSession KeyedTable Ax25 TransmitScheduler TransmitPump RadioGateway InFlight
  TransitionSystem

/-- `unread` has the reports that the server has not read yet, each with its frame. -/
structure Traced where
  gateway : Gateway
  unread : List (Keyed × Queued Ax25Frame)

def keyedFrom (fates : List Fate) : List (Keyed × Queued Ax25Frame) :=
  fates.filterMap fun fate => match fate with
    | .keyed item =>
      (aircSeq item.payload.info).map fun seq => (⟨item.payload.destination.call, seq⟩, item)
    | .dropped _ _ => none

def Traced.next (s : Traced) (e : RadioGateway.Event) : Traced :=
  ⟨s.gateway.next e, match e with
    | .drainKeyed _ => []
    | .pump e => s.unread ++
      (keyedFrom (s.gateway.pump.next e).2).take (keyedCapacity - s.unread.length)
    | _ => s.unread⟩

def system (cfg : RadioConfig) (tnc : TncConfig) : System Traced RadioGateway.Event :=
  .ofNext (· = ⟨.new cfg tnc, []⟩) (fun s e => RadioGateway.Enabled s.gateway e) Traced.next

/-! ### Messages in flight -/

/-- The messages in flight, each with its station. -/
def flying (s : Sessions) : List (Callsign × List AircFrame) :=
  s.peers.entries.filterMap fun e => e.2.pending.map fun pd => (e.1, pd.frames)

theorem mem_flying {s : Sessions} {c : Callsign} {frames : List AircFrame} :
    (c, frames) ∈ flying s ↔ (s.record c).pending.map Pending.frames = some frames := by
  rw [flying, List.mem_filterMap, Sessions.record, Sessions.peer]
  constructor
  · rintro ⟨⟨d, p⟩, he, h⟩
    obtain ⟨pd, hpd, heq⟩ := Option.map_eq_some_iff.mp h
    obtain ⟨rfl, rfl⟩ := Prod.mk.inj heq
    rw [Table.mem_entries_iff.mp he, Option.getD_some, hpd]
    rfl
  · intro h
    cases hp : s.peers.get c with
    | none => simp [hp, Peer.new] at h
    | some p =>
      rw [hp, Option.getD_some] at h
      obtain ⟨pd, hpd, rfl⟩ := Option.map_eq_some_iff.mp h
      exact ⟨(c, p), Table.mem_entries_iff.mpr hp, by simp [hpd]⟩

/-- A keyed frame that has the number of the message in flight to its station is a part of it. -/
def KeysItsOwn (s : Sessions) (item : Queued Ax25Frame) : Prop :=
  ∀ m ∈ flying s, m.1 = item.payload.destination.call →
    m.2.head?.map AircFrame.seq = aircSeq item.payload.info → Carries m.1 m.2 item

/-- No report is unread that has the number of a message that is put in flight. -/
def StartsUnreported (g : Gateway) (t : Sessions) : Prop :=
  ∀ m ∈ flying t, m ∉ flying g.radio.sessions → ¬ Reported g.keyed m.1 m.2

/-- The step brings no two messages for a station under one number together. -/
def ToldApart (s : Traced) : RadioGateway.Event → Prop
  | .unicast dst kind payload reliable _ _ now =>
    StartsUnreported s.gateway (s.gateway.radio.sessions.enqueue dst kind payload reliable now).1
  | .receive src frame now forUs =>
    StartsUnreported s.gateway (s.gateway.radio.sessions.onReceive src frame now forUs).1
  | .tickSessions now =>
    StartsUnreported s.gateway (s.gateway.radio.sessions.tickRetries now
      (s.gateway.available && !s.gateway.interlockDown)).1
  | .pump (.step written) =>
    match s.gateway.pump.phase with
    | .cleared _ item =>
      written = true → s.gateway.pump.shared.interlockFailed = false →
        s.gateway.keyed.length < keyedCapacity → KeysItsOwn s.gateway.radio.sessions item
    | _ => True
  | _ => True

instance (s : Sessions) (item : Queued Ax25Frame) : Decidable (KeysItsOwn s item) :=
  inferInstanceAs (Decidable (∀ m ∈ flying s, _))

instance (g : Gateway) (t : Sessions) : Decidable (StartsUnreported g t) :=
  inferInstanceAs (Decidable (∀ m ∈ flying t, _))

instance (s : Traced) (e : RadioGateway.Event) : Decidable (ToldApart s e) := by
  induction e using RadioGateway.Event.casesOn with
  | pump e =>
    induction e using TransmitPump.Event.casesOn with
    | step written =>
      dsimp only [ToldApart]
      induction s.gateway.pump.phase using Phase.casesOn <;> dsimp only <;> infer_instance
    | _ =>
      dsimp only [ToldApart]
      infer_instance
  | _ =>
    dsimp only [ToldApart]
    infer_instance

/-! ### One step -/

theorem keyedFrom_reports (fates : List Fate) :
    (keyedFrom fates).map Prod.fst = Gateway.reports fates := by
  rw [keyedFrom, Gateway.reports, List.map_filterMap]
  apply List.filterMap_congr
  intro fate _
  cases fate with
  | keyed item => cases hseq : aircSeq item.payload.info <;> simp [hseq]
  | dropped item why => rfl

theorem mem_keyedFrom {fates : List Fate} {k : Keyed} {item : Queued Ax25Frame}
    (h : (k, item) ∈ keyedFrom fates) :
    .keyed item ∈ fates ∧ k.dest = item.payload.destination.call ∧
      aircSeq item.payload.info = some k.seq := by
  obtain ⟨fate, hfate, h⟩ := List.mem_filterMap.mp h
  cases fate with
  | keyed x =>
    obtain ⟨seq, hseq, heq⟩ := Option.map_eq_some_iff.mp h
    obtain ⟨rfl, rfl⟩ := Prod.mk.inj heq
    exact ⟨hfate, rfl, hseq⟩
  | dropped x why => cases h

/-- The message in flight stays when the report of a frame is read. -/
theorem onKeyed_flying (s : Sessions) (k : Keyed) (now : ℕ) (c : Callsign) :
    ((s.onKeyed k.dest k.seq now).record c).pending.map Pending.frames =
      (s.record c).pending.map Pending.frames := by
  rw [Sessions.record, Sessions.onKeyed_peer, Sessions.record]
  split_ifs
  · cases s.peer c with
    | none => rfl
    | some p =>
      change (p.onKeyed s.config k.seq now).pending.map Pending.frames = p.pending.map Pending.frames
      unfold Peer.onKeyed
      cases hp : p.pending with
      | none => rw [hp]
      | some pd =>
        simp only
        split_ifs
        · rw [hp]
        · rfl
  · rfl

theorem read_flying (reports : List (Keyed × Queued Ax25Frame)) (s : Sessions) (now : ℕ)
    (c : Callsign) :
    ((reports.foldl (fun s e => s.onKeyed e.1.dest e.1.seq now) s).record c).pending.map
      Pending.frames = (s.record c).pending.map Pending.frames := by
  induction reports generalizing s with
  | nil => rfl
  | cons e reports ih => rw [List.foldl_cons, ih, onKeyed_flying]

/-- A report changes nothing, or it names the message in flight to its station. -/
theorem onKeyed_cases (s : Sessions) (k : Keyed) (now : ℕ) :
    (∀ c, (s.onKeyed k.dest k.seq now).peer c = s.peer c) ∨
    ∃ pd, (s.record k.dest).pending = some pd ∧ pd.seq? = some k.seq := by
  by_cases hnamed : ∃ pd, (s.record k.dest).pending = some pd ∧ pd.seq? = some k.seq
  · exact .inr hnamed
  left
  intro c
  rw [Sessions.onKeyed_peer]
  split_ifs with hc
  · subst hc
    cases hp : s.peer k.dest with
    | none => rfl
    | some p =>
      have hsame : p.onKeyed s.config k.seq now = p := by
        unfold Peer.onKeyed
        cases hpd : p.pending with
        | none => rfl
        | some pd =>
          simp only
          rw [if_pos]
          intro hseq
          exact hnamed ⟨pd, by rw [Sessions.record, hp]; exact hpd, hseq⟩
      rw [Option.map_some, hsame]
  · rfl

/-- No message is new. -/
def NoneNew (s t : Sessions) : Prop :=
  ∀ c, ∀ frames ∈ (t.record c).outbox, frames ∈ (s.record c).outbox

theorem noneNew_blank {s t : Sessions} {c : Callsign} (h : t.peer c = none) :
    ∀ frames ∈ (t.record c).outbox, frames ∈ (s.record c).outbox := by
  intro frames hf
  rw [Sessions.record, h] at hf
  exact absurd hf List.not_mem_nil

theorem store_noneNew (s : Sessions) {call : Callsign} {p : Peer}
    (h : ∀ frames ∈ p.outbox, frames ∈ (s.record call).outbox) : NoneNew s (s.store call p) := by
  intro c frames hf
  by_cases hc : c = call
  · subst hc
    rw [Sessions.record_store_self] at hf
    exact h frames hf
  · rwa [Sessions.record_store_ne _ hc] at hf

theorem touched_outbox {s : Sessions} {call : Callsign} {now : ℕ} {p : Peer}
    (h : s.touched call now = some p) : p.outbox = (s.record call).outbox :=
  (Sessions.touched_same h).2.1.outbox

theorem onReceive_noneNew (s : Sessions) (src : Callsign) (f : AircFrame) (now : ℕ)
    (addressedToUs : Bool) : NoneNew s (s.onReceive src f now addressedToUs).1 := by
  obtain ⟨-, hr⟩ | ⟨p, ht, hr⟩ := s.onReceive_cases src f now addressedToUs
  · rw [hr]
    exact fun _ _ hf => hf
  · rw [hr]
    apply store_noneNew
    intro frames hf
    rw [← touched_outbox ht]
    exact (receive_outbox s.config p f now addressedToUs).1 frames hf

theorem tickRetries_noneNew (s : Sessions) (now : ℕ) (retry : Bool) :
    NoneNew s (s.tickRetries now retry).1 := by
  intro c frames hf
  cases hq : (s.tickRetries now retry).1.peer c with
  | none => exact noneNew_blank hq frames hf
  | some q =>
    obtain ⟨p, hp, hticked⟩ := Option.bind_eq_some_iff.mp ((s.tickRetries_peer now retry c) ▸ hq)
    rw [Sessions.record, hq] at hf
    rw [Sessions.record, hp]
    exact (ticked_after hticked).advances.outbox frames hf

theorem drainAcks_noneNew (s : Sessions) : NoneNew s s.drainAcks.1 := by
  intro c frames hf
  rw [Sessions.record, Sessions.drainAcks_peer] at hf
  rw [Sessions.record]
  cases hp : s.peer c with
  | none => rwa [hp] at hf
  | some p => rwa [hp] at hf

theorem forget_noneNew (s : Sessions) (call : Callsign) : NoneNew s (s.forget call) := by
  intro c frames hf
  by_cases hc : c = call
  · refine noneNew_blank ?_ frames hf
    rw [Sessions.forget, Sessions.peer, Table.get_erase, if_pos hc]
  · rwa [Sessions.record, Sessions.forget, Sessions.peer, Table.get_erase, if_neg hc] at hf

theorem onKeyed_noneNew (s : Sessions) (k : Keyed) (now : ℕ) :
    NoneNew s (s.onKeyed k.dest k.seq now) := by
  intro c frames hf
  rw [Sessions.record, Sessions.onKeyed_peer] at hf
  rw [Sessions.record]
  split_ifs at hf
  · cases hp : s.peer c with
    | none => rwa [hp] at hf
    | some p =>
      rw [hp] at hf
      exact (onKeyed_advances s.config p k.seq now).outbox frames hf
  · exact hf

theorem read_noneNew (keyed : List Keyed) (s : Sessions) (now : ℕ) :
    NoneNew s (keyed.foldl (fun s k => s.onKeyed k.dest k.seq now) s) := by
  induction keyed generalizing s with
  | nil => exact fun _ _ hf => hf
  | cons k keyed ih => exact fun c frames hf => onKeyed_noneNew s k now c frames (ih _ c frames hf)

/-- A message that is taken in is of the kind asked for. -/
theorem enqueue_kind (s : Sessions) (dst : Callsign) (kind : Kind) (payload : List UInt8)
    (reliable : Bool) (now : ℕ) (c : Callsign) :
    ∀ frames ∈ ((s.enqueue dst kind payload reliable now).1.record c).outbox,
      frames ∈ (s.record c).outbox ∨ ∀ f ∈ frames, f.kind = kind := by
  have hkind : ∀ parts, ∀ f ∈ fragments kind s.nextSeq reliable parts, f.kind = kind := by
    intro parts f hf
    obtain ⟨i, hi, rfl⟩ := List.mem_mapIdx.mp hf
    rfl
  obtain ⟨t, -, hpeers, hr⟩ := s.enqueue_cases dst kind payload reliable now
  have hkept : NoneNew s t := by
    intro c frames hf
    rcases hpeers c with hc | ⟨-, hc⟩
    · rwa [Sessions.record_of_peer hc] at hf
    · exact noneNew_blank hc frames hf
  rcases hr with hr | ⟨p, -, hout, hr⟩
  · rw [hr]
    exact fun frames hf => .inl (hkept c frames hf)
  rw [hr]
  intro frames hf
  by_cases hc : c = dst
  · subst hc
    rw [Sessions.record_store_self] at hf
    rw [← hout.outbox]
    obtain ⟨q, hr, -, hsame⟩ |
        ⟨-, ⟨-, hr⟩ | ⟨-, -, -, hr⟩ | ⟨-, hp, hr⟩ | ⟨acked, -, hp, -, hr⟩⟩ :=
      enqueue_cases s.config p s.nextSeq kind payload reliable
    · rw [hr, hsame.outbox] at hf
      exact .inl hf
    · rw [hr] at hf
      exact .inl hf
    · rw [hr] at hf
      simp only [Peer.outbox, List.mem_append, List.mem_singleton] at hf
      rcases hf with hf | hf | rfl
      · exact .inl (List.mem_append_left _ hf)
      · exact .inl (List.mem_append_right _ hf)
      · exact .inr (hkind _)
    all_goals
      rw [hr] at hf
      rcases List.mem_cons.mp hf with rfl | hf
      · exact .inr (hkind _)
      · exact .inl (List.mem_append_right _ hf)
  · rw [Sessions.record_store_ne _ hc] at hf
    exact .inl (hkept c frames hf)

/-! ### The invariant -/

/-- The unread reports of a number in flight were made of its frames. -/
structure Told (s : Traced) : Prop where
  reports : s.unread.map Prod.fst = s.gateway.keyed
  own : ∀ e ∈ s.unread, ∀ frames, (e.1.dest, frames) ∈ flying s.gateway.radio.sessions →
    frames.head?.map AircFrame.seq = some e.1.seq → Carries e.1.dest frames e.2
  messages : ∀ c, ∀ frames ∈ (s.gateway.radio.sessions.record c).outbox, ∀ f ∈ frames,
    f.kind ≠ .ack

variable {s : Traced}

theorem Told.moves (h : Told s) {g : Gateway} (hkeyed : g.keyed = s.gateway.keyed)
    (hstarts : StartsUnreported s.gateway g.radio.sessions)
    (hmessages : ∀ c, ∀ frames ∈ (g.radio.sessions.record c).outbox, ∀ f ∈ frames,
      f.kind ≠ .ack) : Told ⟨g, s.unread⟩ where
  reports := h.reports.trans hkeyed.symm
  own e he frames hflying hseq := by
    by_cases hold : (e.1.dest, frames) ∈ flying s.gateway.radio.sessions
    · exact h.own e he frames hold hseq
    · have hread : e.1 ∈ s.gateway.keyed := h.reports ▸ List.mem_map_of_mem he
      exact absurd ⟨e.1, hread, rfl, hseq⟩ (hstarts _ hflying hold)
  messages := hmessages

/-- The messages in flight stay as they are, or go. -/
theorem starts_none {g : Gateway} {t : Sessions}
    (h : ∀ c, (t.record c).pending = none ∨
      (t.record c).pending = (g.radio.sessions.record c).pending) : StartsUnreported g t := by
  rintro ⟨c, frames⟩ hm hnew
  rw [mem_flying] at hm hnew
  rcases h c with hc | hc
  · rw [hc] at hm
    cases hm
  · rw [hc] at hm
    exact absurd hm hnew

/-- No message is put in flight, and none taken in. -/
theorem Told.quiet (h : Told s) {g : Gateway} (hkeyed : g.keyed = s.gateway.keyed)
    (hpending : ∀ c, (g.radio.sessions.record c).pending = none ∨
      (g.radio.sessions.record c).pending = (s.gateway.radio.sessions.record c).pending)
    (hnone : NoneNew s.gateway.radio.sessions g.radio.sessions) : Told ⟨g, s.unread⟩ :=
  h.moves hkeyed (starts_none hpending) fun c frames hf => h.messages c frames (hnone c frames hf)

theorem Told.samePeers (h : Told s) {g : Gateway} (hkeyed : g.keyed = s.gateway.keyed)
    (hpeers : g.radio.sessions.peers = s.gateway.radio.sessions.peers) : Told ⟨g, s.unread⟩ := by
  have hrecord : ∀ c, g.radio.sessions.record c = s.gateway.radio.sessions.record c := by
    intro c
    simp only [Sessions.record, Sessions.peer, hpeers]
  refine h.quiet hkeyed (fun c => .inr (by rw [hrecord])) fun c frames hf => ?_
  rwa [hrecord] at hf

theorem Told.queuing (h : Told s) {g : Gateway} (hq : Queuing s.gateway g) : Told ⟨g, s.unread⟩ := by
  obtain ⟨added, hq⟩ := hq
  exact h.samePeers hq.keyed hq.sessions.peers

theorem Told.identifies (h : Told s) {g : Gateway}
    (hi : Gateway.Identifies s.gateway g ∨ Queues 0 s.gateway g) : Told ⟨g, s.unread⟩ := by
  rcases hi with hi | hq
  · exact h.samePeers hi.keyed hi.sessions.peers
  · exact h.queuing ⟨0, hq⟩

/-- A step of the session layer whose frames are handed over. -/
theorem Told.transmits (h : Told s) {t : Sessions} (hstarts : StartsUnreported s.gateway t)
    (hmessages : ∀ c, ∀ frames ∈ (t.record c).outbox, ∀ f ∈ frames, f.kind ≠ .ack)
    (cls : TxClass) (out : List (Callsign × AircFrame)) :
    Told ⟨(s.gateway.withSessions t).transmitAll cls out, s.unread⟩ := by
  have hmoved : Told ⟨s.gateway.withSessions t, s.unread⟩ := h.moves rfl hstarts hmessages
  exact hmoved.queuing (Gateway.transmitAll_queuing _ cls out)

theorem noteAirc_same (s : Sessions) (dst c : Callsign) :
    SameOutbox (s.record c) ((Gateway.noteAirc s dst).record c) := by
  unfold Gateway.noteAirc
  cases hp : s.peer dst with
  | none => exact ⟨rfl, rfl⟩
  | some p =>
    by_cases hc : c = dst
    · subst hc
      rw [show s.record c = p by rw [Sessions.record, hp, Option.getD_some]]
      simp only [Sessions.record_store_self]
      exact ⟨rfl, rfl⟩
    · simp only [Sessions.record_store_ne _ hc]
      exact ⟨rfl, rfl⟩

theorem told_unicast (h : Told s) (dst : Callsign) {kind : Kind} (payload : List UInt8)
    (reliable : Bool) (cls : TxClass) (flags : UInt8) (now : ℕ) (hk : kind ≠ .ack)
    (hg : StartsUnreported s.gateway
      (s.gateway.radio.sessions.enqueue dst kind payload reliable now).1) :
    Told ⟨(s.gateway.unicastFlagged dst kind payload reliable cls flags now).2, s.unread⟩ := by
  have hmessages : ∀ c, ∀ frames ∈
      ((s.gateway.radio.sessions.enqueue dst kind payload reliable now).1.record c).outbox,
      ∀ f ∈ frames, f.kind ≠ .ack := by
    intro c frames hf
    rcases enqueue_kind s.gateway.radio.sessions dst kind payload reliable now c frames hf with
      hold | hnew
    · exact h.messages c frames hold
    · exact fun f hf => hnew f hf ▸ hk
  rcases s.gateway.unicastFlagged_cases dst kind payload reliable cls flags now with
    ⟨g', hr, hsame⟩ | ⟨-, -, -, -, ⟨-, hr⟩ | ⟨-, hr⟩⟩
  · rw [hr]
    exact h.queuing hsame.queuing
  · rw [hr]
    exact h.moves rfl hg hmessages
  · rw [hr]
    generalize (s.gateway.radio.sessions.enqueue dst kind payload reliable now).1 = t at hg hmessages
    apply h.transmits
    · rintro ⟨c, frames⟩ hm hnew
      rw [mem_flying, (noteAirc_same t dst c).pending, ← mem_flying] at hm
      exact hg _ hm hnew
    · intro c frames hf
      rw [(noteAirc_same t dst c).outbox] at hf
      exact hmessages c frames hf

theorem told_pump (h : Told s) {e : TransmitPump.Event} (hg : ToldApart s (.pump e)) :
    Told (s.next (.pump e)) := by
  have hlength : s.unread.length = s.gateway.keyed.length := by
    rw [← h.reports, List.length_map]
  refine ⟨?_, ?_, h.messages⟩
  · change (s.unread ++ _).map Prod.fst = s.gateway.keyed ++
      (Gateway.reports (s.gateway.pump.next e).2).take (keyedCapacity - s.gateway.keyed.length)
    rw [List.map_append, h.reports, List.map_take, keyedFrom_reports, hlength]
  · rintro ⟨k, item⟩ he frames hflying hseq
    rcases List.mem_append.mp he with he | he
    · exact h.own _ he frames hflying hseq
    -- the frame was keyed just now, and its report is not lost
    have hroom : s.gateway.keyed.length < keyedCapacity := by
      have hpos := List.length_pos_of_mem he
      rw [List.length_take] at hpos
      omega
    obtain ⟨hkeyed, hdest, haddr⟩ := mem_keyedFrom (List.mem_of_mem_take he)
    rcases next_fates s.gateway.pump e with hf | ⟨now, x, hp, rfl, hi, hf⟩ |
      ⟨now, x, why, written, hp, rfl, -, hf⟩ | ⟨written, hp, rfl, -, hf⟩ |
      ⟨now, written, hp, rfl, hf⟩
    · simp [hf] at hkeyed
    · rw [hf, List.mem_singleton] at hkeyed
      obtain rfl := Fate.keyed.inj hkeyed
      simp only [ToldApart, hp] at hg
      rw [hdest] at hflying ⊢
      exact hg trivial hi hroom _ hflying rfl (hseq.trans haddr.symm)
    · simp [hf] at hkeyed
    · simp [hf] at hkeyed
    · simp [hf] at hkeyed

theorem told_next (h : Told s) {e : RadioGateway.Event} (hg : ToldApart s e)
    (he : RadioGateway.Enabled s.gateway e) : Told (s.next e) := by
  have hkept : ∀ t, NoneNew s.gateway.radio.sessions t →
      ∀ c, ∀ frames ∈ (t.record c).outbox, ∀ f ∈ frames, f.kind ≠ .ack :=
    fun t hnone c frames hf => h.messages c frames (hnone c frames hf)
  cases e with
  | broadcast kind payload cls flags =>
    exact h.queuing (s.gateway.broadcastFlagged_queuing kind payload cls flags)
  | unicast dst kind payload reliable cls flags now =>
    exact told_unicast h dst payload reliable cls flags now he hg
  | transmitUi dest info cls account =>
    exact h.queuing (s.gateway.enqueueUi_queuing dest info cls false _)
  | aprsChat dst text cls now => exact h.queuing (s.gateway.enqueueAprsChat_queuing dst text cls now)
  | receive src frame now forUs =>
    exact h.transmits hg (hkept _ (onReceive_noneNew _ src frame now forUs)) _ _
  | drainAcks =>
    have hstarts : StartsUnreported s.gateway s.gateway.radio.sessions.drainAcks.1 := by
      apply starts_none
      intro c
      rw [Sessions.record, Sessions.drainAcks_peer, Sessions.record]
      cases s.gateway.radio.sessions.peer c <;> exact .inr rfl
    exact h.transmits hstarts (hkept _ (drainAcks_noneNew _)) _ _
  | aprsHeard src now =>
    change Told ⟨s.gateway.aprsHeard src now, s.unread⟩
    unfold Gateway.aprsHeard
    cases ht : s.gateway.radio.sessions.touched src now with
    | none => exact h
    | some p =>
      have hsame : SameOutbox (s.gateway.radio.sessions.record src) p.noteAprs := by
        have := (Sessions.touched_same ht).2.1
        unfold Peer.noteAprs
        split_ifs
        · exact this
        · exact ⟨this.pending, this.queue⟩
      refine h.quiet rfl (fun c => .inr ?_) (store_noneNew _ fun frames hf => hsame.outbox ▸ hf)
      by_cases hc : c = src
      · subst hc
        exact (congrArg Peer.pending (Sessions.record_store_self ..)).trans hsame.pending
      · exact congrArg Peer.pending (Sessions.record_store_ne _ hc _)
  | aprsAck src id now => exact h.queuing (s.gateway.onAprsAck_queuing src id now)
  | forget call =>
    have hgone : ∀ c, ((s.gateway.radio.sessions.forget call).record c).pending = none ∨
        ((s.gateway.radio.sessions.forget call).record c).pending =
          (s.gateway.radio.sessions.record c).pending := by
      intro c
      rw [Sessions.record, Sessions.peer, Sessions.forget, Table.get_erase]
      split_ifs
      · exact .inl rfl
      · exact .inr rfl
    exact h.quiet rfl hgone (forget_noneNew _ call)
  | drainKeyed now =>
    exact ⟨rfl, fun _ he => absurd he List.not_mem_nil, hkept _ (read_noneNew _ _ now)⟩
  | tickSessions now => exact h.transmits hg (hkept _ (tickRetries_noneNew _ now _)) _ _
  | tickAprs now => exact h.queuing (s.gateway.tickAprs_queuing now)
  | maybeIdentify now => exact h.identifies (s.gateway.maybeIdentify_cases now)
  | idIfNeeded now => exact h.identifies (s.gateway.idIfNeeded_cases now)
  | identifyNow now => exact h.identifies (s.gateway.identifyNow_cases now)
  | radioOff now => exact h.identifies (s.gateway.radioOff_cases now)
  | radioOn => exact h.queuing ⟨0, s.gateway.radioOn_queues⟩
  | pump e => exact told_pump h hg

theorem told_initial (cfg : RadioConfig) (tnc : TncConfig) : Told ⟨.new cfg tnc, []⟩ where
  reports := rfl
  own _ he := absurd he List.not_mem_nil
  messages _ _ hf := absurd hf List.not_mem_nil

/-- A report that is read, after others, changes nothing, or it sets the timer of the message in
flight that its frame is a part of; and that frame is no acknowledgement. -/
theorem report_sets_own_timer (cfg : RadioConfig) (tnc : TncConfig) {s : Traced}
    (h : Reachable (system cfg tnc) ToldApart s) {before after : List (Keyed × Queued Ax25Frame)}
    {k : Keyed} {item : Queued Ax25Frame} (hread : s.unread = before ++ (k, item) :: after)
    (now : ℕ) :
    let t := before.foldl (fun t e => t.onKeyed e.1.dest e.1.seq now) s.gateway.radio.sessions
    (∀ c, (t.onKeyed k.dest k.seq now).peer c = t.peer c) ∨
    ∃ pd, (t.record k.dest).pending = some pd ∧ Carries k.dest pd.frames item ∧
      ∀ f, AircFrame.decode item.payload.info = .ok f → f.kind ≠ .ack := by
  intro t
  have htold : Told s := by
    refine (Inductive.ofNext ?_ ?_).reachable h
    · rintro s rfl
      exact told_initial cfg tnc
    · intro s e hs hg he
      exact told_next hs hg he
  rcases onKeyed_cases t k now with hsame | ⟨pd, hpd, hseq⟩
  · exact .inl hsame
  have hflying : (k.dest, pd.frames) ∈ flying s.gateway.radio.sessions := by
    rw [mem_flying, ← read_flying before s.gateway.radio.sessions now, hpd]
    rfl
  have hcarries := htold.own (k, item) (by rw [hread]; simp) pd.frames hflying hseq
  refine .inr ⟨pd, hpd, hcarries, ?_⟩
  intro f hf
  have hparts := hcarries.2
  rw [hf] at hparts
  obtain ⟨g, hg, hcopy⟩ := hparts
  rw [hcopy.kind]
  rw [mem_flying] at hflying
  obtain ⟨pd', hpd', hframes⟩ := Option.map_eq_some_iff.mp hflying
  refine htold.messages k.dest pd'.frames ?_ g (hframes ▸ hg)
  simp [Peer.outbox, hpd']

/-! ### Two runs of one private message -/

open Identification (gatewayConfig turn)

/-- The frame of the message is keyed. -/
def keyedOnce : Traced := (privateText :: turn).foldl Traced.next ⟨.new gatewayConfig .default, []⟩

theorem report_sets_own_timer_keyedOnce :
    ∃ k item pd, keyedOnce.unread = [(k, item)] ∧
      (keyedOnce.gateway.radio.sessions.record k.dest).pending = some pd ∧
      Carries k.dest pd.frames item ∧
      ∀ f, AircFrame.decode item.payload.info = .ok f → f.kind ≠ .ack := by
  have h : Reachable (system gatewayConfig .default) ToldApart keyedOnce :=
    (Reachable.initial rfl).run (by decide +kernel)
  have hreports : keyedOnce.unread.map Prod.fst = [⟨caller, 1⟩] := by decide +kernel
  obtain ⟨⟨k, item⟩, hread, rfl⟩ := List.map_eq_singleton_iff.mp hreports
  have hset : (keyedOnce.gateway.radio.sessions.onKeyed caller 1 0).peer caller |>.any
      (·.pending.any (·.nextRetry.isSome)) := by decide +kernel
  have hunset : ((keyedOnce.gateway.radio.sessions.peer caller).any
      (·.pending.any (·.nextRetry.isSome))) = false := by decide +kernel
  have hsplit : keyedOnce.unread = [] ++ (⟨caller, 1⟩, item) :: [] := hread
  rcases report_sets_own_timer gatewayConfig .default h hsplit 0 with
    hsame | ⟨pd, hpd, hcarries, hkind⟩
  · rw [List.foldl_nil] at hsame
    rw [hsame caller, hunset] at hset
    cases hset
  · exact ⟨⟨caller, 1⟩, item, pd, hread, hpd, hcarries, hkind⟩

/-- A message of the station's own, under the number of the one that is in flight to it. -/
def theirs : AircFrame := (AircFrame.new .msg 1 [109, 31, 104, 111]).withFlags Flags.ackReq

/-- The acknowledgement overtakes the message, and is keyed first. -/
def crossed : Traced :=
  ([privateText, .receive caller theirs 0 true, .drainAcks] ++ turn).foldl Traced.next
    ⟨.new gatewayConfig .default, []⟩

theorem ack_starts_timer :
    ∃ s : Traced, Reachable (system gatewayConfig .default) (fun _ _ => True) s ∧
    ∃ k item pd pd', s.unread = [(k, item)] ∧
      AircFrame.decode item.payload.info = .ok (ackFor 1) ∧
      (s.gateway.radio.sessions.record k.dest).pending = some pd ∧ pd.nextRetry = none ∧
      ((s.gateway.next (.drainKeyed 0)).radio.sessions.record k.dest).pending = some pd' ∧
      pd'.nextRetry = some SessionConfig.default.ackTimeout ∧ ¬ Carries k.dest pd.frames item := by
  have h : Reachable (system gatewayConfig .default) (fun _ _ => True) crossed :=
    (Reachable.initial rfl).run (by decide +kernel)
  refine ⟨crossed, h, ?_⟩
  have hreports : crossed.unread.map Prod.fst = [⟨caller, 1⟩] := by decide +kernel
  have hack : crossed.unread.all fun e =>
      AircFrame.decode e.2.payload.info = .ok (ackFor 1) := by decide +kernel
  have hunset : ((crossed.gateway.radio.sessions.record caller).pending.any fun pd =>
      decide (pd.nextRetry = none) && crossed.unread.all fun e =>
        !decide (Carries caller pd.frames e.2)) = true := by decide +kernel
  have hset : (((crossed.gateway.next (.drainKeyed 0)).radio.sessions.record caller).pending.any
      fun pd => decide (pd.nextRetry = some SessionConfig.default.ackTimeout)) = true := by
    decide +kernel
  obtain ⟨⟨k, item⟩, hread, rfl⟩ := List.map_eq_singleton_iff.mp hreports
  obtain ⟨pd, hpd, hunset⟩ := (Option.any_eq_true _ _).mp hunset
  obtain ⟨pd', hpd', hset⟩ := (Option.any_eq_true _ _).mp hset
  simp only [hread, List.all_cons, List.all_nil, Bool.and_true, Bool.and_eq_true, decide_eq_true_eq,
    Bool.not_eq_true', decide_eq_false_iff_not] at hack hunset hset
  exact ⟨⟨caller, 1⟩, item, pd, pd', hread, hack, hpd, hunset.1, hpd', hset, hunset.2⟩

end KeyedReports
