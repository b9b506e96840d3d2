import Rfircd.AtMostOnce
import Rfircd.Incarnations

/-! What the table of stations looks like, whatever was received, sent and timed out. -/
namespace SessionTable

open Basics Airc AircSession KeyedTable TransitionSystem RecentWindow

/-! ### Operations -/

/-- A station is heard that said nothing of the protocol. -/
def touch (s : Sessions) (call : Callsign) (now : ℕ) : Sessions :=
  match s.touched call now with
  | some p => s.store call p
  | none => s

def forceTouch (s : Sessions) (call : Callsign) (now : ℕ) : Sessions :=
  if s.config.maxPeers = 0 then s else touch (s.evictPeer call) call now

def markKicked (s : Sessions) (call : Callsign) (channel : String) : Sessions :=
  match s.peer call with
  | some p => s.store call (p.markKicked channel)
  | none => s

inductive Operation where
  | touch (call : Callsign) (now : ℕ)
  | forceTouch (call : Callsign) (now : ℕ)
  | receive (src : Callsign) (f : AircFrame) (now : ℕ) (addressedToUs : Bool)
  | enqueue (dst : Callsign) (kind : Kind) (payload : List UInt8) (reliable : Bool) (now : ℕ)
  | tick (now : ℕ) (retry : Bool)
  | keyed (dest : Callsign) (seq : UInt16) (now : ℕ)
  | drainAcks
  | forget (call : Callsign)
  | markKicked (call : Callsign) (channel : String)
  | nextSeq

def apply (s : Sessions) : Operation → Sessions
  | .touch call now => touch s call now
  | .forceTouch call now => forceTouch s call now
  | .receive src f now addressedToUs => (s.onReceive src f now addressedToUs).1
  | .enqueue dst kind payload reliable now => (s.enqueue dst kind payload reliable now).1
  | .tick now retry => (s.tickRetries now retry).1
  | .keyed dest seq now => s.onKeyed dest seq now
  | .drainAcks => s.drainAcks.1
  | .forget call => s.forget call
  | .markKicked call channel => markKicked s call channel
  | .nextSeq => s.drawSeq.2

/-- A frame that was read has a part number below its number of parts. -/
def Enabled (_ : Sessions) : Operation → Prop
  | .receive _ f _ _ => 1 ≤ f.fragTotal ∧ f.fragIndex < f.fragTotal
  | _ => True

def system (cfg : SessionConfig) : System Sessions Operation :=
  .ofNext (· = Sessions.new cfg) Enabled apply

theorem enabled_of_decode {s : Sessions} {src : Callsign} {octets : List UInt8} {f : AircFrame}
    {now : ℕ} {addressedToUs : Bool} (h : AircFrame.decode octets = .ok f) :
    Enabled s (.receive src f now addressedToUs) := by
  have hrange : ∀ index total : UInt8, ¬ (total = 0 ∨ total ≤ index) → 1 ≤ total ∧ index < total := by
    intro index total hne
    rw [not_or, UInt8.not_le] at hne
    refine ⟨UInt8.le_iff_toNat_le.mpr ?_, hne.2⟩
    have := UInt8.lt_iff_toNat_lt.mp hne.2
    change 1 ≤ total.toNat
    omega
  unfold AircFrame.decode at h
  split at h
  · rename_i hi lo index total payload
    split_ifs at h with hmagic hfrag hpiggy
    · split at h
      · rename_i kind _ _ _ _ _
        cases hkind : Kind.tryFrom kind with
        | error e => simp [hkind, bind, Except.bind] at h
        | ok k =>
          simp only [hkind, bind, Except.bind, pure, Except.pure, Except.ok.injEq] at h
          rw [← h]
          exact hrange _ _ hfrag
      · cases h
    · rename_i kind _
      cases hkind : Kind.tryFrom kind with
      | error e => simp [hkind, bind, Except.bind] at h
      | ok k =>
        simp only [hkind, bind, Except.bind, pure, Except.pure, Except.ok.injEq] at h
        rw [← h]
        exact hrange _ _ hfrag
  · cases h

/-! ### The invariant -/

/-- The frames of one message: its parts, all of them, in turn. -/
structure InParts (frames : List AircFrame) : Prop where
  ne_nil : frames ≠ []
  seq : ∃ seq, ∀ f ∈ frames, f.seq = seq
  kind : ∃ kind, ∀ f ∈ frames, f.kind = kind
  total : ∀ f ∈ frames, f.fragTotal.toNat = frames.length
  indices : frames.map (fun f => f.fragIndex.toNat) = List.range frames.length

/-- What is remembered of the messages of a station. -/
structure Inbox (cfg : SessionConfig) (p : Peer) : Prop where
  window : p.seen.length ≤ cfg.dedupWindow
  distinct : p.seen.Nodup
  buffers : p.reasm.size ≤ max 1 cfg.maxReasm
  missing : ∀ seq r, p.reasm.get seq = some r → none ∈ r.parts

/-- What is kept of the messages for a station. -/
structure Outbox (cfg : SessionConfig) (p : Peer) : Prop where
  depth : p.queue.length ≤ cfg.maxQueue
  behind : p.queue ≠ [] → p.pending.isSome
  message : ∀ frames ∈ p.outbox, InParts frames
  marks : ∀ pd, p.pending = some pd → pd.acked.length = pd.frames.length ∧ false ∈ pd.acked

structure Good (s : Sessions) : Prop where
  room : s.peers.size ≤ s.config.maxPeers
  inbox : ∀ call p, s.peer call = some p → Inbox s.config p
  outbox : ∀ call p, s.peer call = some p → Outbox s.config p

/-! ### Receiving -/

section

variable {cfg : SessionConfig} {p q : Peer}

theorem inbox_blank (now : ℕ) : Inbox cfg (Peer.new now) where
  window := Nat.zero_le _
  distinct := List.nodup_nil
  buffers := Nat.zero_le _
  missing seq r hr := by simp [Peer.new] at hr

theorem Inbox.same (h : Inbox cfg p) (hs : SameInbox p q) : Inbox cfg q where
  window := hs.seen ▸ h.window
  distinct := hs.seen ▸ h.distinct
  buffers := hs.reasm ▸ h.buffers
  missing := hs.reasm ▸ h.missing

theorem helloReset_inbox (h : Inbox cfg p) (f : AircFrame) : Inbox cfg (helloReset p.noteAirc f) := by
  unfold helloReset
  split_ifs
  · exact (inbox_blank 0).same ⟨rfl, rfl, rfl⟩
  · exact h.same ⟨rfl, rfl, rfl⟩

theorem size_evictReasm (p : Peer) (seq : UInt16) (maxReasm : ℕ) :
    (evictReasm p seq maxReasm).size ≤ p.reasm.size := by
  unfold evictReasm
  split_ifs
  · cases p.reasm.leastKey Reassembly.started with
    | none => exact le_rfl
    | some oldest => exact Table.size_filterMap_le _ _
  · exact le_rfl

/-- A new buffer takes the place of the oldest one when there is no room. -/
theorem size_set_evictReasm {seq : UInt16} {maxReasm : ℕ} (h : p.reasm.size ≤ max 1 maxReasm)
    (r : Reassembly) : ((evictReasm p seq maxReasm).set seq r).size ≤ max 1 maxReasm := by
  have hle := size_evictReasm p seq maxReasm
  rw [Table.size_set]
  split_ifs with hkey
  · omega
  by_cases hroom : seq ∉ p.reasm.keys ∧ maxReasm ≤ p.reasm.size
  · by_cases hne : p.reasm.entries = []
    · have hzero : p.reasm.size = 0 := by rw [Table.size, hne, List.length_nil]
      omega
    · obtain ⟨oldest, hmem, hleast⟩ := Table.leastKey_mem Reassembly.started hne
      have hsize := Table.size_erase hmem
      have hevict : evictReasm p seq maxReasm = p.reasm.erase oldest := by
        rw [evictReasm, if_pos hroom, hleast]
      rw [hevict]
      omega
  · have hevict : evictReasm p seq maxReasm = p.reasm := by rw [evictReasm, if_neg hroom]
    rw [hevict] at hkey
    have hfew : p.reasm.size < maxReasm := by
      by_contra hfull
      exact hroom ⟨hkey, Nat.le_of_not_lt hfull⟩
    omega

theorem missing_of_incomplete {r : Reassembly} (h : r.complete = false) : none ∈ r.parts := by
  rw [Reassembly.complete, List.all_eq_false] at h
  obtain ⟨part, hpart, hopen⟩ := h
  rw [Bool.not_eq_true, Option.isSome_eq_false_iff, Option.isNone_iff_eq_none] at hopen
  rwa [hopen] at hpart

/-- The buffers after a frame of a message: one more with a part missing, or one less. -/
theorem receiveMessage_buffers (h : Inbox cfg p) (f : AircFrame) (now : ℕ) (addressedToUs : Bool) :
    (receiveMessage cfg p f now addressedToUs).1.reasm.size ≤ max 1 cfg.maxReasm ∧
    ∀ seq r, (receiveMessage cfg p f now addressedToUs).1.reasm.get seq = some r →
      none ∈ r.parts := by
  have hbranch := Incarnations.receiveMessage_branch cfg p f now addressedToUs
  generalize (receiveMessage cfg p f now addressedToUs).1 = q at hbranch
  generalize (receiveMessage cfg p f now addressedToUs).2.1 = deliver at hbranch
  cases hbranch with
  | known _ _ _ _ hreasm _ _ => exact hreasm ▸ ⟨h.buffers, h.missing⟩
  | single _ _ _ _ hreasm _ => exact hreasm ▸ ⟨h.buffers, h.missing⟩
  | dropped _ _ => exact ⟨h.buffers, h.missing⟩
  | kept _ _ _ _ hopen _ hreasm _ =>
    rw [hreasm]
    refine ⟨size_set_evictReasm h.buffers _, ?_⟩
    intro seq r hr
    rw [Table.get_set] at hr
    split_ifs at hr with hseq
    · obtain rfl := Option.some.inj hr
      exact missing_of_incomplete hopen
    · exact h.missing seq r (get_evictReasm hr)
  | finished _ _ _ _ _ _ hreasm _ =>
    rw [hreasm]
    constructor
    · have hle := size_evictReasm p f.seq cfg.maxReasm
      have herase : ((evictReasm p f.seq cfg.maxReasm).erase f.seq).size ≤ _ :=
        Table.size_filterMap_le _ _
      have := h.buffers
      omega
    · intro seq r hr
      rw [Table.get_erase] at hr
      split_ifs at hr
      exact h.missing seq r (get_evictReasm hr)

theorem receive_inbox (h : Inbox cfg p) (f : AircFrame) (now : ℕ) (addressedToUs : Bool) :
    Inbox cfg (p.receive cfg f now addressedToUs).1 := by
  have hreset := helloReset_inbox h f
  have hpiggy : Inbox cfg (p.piggybacked f) := hreset.same (applyPiggyback_inbox _ f)
  by_cases hk : f.kind = .ack
  · rw [receive_of_ack hk]
    cases parseAckPayload f.payload with
    | none => exact hpiggy
    | some ack => exact hpiggy.same (applyAck_inbox _ ack.1 ack.2)
  · rw [receive_of_message hk]
    obtain ⟨hsize, hmissing⟩ := receiveMessage_buffers hpiggy f now addressedToUs
    refine ⟨?_, ?_, hsize, hmissing⟩
    all_goals
      rcases @AtMostOnce.receiveMessage_memory cfg (p.piggybacked f) f now addressedToUs hk with
        ⟨hseen, -⟩ | ⟨hseen, -⟩ | ⟨-, hnew, hseen, -⟩
      all_goals rw [hseen]
    · exact hpiggy.window
    · exact hpiggy.window
    · exact length_push_le hpiggy.window _
    · exact hpiggy.distinct
    · exact hpiggy.distinct
    · exact push_nodup hpiggy.distinct hnew

end

/-! ### Sending -/

theorem inParts_fragments (kind : Kind) (seq : UInt16) (reliable : Bool)
    {parts : List (List UInt8)} (hne : parts ≠ []) (hfew : parts.length ≤ 255) :
    InParts (fragments kind seq reliable parts) := by
  have hlen : (fragments kind seq reliable parts).length = parts.length := List.length_mapIdx
  refine ⟨?_, ⟨seq, ?_⟩, ⟨kind, ?_⟩, ?_, ?_⟩
  · intro h
    rw [h] at hlen
    exact hne (List.eq_nil_of_length_eq_zero hlen.symm)
  · intro f hf
    obtain ⟨i, hi, rfl⟩ := List.mem_mapIdx.mp hf
    rfl
  · intro f hf
    obtain ⟨i, hi, rfl⟩ := List.mem_mapIdx.mp hf
    rfl
  · intro f hf
    obtain ⟨i, hi, rfl⟩ := List.mem_mapIdx.mp hf
    rw [hlen]
    exact UInt8.toNat_ofNat_of_lt (show parts.length < 256 by omega)
  · apply List.ext_getElem
    · rw [List.length_map, List.length_range]
    · intro i hi _
      rw [List.length_map, hlen] at hi
      simp only [List.getElem_map, fragments, List.getElem_mapIdx, List.getElem_range]
      exact UInt8.toNat_ofNat_of_lt (show i < 256 by omega)

section

variable {cfg : SessionConfig} {p q : Peer}

theorem outbox_blank (now : ℕ) : Outbox cfg (Peer.new now) where
  depth := Nat.zero_le _
  behind h := absurd rfl h
  message frames hf := absurd hf List.not_mem_nil
  marks pd hp := by simp [Peer.new] at hp

theorem Outbox.same (h : Outbox cfg p) (hs : SameOutbox p q) : Outbox cfg q where
  depth := hs.queue ▸ h.depth
  behind := by
    rw [hs.queue, hs.pending]
    exact h.behind
  message := hs.outbox ▸ h.message
  marks := hs.pending ▸ h.marks

/-- A message that is started has no fragment acknowledged. -/
theorem startPending_outbox {frames : List AircFrame} (hdepth : p.queue.length ≤ cfg.maxQueue)
    (hqueue : ∀ l ∈ p.queue, InParts l) (hf : InParts frames) :
    Outbox cfg (startPending p frames).1 where
  depth := hdepth
  behind _ := rfl
  message l hl := by
    rcases List.mem_cons.mp hl with rfl | hl
    · exact hf
    · exact hqueue l hl
  marks pd hp := by
    obtain rfl := Option.some.inj hp
    obtain ⟨f, hmem⟩ := List.exists_mem_of_ne_nil frames hf.ne_nil
    exact ⟨List.length_map _, List.mem_map.mpr ⟨f, hmem, rfl⟩⟩

theorem Outbox.queued (h : Outbox cfg p) : ∀ frames ∈ p.queue, InParts frames :=
  fun frames hf => h.message frames (List.mem_append_right _ hf)

theorem releasePending_outbox (h : Outbox cfg p) : Outbox cfg (releasePending p).1 := by
  have hdepth := h.depth
  have hqueued := h.queued
  unfold releasePending
  cases hq : p.queue with
  | nil =>
    refine ⟨?_, ?_, ?_, ?_⟩
    · exact Nat.zero_le _
    · exact fun hne => absurd rfl hne
    · intro frames hf
      simp [Peer.outbox] at hf
    · intro pd hp
      simp at hp
  | cons next queue =>
    rw [hq] at hdepth hqueued
    apply startPending_outbox
    · exact Nat.le_of_succ_le hdepth
    · exact fun l hl => hqueued l (List.mem_cons_of_mem _ hl)
    · exact hqueued next List.mem_cons_self

theorem applyAck_outbox (h : Outbox cfg p) (seq : UInt16) (bitmap : Option (List UInt8)) :
    Outbox cfg (applyAck p seq bitmap).1 := by
  obtain ⟨hr, -⟩ | ⟨pd, bits, hp, -, rfl, hc, -, hr⟩ | ⟨pd, -, -, -, hr⟩ := applyAck_cases p seq bitmap
  · rw [hr]
    exact h
  · rw [hr]
    refine ⟨h.depth, fun _ => rfl, ?_, ?_⟩
    · intro frames hf
      exact h.message frames (by simpa [Peer.outbox, hp, Pending.mark] using hf)
    · intro pd' hpd'
      obtain rfl := Option.some.inj hpd'
      refine ⟨by simpa [Pending.mark] using (h.marks pd hp).1, ?_⟩
      change ((pd.mark bits).acked.all fun flag => flag) = false at hc
      obtain ⟨flag, hflag, hopen⟩ := List.all_eq_false.mp hc
      rwa [Bool.not_eq_true _ |>.mp hopen] at hflag
  · rw [hr]
    exact releasePending_outbox h

theorem helloReset_outbox (h : Outbox cfg p) (f : AircFrame) :
    Outbox cfg (helloReset p.noteAirc f) := by
  unfold helloReset
  split_ifs
  · exact (outbox_blank 0).same ⟨rfl, rfl⟩
  · exact h.same ⟨rfl, rfl⟩

theorem applyPiggyback_outbox (h : Outbox cfg p) (f : AircFrame) :
    Outbox cfg (applyPiggyback p f).1 := by
  unfold applyPiggyback
  cases f.piggybackSeq with
  | none => exact h
  | some seq => exact applyAck_outbox h seq none

theorem receive_outbox (h : Outbox cfg p) (f : AircFrame) (now : ℕ) (addressedToUs : Bool) :
    Outbox cfg (p.receive cfg f now addressedToUs).1 := by
  have hpiggy : Outbox cfg (p.piggybacked f) := applyPiggyback_outbox (helloReset_outbox h f) f
  by_cases hk : f.kind = .ack
  · rw [receive_of_ack hk]
    cases parseAckPayload f.payload with
    | none => exact hpiggy
    | some ack => exact applyAck_outbox hpiggy ack.1 ack.2
  · rw [receive_of_message hk]
    exact hpiggy.same (receiveMessage_outbox ..)

theorem enqueue_good (hin : Inbox cfg p) (hout : Outbox cfg p) (seq : UInt16) (kind : Kind)
    (payload : List UInt8) (reliable : Bool) :
    Inbox cfg (p.enqueue cfg seq kind payload reliable).1 ∧
    Outbox cfg (p.enqueue cfg seq kind payload reliable).1 := by
  have hparts := fun hfew => inParts_fragments kind seq reliable
    (chunkPayload_ne_nil payload cfg.maxPayload (takePiggyback cfg p reliable).1.isSome) hfew
  obtain ⟨q, hr, hsame, hsame'⟩ |
      ⟨hfew, ⟨-, hr⟩ | ⟨-, hp, hroom, hr⟩ | ⟨-, -, hr⟩ | ⟨acked, -, -, -, hr⟩⟩ :=
    enqueue_cases cfg p seq kind payload reliable
  · rw [hr]
    exact ⟨hin.same hsame, hout.same hsame'⟩
  · rw [hr]
    exact ⟨hin, hout⟩
  · rw [hr]
    refine ⟨hin.same ⟨rfl, rfl, rfl⟩, ?_, fun _ => hp, ?_, hout.marks⟩
    · rw [List.length_append, List.length_singleton]
      exact hroom
    · intro frames hf
      simp only [Peer.outbox, List.mem_append, List.mem_singleton] at hf
      rcases hf with hf | hf | rfl
      · exact hout.message frames (List.mem_append_left _ hf)
      · exact hout.queued frames hf
      · exact hparts hfew
  · rw [hr]
    exact ⟨hin.same ⟨rfl, rfl, rfl⟩, startPending_outbox hout.depth hout.queued (hparts hfew)⟩
  · rw [hr]
    refine ⟨⟨hin.window, hin.distinct, hin.buffers, hin.missing⟩, ?_⟩
    exact startPending_outbox hout.depth hout.queued (hparts hfew)

end

/-! ### Timers -/

section

variable {cfg : SessionConfig} {p q : Peer} {now : ℕ}

theorem expireReasm_inbox (h : Inbox cfg p) (hs : q.seen = p.seen)
    (hr : q.reasm = (expireReasm cfg p now).1.reasm) : Inbox cfg q where
  window := hs ▸ h.window
  distinct := hs ▸ h.distinct
  buffers := by
    rw [hr]
    exact (Table.size_filterMap_le _ _).trans h.buffers
  missing seq r hget := by
    rw [hr, expireReasm, Table.get_filterMap, Option.bind_eq_some_iff] at hget
    obtain ⟨r', hget, hkept⟩ := hget
    split_ifs at hkept
    obtain rfl := Option.some.inj hkept
    exact h.missing seq r' hget

/-- A retry counts the attempt and sets the timer. -/
theorem tick_outbox (h : Outbox cfg p) (retry : Bool) : Outbox cfg (p.tick cfg now retry).1 := by
  have hexpire : Outbox cfg (expireReasm cfg p now).1 := h.same ⟨rfl, rfl⟩
  have hpending : (expireReasm cfg p now).1.pending = p.pending := rfl
  simp only [Peer.tick, hpending]
  cases hp : p.pending with
  | none => split_ifs <;> exact hexpire
  | some pd =>
    simp only
    split_ifs
    · exact hexpire
    · exact hexpire
    · exact hexpire
    · exact hexpire
    · refine ⟨h.depth, fun _ => rfl, ?_, ?_⟩
      · intro frames hf
        exact h.message frames (by simpa [Peer.outbox, hp, retryPending, expireReasm] using hf)
      · intro pd' hpd'
        obtain rfl := Option.some.inj hpd'
        exact h.marks pd hp

theorem abandon_outbox (h : Outbox cfg p) {next : List AircFrame}
    (ha : p.abandon = some (q, next)) : Outbox cfg q := by
  unfold Peer.abandon at ha
  split at ha
  · cases ha
  · have hbase : Outbox cfg { p with dropped := p.dropped + 1 } := h.same ⟨rfl, rfl⟩
    have hgood := releasePending_outbox hbase
    rw [Option.some.inj ha] at hgood
    exact hgood

theorem ticked_good {s : Sessions} {retry : Bool} (hin : Inbox s.config p)
    (hout : Outbox s.config p) (h : (s.ticked now retry p).1 = some q) :
    Inbox s.config q ∧ Outbox s.config q := by
  obtain ⟨hseen, -, hreasm, -⟩ := ticked_after h
  refine ⟨expireReasm_inbox hin hseen hreasm, ?_⟩
  have htick := @tick_outbox s.config p now hout retry
  unfold Sessions.ticked at h
  rcases hk : p.tick s.config now retry with ⟨r, frames, - | - | -⟩
  · rw [hk] at h htick
    obtain rfl := Option.some.inj h
    exact htick
  · simp [hk] at h
  · rw [hk] at h htick
    rcases ha : r.abandon with - | ⟨r', next⟩
    · simp [ha] at h
    · simp only [ha, Option.some.injEq] at h
      exact h ▸ abandon_outbox htick ha

theorem onKeyed_outbox (h : Outbox cfg p) (seq : UInt16) : Outbox cfg (p.onKeyed cfg seq now) := by
  unfold Peer.onKeyed
  cases hp : p.pending with
  | none => exact h
  | some pd =>
    simp only
    split_ifs
    · exact h
    · refine ⟨h.depth, fun _ => rfl, ?_, ?_⟩
      · intro frames hf
        exact h.message frames (by simpa [Peer.outbox, hp] using hf)
      · intro pd' hpd'
        obtain rfl := Option.some.inj hpd'
        exact h.marks pd hp

end

/-! ### All stations -/

variable {s t : Sessions}

theorem good_new (cfg : SessionConfig) : Good (Sessions.new cfg) where
  room := Nat.zero_le _
  inbox call p hp := by simp [Sessions.peer, Sessions.new] at hp
  outbox call p hp := by simp [Sessions.peer, Sessions.new] at hp

theorem Good.store (h : Good s) {call : Callsign} {p : Peer}
    (hroom : call ∈ s.peers.keys ∨ s.peers.size < s.config.maxPeers)
    (hin : Inbox s.config p) (hout : Outbox s.config p) : Good (s.store call p) where
  room := by
    change (s.peers.set call p).size ≤ s.config.maxPeers
    have := h.room
    rw [Table.size_set]
    split_ifs with hk
    · exact this
    · rcases hroom with hroom | hroom
      · exact absurd hroom hk
      · exact hroom
  inbox j q hq := by
    rw [Sessions.peer_store] at hq
    split_ifs at hq
    · exact Option.some.inj hq ▸ hin
    · exact h.inbox j q hq
  outbox j q hq := by
    rw [Sessions.peer_store] at hq
    split_ifs at hq
    · exact Option.some.inj hq ▸ hout
    · exact h.outbox j q hq

/-- Records go, or change for the better. -/
theorem Good.filterMap (h : Good s) {f : Callsign → Peer → Option Peer}
    (hf : ∀ call p q, Inbox s.config p → Outbox s.config p → f call p = some q →
      Inbox s.config q ∧ Outbox s.config q) :
    Good { s with peers := s.peers.filterMap f } := by
  have hget : ∀ call q, (s.peers.filterMap f).get call = some q →
      Inbox s.config q ∧ Outbox s.config q := by
    intro call q hq
    rw [Table.get_filterMap, Option.bind_eq_some_iff] at hq
    obtain ⟨p, hp, hq⟩ := hq
    exact hf call p q (h.inbox call p hp) (h.outbox call p hp) hq
  refine ⟨(Table.size_filterMap_le _ _).trans h.room, ?_, ?_⟩
  · exact fun call q hq => (hget call q hq).1
  · exact fun call q hq => (hget call q hq).2

theorem Good.forget (h : Good s) (call : Callsign) : Good (s.forget call) := by
  apply h.filterMap
  intro j p q hin hout hq
  split_ifs at hq
  exact Option.some.inj hq ▸ ⟨hin, hout⟩

/-- A station that gets a record had one, or there is room. -/
theorem touched_good (h : Good s) {call : Callsign} {now : ℕ} {p : Peer}
    (ht : s.touched call now = some p) :
    (call ∈ s.peers.keys ∨ s.peers.size < s.config.maxPeers) ∧
    Inbox s.config p ∧ Outbox s.config p := by
  rw [Sessions.touched] at ht
  cases hp : s.peers.get call with
  | some old =>
    simp only [hp, Option.some.injEq] at ht
    subst ht
    refine ⟨.inl (Table.mem_keys_iff.mpr (by simp [hp])), ?_, ?_⟩
    · exact (h.inbox call old hp).same ⟨rfl, rfl, rfl⟩
    · exact (h.outbox call old hp).same ⟨rfl, rfl⟩
  | none =>
    simp only [hp] at ht
    split_ifs at ht with hfull
    obtain rfl := Option.some.inj ht
    exact ⟨.inr (Nat.lt_of_not_le hfull), inbox_blank now, outbox_blank now⟩

theorem touch_good (h : Good s) (call : Callsign) (now : ℕ) : Good (touch s call now) := by
  unfold touch
  cases ht : s.touched call now with
  | none => exact h
  | some p =>
    obtain ⟨hroom, hin, hout⟩ := touched_good h ht
    exact h.store hroom hin hout

theorem evictPeer_good (h : Good s) (call : Callsign) : Good (s.evictPeer call) := by
  unfold Sessions.evictPeer
  split_ifs
  · cases s.peers.leastKey Peer.lastHeard with
    | none => exact h
    | some oldest =>
      have hgone := h.forget oldest
      exact ⟨hgone.room, hgone.inbox, hgone.outbox⟩
  · exact h

theorem forceTouch_good (h : Good s) (call : Callsign) (now : ℕ) : Good (forceTouch s call now) := by
  unfold forceTouch
  split_ifs
  · exact h
  · exact touch_good (evictPeer_good h call) call now

theorem onReceive_good (h : Good s) (src : Callsign) (f : AircFrame) (now : ℕ)
    (addressedToUs : Bool) : Good (s.onReceive src f now addressedToUs).1 := by
  obtain ⟨-, hr⟩ | ⟨p, ht, hr⟩ := s.onReceive_cases src f now addressedToUs
  · rw [hr]
    exact h
  · obtain ⟨hroom, hin, hout⟩ := touched_good h ht
    rw [hr]
    exact h.store hroom (receive_inbox hin ..) (receive_outbox hout ..)

theorem sessionsEnqueue_good (h : Good s) (dst : Callsign) (kind : Kind) (payload : List UInt8)
    (reliable : Bool) (now : ℕ) : Good (s.enqueue dst kind payload reliable now).1 := by
  have hdraw : Good s.drawSeq.2 := ⟨h.room, h.inbox, h.outbox⟩
  have hevict := evictPeer_good hdraw dst
  unfold Sessions.enqueue
  simp only
  split_ifs
  · exact hdraw
  · cases ht : (s.drawSeq.2.evictPeer dst).touched dst now with
    | none => exact hevict
    | some p =>
      obtain ⟨hroom, hin, hout⟩ := touched_good hevict ht
      obtain ⟨hin, hout⟩ := enqueue_good hin hout s.drawSeq.1 kind payload reliable
      exact hevict.store hroom hin hout

theorem tickRetries_good (h : Good s) (now : ℕ) (retry : Bool) :
    Good (s.tickRetries now retry).1 :=
  h.filterMap fun _ _ _ hin hout hq => ticked_good hin hout hq

theorem drainAcks_good (h : Good s) : Good s.drainAcks.1 := by
  apply h.filterMap
  intro call p q hin hout hq
  obtain rfl := Option.some.inj hq
  exact ⟨⟨hin.window, hin.distinct, hin.buffers, hin.missing⟩, hout.same ⟨rfl, rfl⟩⟩

theorem onKeyed_good (h : Good s) (dest : Callsign) (seq : UInt16) (now : ℕ) :
    Good (s.onKeyed dest seq now) := by
  unfold Sessions.onKeyed
  cases hp : s.peers.get dest with
  | none => exact h
  | some p =>
    have hkey : dest ∈ s.peers.keys := Table.mem_keys_iff.mpr (by simp [hp])
    exact h.store (.inl hkey) ((h.inbox dest p hp).same (onKeyed_inbox ..))
      (onKeyed_outbox (h.outbox dest p hp) seq)

theorem markKicked_good (h : Good s) (call : Callsign) (channel : String) :
    Good (markKicked s call channel) := by
  unfold markKicked
  cases hp : s.peer call with
  | none => exact h
  | some p =>
    have hkey : call ∈ s.peers.keys := Table.mem_keys_iff.mpr (by rw [← Sessions.peer, hp]; rfl)
    exact h.store (.inl hkey) ((h.inbox call p hp).same ⟨rfl, rfl, rfl⟩)
      ((h.outbox call p hp).same ⟨rfl, rfl⟩)

theorem apply_good (h : Good s) (e : Operation) : Good (apply s e) := by
  cases e with
  | touch call now => exact touch_good h call now
  | forceTouch call now => exact forceTouch_good h call now
  | receive src f now addressedToUs => exact onReceive_good h src f now addressedToUs
  | enqueue dst kind payload reliable now => exact sessionsEnqueue_good h dst kind payload reliable now
  | tick now retry => exact tickRetries_good h now retry
  | keyed dest seq now => exact onKeyed_good h dest seq now
  | drainAcks => exact drainAcks_good h
  | forget call => exact h.forget call
  | markKicked call channel => exact markKicked_good h call channel
  | nextSeq => exact ⟨h.room, h.inbox, h.outbox⟩

theorem apply_config (s : Sessions) (e : Operation) : (apply s e).config = s.config := by
  cases e with
  | touch call now =>
    rw [apply, touch]
    cases s.touched call now <;> rfl
  | forceTouch call now =>
    rw [apply, forceTouch]
    split_ifs
    · rfl
    · rw [touch]
      cases (s.evictPeer call).touched call now <;> exact s.evictPeer_config call
  | receive src f now addressedToUs => exact AtMostOnce.onReceive_config s src f now addressedToUs
  | enqueue dst kind payload reliable now =>
    exact AtMostOnce.other_config s (.enqueue dst kind payload reliable now)
  | tick now retry => rfl
  | keyed dest seq now => exact AtMostOnce.other_config s (.keyed dest seq now)
  | drainAcks => rfl
  | forget call => rfl
  | markKicked call channel =>
    rw [apply, markKicked]
    cases s.peer call <;> rfl
  | nextSeq => rfl

theorem table_invariant (cfg : SessionConfig) {s : Sessions}
    (h : Reachable (system cfg) (fun _ _ => True) s) :
    s.peers.size ≤ cfg.maxPeers ∧
    ∀ call p, s.peer call = some p → Inbox cfg p ∧ Outbox cfg p := by
  have hinv : Inductive (system cfg) (fun _ _ => True) fun s => s.config = cfg ∧ Good s := by
    refine .ofNext ?_ ?_
    · rintro s rfl
      exact ⟨rfl, good_new cfg⟩
    · rintro s e ⟨rfl, hgood⟩ _ _
      exact ⟨apply_config s e, apply_good hgood e⟩
  obtain ⟨rfl, hgood⟩ := hinv.reachable h
  exact ⟨hgood.room, fun call p hp => ⟨hgood.inbox call p hp, hgood.outbox call p hp⟩⟩

/-! ### A table with room for two -/

instance : ∀ (s : Sessions) (e : Operation), Decidable (Enabled s e)
  | _, .receive _ f _ _ => inferInstanceAs (Decidable (1 ≤ f.fragTotal ∧ f.fragIndex < f.fragTotal))
  | _, .touch .. | _, .forceTouch .. | _, .enqueue .. | _, .tick .. | _, .keyed .. | _, .drainAcks
  | _, .forget .. | _, .markKicked .. | _, .nextSeq => inferInstanceAs (Decidable True)

def narrow : SessionConfig := { SessionConfig.default with maxPeers := 2, maxReasm := 0 }

def asker : Callsign := ⟨"SM0ABC", 7⟩

def lastPart (seq : UInt16) : AircFrame := { AircFrame.new .msg seq [111] with fragIndex := 1, fragTotal := 2 }

/-- Two messages wait for a station, half of one of its own is there, and two more stations come. -/
def crowded : Sessions :=
  [.enqueue asker .notice [104] true 0, .enqueue asker .notice [105] true 0,
    .receive asker (lastPart 8) 1 true, .receive asker (lastPart 9) 1 true,
    .touch ⟨"SM0DEF", 0⟩ 0, .forceTouch ⟨"SM0GHI", 0⟩ 2].foldl apply (Sessions.new narrow)

theorem table_invariant_crowded :
    crowded.peers.size ≤ 2 ∧ Inbox narrow (crowded.record asker) ∧
    Outbox narrow (crowded.record asker) ∧ (crowded.record asker).outbox.length = 2 ∧
    (crowded.record asker).reasm.keys = [9] := by
  obtain ⟨hsize, hpeers⟩ := table_invariant narrow
    ((Reachable.initial rfl).run (show Runs _ _ apply (Sessions.new narrow)
      [.enqueue asker .notice [104] true 0, .enqueue asker .notice [105] true 0,
        .receive asker (lastPart 8) 1 true, .receive asker (lastPart 9) 1 true,
        .touch ⟨"SM0DEF", 0⟩ 0, .forceTouch ⟨"SM0GHI", 0⟩ 2] by decide +kernel))
  have hsome : (crowded.peer asker).isSome = true := by decide +kernel
  obtain ⟨p, hp⟩ := Option.isSome_iff_exists.mp hsome
  have hrecord : crowded.record asker = p := by rw [Sessions.record, hp, Option.getD_some]
  obtain ⟨hin, hout⟩ := hpeers asker p hp
  exact ⟨hsize, hrecord ▸ hin, hrecord ▸ hout, by decide +kernel, by decide +kernel⟩

end SessionTable
