import Rfircd.TransitionSystem
import Rfircd.RetryTimers
import Rfircd.Identification

/-! Whether a message in flight whose timer stands still is still on its way.
The timer starts when the report of a keyed frame is read; until then the message depends on
a frame that waits or on a report that is not read yet. -/
namespace InFlight

open Basics Airc AircSession Ax25 TransmitScheduler TransmitPump RadioGateway RetryTimers
  TransitionSystem

/-! ### On its way -/

/-- The frame was made of one of the fragments for the station. -/
def Carries (c : Callsign) (frames : List AircFrame) (item : Queued Ax25Frame) : Prop :=
  item.payload.destination.call = c ∧
  match AircFrame.decode item.payload.info with
  | .ok f => ∃ g ∈ frames, CopyOf g f
  | .error _ => False

def Waiting (held : Multiset (Queued Ax25Frame)) (c : Callsign) (frames : List AircFrame) : Prop :=
  ∃ item ∈ held, Carries c frames item

def Reported (keyed : List Keyed) (c : Callsign) (frames : List AircFrame) : Prop :=
  ∃ k ∈ keyed, k.dest = c ∧ frames.head?.map AircFrame.seq = some k.seq

/-- A message in flight whose timer stands still. -/
def Unarmed (s : Sessions) (c : Callsign) (frames : List AircFrame) : Prop :=
  ∃ pd, (s.record c).pending = some pd ∧ pd.nextRetry = none ∧ pd.frames = frames

/-- Every message in flight that no timer watches is on its way. -/
structure Live (g : Gateway) : Prop where
  classified : g.pump.scheduler.Classified
  sound : ∀ c, Sound (g.radio.sessions.record c)
  onItsWay : ∀ c frames, Unarmed g.radio.sessions c frames →
    Waiting g.pump.held c frames ∨ Reported g.keyed c frames

instance (f g : AircFrame) : Decidable (CopyOf f g) :=
  decidable_of_iff (g.kind = f.kind ∧ g.seq = f.seq ∧ g.fragIndex = f.fragIndex ∧
      g.fragTotal = f.fragTotal ∧ g.payload = f.payload)
    ⟨fun ⟨a, b, c, d, e⟩ => ⟨a, b, c, d, e⟩, fun h => ⟨h.kind, h.seq, h.index, h.total, h.payload⟩⟩

instance (c : Callsign) (frames : List AircFrame) (item : Queued Ax25Frame) :
    Decidable (Carries c frames item) := by
  unfold Carries
  split <;> infer_instance

instance (held : Multiset (Queued Ax25Frame)) (c : Callsign) (frames : List AircFrame) :
    Decidable (Waiting held c frames) := Multiset.decidableExistsMultiset

instance (keyed : List Keyed) (c : Callsign) (frames : List AircFrame) :
    Decidable (Reported keyed c frames) := by
  unfold Reported
  infer_instance

instance (s : Sessions) (c : Callsign) (frames : List AircFrame) : Decidable (Unarmed s c frames) :=
  match hp : (s.record c).pending with
  | none => isFalse (by simp [Unarmed, hp])
  | some pd => decidable_of_iff (pd.nextRetry = none ∧ pd.frames = frames) (by simp [Unarmed, hp])

/-- The messages of all stations whose timer stands still. -/
def unarmed (s : Sessions) : List (Callsign × List AircFrame) :=
  s.peers.entries.filterMap fun e => match e.2.pending with
    | none => none
    | some pd => if pd.nextRetry = none then some (e.1, pd.frames) else none

theorem mem_unarmed {s : Sessions} {c : Callsign} {frames : List AircFrame} :
    (c, frames) ∈ unarmed s ↔ Unarmed s c frames := by
  rw [unarmed, List.mem_filterMap]
  constructor
  · rintro ⟨⟨d, p⟩, he, h⟩
    have hp := KeyedTable.Table.mem_entries_iff.mp he
    cases hpd : p.pending with
    | none => simp [hpd] at h
    | some pd =>
      simp only [hpd] at h
      split_ifs at h with hn
      · obtain ⟨rfl, rfl⟩ := Prod.mk.inj (Option.some.inj h)
        exact ⟨pd, by simp [Sessions.record, Sessions.peer, hp, hpd], hn, rfl⟩
  · rintro ⟨pd, hp, hn, rfl⟩
    cases hc : s.peers.get c with
    | none => simp [Sessions.record, Sessions.peer, hc, Peer.new] at hp
    | some p =>
      simp only [Sessions.record, Sessions.peer, hc, Option.getD_some] at hp
      exact ⟨(c, p), KeyedTable.Table.mem_entries_iff.mpr hc, by simp [hp, hn]⟩

/-! ### The steps that keep a message on its way -/

/-- A frame of this station can be built. -/
def Buildable (g : Gateway) : Prop :=
  g.radio.source.isSome = true ∧ g.radio.cfg.path.length ≤ maxDigipeaters

/-- The transmitter takes frames. -/
def Ready (g : Gateway) : Prop :=
  Buildable g ∧ g.available = true ∧ g.interlockDown = false

/-- Of every message that a step of the session layer leaves without a timer, the queue has
room for a frame that is handed over, unless the message was on its way before. -/
def FindsRoom (g : Gateway) (t : Sessions) (cls : TxClass) (out : List (Callsign × AircFrame)) :
    Prop :=
  ∀ m ∈ unarmed t, Unarmed g.radio.sessions m.1 m.2 ∨ Waiting g.pump.held m.1 m.2 ∨
    Reported g.keyed m.1 m.2 ∨
    Ready g ∧ ∃ e ∈ out.take (g.txRoomIn cls), e.1 = m.1 ∧ ∃ f ∈ m.2, CopyOf f e.2

/-- The task is about to let frames go without a report. -/
def Loses (g : Gateway) (written : Bool) : Prop :=
  match g.pump.phase with
  | .top => g.pump.shared.inhibit = true
  | .clocked _ => True
  | .popped now item => ∃ why, g.pump.Condemned now item why
  | .cleared _ _ => written = true ∧ g.pump.shared.interlockFailed = false ∧
      keyedCapacity ≤ g.keyed.length
  | _ => False

/-- Whether that step leaves a waiting frame in its queue. -/
def Stays (p : Pump) (item : Queued Ax25Frame) : Prop :=
  match p.phase with
  | .top => item.cls = .id
  | .clocked now => Scheduler.expires item.cls = false ∨ p.scheduler.stale now item = false
  | _ => True

/-- A message for one station passes admission, and the session layer takes it. -/
def Admitted (g : Gateway) (dst : Callsign) (kind : Kind) (payload : List UInt8)
    (reliable : Bool) (cls : TxClass) (now : ℕ) : Prop :=
  g.available = true ∧ g.interlockDown = false ∧
  g.backlogHasRoom (g.wireOctets payload.length) cls = true ∧
  (g.queuedBehind dst reliable = true ∨ g.expectedFragments payload ≤ g.txRoomIn cls) ∧
  (g.radio.sessions.enqueue dst kind payload reliable now).2.accepted = true

/-- The step leaves every message without a timer on its way. -/
def KeepsCopy (g : Gateway) : RadioGateway.Event → Prop
  | .unicast dst kind payload reliable cls _ now =>
    Admitted g dst kind payload reliable cls now → reliable = true →
      (g.radio.sessions.record dst).pending = none → Buildable g
  | .receive src frame now forUs =>
    FindsRoom g (g.radio.sessions.onReceive src frame now forUs).1 .ack
      ((g.radio.sessions.onReceive src frame now forUs).2.transmit.map (src, ·))
  | .tickSessions now =>
    let retry := g.available && !g.interlockDown
    FindsRoom g (g.radio.sessions.tickRetries now retry).1 .control
      (g.radio.sessions.tickRetries now retry).2.transmit
  | .pump (.step written) =>
    Loses g written → ∀ m ∈ unarmed g.radio.sessions, Reported g.keyed m.1 m.2 ∨
      ∃ item ∈ g.pump.scheduler.waiting, Stays g.pump item ∧ Carries m.1 m.2 item
  | _ => True

instance (g : Gateway) : Decidable (Buildable g) := inferInstanceAs (Decidable (_ ∧ _))

instance (g : Gateway) : Decidable (Ready g) := inferInstanceAs (Decidable (_ ∧ _ ∧ _))

instance (g : Gateway) (t : Sessions) (cls : TxClass) (out : List (Callsign × AircFrame)) :
    Decidable (FindsRoom g t cls out) := by
  unfold FindsRoom
  infer_instance

instance (g : Gateway) (written : Bool) : Decidable (Loses g written) := by
  unfold Loses
  split <;> infer_instance

instance (p : Pump) (item : Queued Ax25Frame) : Decidable (Stays p item) := by
  unfold Stays
  split <;> infer_instance

instance (held : Multiset (Queued Ax25Frame)) (p : Pump) (c : Callsign)
    (frames : List AircFrame) : Decidable (∃ item ∈ held, Stays p item ∧ Carries c frames item) :=
  Multiset.decidableExistsMultiset

instance (g : Gateway) (dst : Callsign) (kind : Kind) (payload : List UInt8) (reliable : Bool)
    (cls : TxClass) (now : ℕ) : Decidable (Admitted g dst kind payload reliable cls now) :=
  inferInstanceAs (Decidable (_ ∧ _ ∧ _ ∧ _ ∧ _))

instance (g : Gateway) (e : RadioGateway.Event) : Decidable (KeepsCopy g e) := by
  induction e using RadioGateway.Event.casesOn with
  | pump e => induction e using TransmitPump.Event.casesOn <;> dsimp only [KeepsCopy] <;> infer_instance
  | _ =>
    dsimp only [KeepsCopy]
    infer_instance

/-! ### Frames that are queued -/

theorem aircSeq_of_decode {info : List UInt8} {f : AircFrame}
    (h : AircFrame.decode info = .ok f) : aircSeq info = some f.seq := by
  unfold AircFrame.decode at h
  split at h
  · rename_i a one kind flags hi lo index total payload
    split_ifs at h with hmagic hfrag hpiggy
    · rw [not_or, not_not, not_not] at hmagic
      split at h
      · cases hk : Kind.tryFrom kind with
        | error e => simp [hk, bind, Except.bind] at h
        | ok k =>
          simp only [hk, bind, Except.bind, pure, Except.pure, Except.ok.injEq] at h
          rw [← h]
          simp [aircSeq, hmagic, fromBeBytes]
      · simp at h
    · rw [not_or, not_not, not_not] at hmagic
      cases hk : Kind.tryFrom kind with
      | error e => simp [hk, bind, Except.bind] at h
      | ok k =>
        simp only [hk, bind, Except.bind, pure, Except.pure, Except.ok.injEq] at h
        rw [← h]
        simp [aircSeq, hmagic, fromBeBytes]
  · simp at h

/-- The frame a fragment is sent in carries it. -/
theorem carries_of_encode {item : Queued Ax25Frame} {c : Callsign} {frames : List AircFrame}
    {f g : AircFrame} (hc : item.payload.destination.call = c)
    (hinfo : item.payload.info = f.encode) (hg : g ∈ frames) (hcopy : CopyOf g f)
    (hindex : g.fragIndex < g.fragTotal) : Carries c frames item := by
  have hlt : f.fragIndex < f.fragTotal := by rwa [hcopy.index, hcopy.total]
  refine ⟨hc, ?_⟩
  rw [hinfo, decode_encode hlt]
  exact ⟨g, hg, hcopy.kind, hcopy.seq, hcopy.index, hcopy.total, hcopy.payload⟩

/-- The report of a frame that carries a fragment names its message. -/
theorem Carries.report {item : Queued Ax25Frame} {c : Callsign} {frames : List AircFrame}
    (h : Carries c frames item) (hone : OneMessage frames) :
    Reported (Gateway.reports [.keyed item]) c frames := by
  obtain ⟨hc, h⟩ := h
  cases hd : AircFrame.decode item.payload.info with
  | error e => simp [hd] at h
  | ok f =>
    simp only [hd] at h
    obtain ⟨g, hg, hcopy⟩ := h
    refine ⟨⟨c, f.seq⟩, ?_, rfl, ?_⟩
    · simp [Gateway.reports, aircSeq_of_decode hd, hc]
    · rw [hcopy.seq]
      exact hone.seq g hg

theorem transmittable_of_ready {g : Gateway} (h : Ready g) (dest : Callsign) (info : List UInt8) :
    ∃ ax, g.transmittable dest info = some ax ∧ ax.destination.call = dest ∧ ax.info = info := by
  obtain ⟨⟨hsource, hpath⟩, hon, hup⟩ := h
  obtain ⟨source, hsource⟩ := Option.isSome_iff_exists.mp hsource
  simp only [Gateway.available, Bool.and_eq_true] at hon
  simp only [Gateway.interlockDown, hon.2, Bool.true_and] at hup
  cases hax : Ax25Frame.ui source dest g.radio.cfg.path info with
  | none => simp [Ax25Frame.ui, Nat.not_lt.mpr hpath] at hax
  | some ax =>
    refine ⟨ax, by simp [Gateway.transmittable, hsource, hon, hup, hax], ?_⟩
    rw [Ax25Frame.ui, if_neg (Nat.not_lt.mpr hpath)] at hax
    obtain rfl := Option.some.inj hax
    exact ⟨rfl, rfl⟩

/-- A frame that finds room is queued; what else there is of room and of the state stays. -/
theorem enqueueUi_ready {g : Gateway} (h : Ready g) (dest : Callsign) (info : List UInt8)
    (cls : TxClass) (expectsReply : Bool) (account : Text) (hroom : g.txRoomIn cls ≠ 0) :
    let g' := g.enqueueUi dest info cls expectsReply account
    Ready g' ∧ g'.txRoomIn cls = g.txRoomIn cls - 1 ∧
      ∃ item ∈ g'.pump.held, item.payload.destination.call = dest ∧ item.payload.info = info := by
  obtain ⟨ax, hax, hdest, hinfo⟩ := transmittable_of_ready h dest info
  obtain ⟨hbuild, hon, hup⟩ := h
  have htnc : g.radio.tnc = true := (Bool.and_eq_true _ _ ▸ hon).2
  simp only [Gateway.txRoomIn, htnc, if_true] at hroom
  rcases tncEnqueue_cases g.pump ax cls.schedulerClass account expectsReply with
    ⟨q, hq, -, ht⟩ | ⟨q, -, hz, -⟩
  · simp only [Gateway.enqueueUi, hax, hq]
    refine ⟨⟨hbuild, hon, ?_⟩, ?_, queuedItem g.pump ax cls.schedulerClass account expectsReply,
      ?_, hdest, hinfo⟩
    · simpa [Gateway.interlockDown, AirtimeShared.interlockFailed, Gateway.sent,
        Gateway.countStats, ht.interlock] using hup
    · have := ht.room cls.schedulerClass
      simpa [Gateway.txRoomIn, Gateway.sent, Gateway.countStats, htnc, queuedItem] using this
    · change _ ∈ q.held
      rw [ht.held]
      exact Multiset.mem_cons_self _ _
  · exact absurd hz hroom

theorem Queuing.held {g g' : Gateway} (h : Queuing g g') {x : Queued Ax25Frame}
    (hx : x ∈ g.pump.held) : x ∈ g'.pump.held := by
  obtain ⟨added, h⟩ := h
  rw [h.held]
  exact Multiset.mem_add.mpr (.inl hx)

/-- The frames that find room are queued. -/
theorem transmitAll_ready {g : Gateway} (h : Ready g) (cls : TxClass)
    (out : List (Callsign × AircFrame)) :
    ∀ e ∈ out.take (g.txRoomIn cls), ∃ item ∈ (g.transmitAll cls out).pump.held,
      item.payload.destination.call = e.1 ∧ item.payload.info = e.2.encode := by
  induction out generalizing g with
  | nil => simp
  | cons d out ih =>
    by_cases hroom : g.txRoomIn cls = 0
    · simp [hroom]
    · obtain ⟨hready, hleft, item, hitem, hdest, hinfo⟩ :=
        enqueueUi_ready h d.1 d.2.encode cls d.2.wantsAck (callText d.1) hroom
      obtain ⟨n, hn⟩ := Nat.exists_eq_succ_of_ne_zero hroom
      rw [hn, Nat.succ_sub_one] at hleft
      intro e he
      rw [hn, List.take_succ_cons, List.mem_cons] at he
      change ∃ item ∈ ((g.transmitDirect d.1 d.2 cls).transmitAll cls out).pump.held, _
      rcases he with rfl | he
      · exact ⟨item, Queuing.held (Gateway.transmitAll_queuing _ cls out) hitem, hdest, hinfo⟩
      · exact ih hready e (hleft ▸ he)

/-! ### The operations of the server -/

theorem Queues.live {g g' : Gateway} {added : Multiset (Queued Ax25Frame)} (h : Live g)
    (hheld : g'.pump.held = g.pump.held + added) (hkeyed : g'.keyed = g.keyed)
    (hpeers : g'.radio.sessions.peers = g.radio.sessions.peers)
    (hclassified : g'.pump.scheduler.Classified) : Live g' := by
  have hrecord : g'.radio.sessions.record = g.radio.sessions.record := by
    funext c
    simp only [Sessions.record, Sessions.peer, hpeers]
  refine ⟨hclassified, hrecord ▸ h.sound, ?_⟩
  intro c frames hu
  simp only [Unarmed, hrecord] at hu
  rw [hkeyed, hheld]
  rcases h.onItsWay c frames hu with ⟨x, hx, hcarries⟩ | hr
  · exact .inl ⟨x, Multiset.mem_add.mpr (.inl hx), hcarries⟩
  · exact .inr hr

theorem Live.queuing {g g' : Gateway} (h : Live g) (hq : Queuing g g') : Live g' := by
  obtain ⟨added, hq⟩ := hq
  exact Queues.live h hq.held hq.keyed hq.sessions.peers (hq.classified h.classified)

theorem Live.identifies {g g' : Gateway} (h : Live g)
    (hi : Gateway.Identifies g g' ∨ Queues 0 g g') : Live g' := by
  rcases hi with hi | hq
  · obtain ⟨item, -, hheld⟩ := hi.held
    rw [← Multiset.singleton_add, add_comm] at hheld
    exact Queues.live h hheld hi.keyed hi.sessions.peers (hi.classified h.classified)
  · exact h.queuing ⟨0, hq⟩

/-- A step of the session layer that starts no message. -/
theorem Live.withSessions {g : Gateway} (h : Live g) {t : Sessions}
    (hsound : ∀ c, Sound (t.record c))
    (hold : ∀ c frames, Unarmed t c frames → Unarmed g.radio.sessions c frames) :
    Live (g.withSessions t) :=
  ⟨h.classified, hsound, fun c frames hu => h.onItsWay c frames (hold c frames hu)⟩

theorem Unarmed.of_follows {s t : Sessions} (h : Follows s t []) {c : Callsign}
    {frames : List AircFrame} (hu : Unarmed t c frames) : Unarmed s c frames := by
  obtain ⟨pd, hp, hn, rfl⟩ := hu
  rcases h.restarted c pd hp hn with ⟨old, hold, hnone, hframes⟩ | ⟨f, hf, -⟩
  · exact ⟨old, hold, hnone, hframes⟩
  · exact absurd hf List.not_mem_nil

theorem Live.follows {g : Gateway} (h : Live g) {t : Sessions}
    (ht : Follows g.radio.sessions t []) : Live (g.withSessions t) :=
  h.withSessions ht.sound fun _ _ => .of_follows ht

/-- A step of the session layer and the frames it hands over. -/
theorem Live.transmitAll {g : Gateway} (h : Live g) {t : Sessions} {cls : TxClass}
    {out : List (Callsign × AircFrame)} (ht : ∀ c, Sound (t.record c))
    (hroom : FindsRoom g t cls out) : Live ((g.withSessions t).transmitAll cls out) := by
  obtain ⟨added, hq⟩ := Gateway.transmitAll_queuing (g.withSessions t) cls out
  have hrecord : ((g.withSessions t).transmitAll cls out).radio.sessions.record = t.record := by
    funext c
    simp only [Sessions.record, Sessions.peer, hq.sessions.peers]
    rfl
  refine ⟨hq.classified h.classified, hrecord ▸ ht, ?_⟩
  intro c frames hu
  simp only [Unarmed, hrecord] at hu
  have hkept : Waiting g.pump.held c frames ∨ Reported g.keyed c frames →
      Waiting ((g.withSessions t).transmitAll cls out).pump.held c frames ∨
        Reported ((g.withSessions t).transmitAll cls out).keyed c frames := by
    rw [hq.keyed, hq.held]
    rintro (⟨x, hx, hcarries⟩ | hr)
    · exact .inl ⟨x, Multiset.mem_add.mpr (.inl hx), hcarries⟩
    · exact .inr hr
  rcases hroom (c, frames) (mem_unarmed.mpr hu) with hold | hw | hr | ⟨hready, e, he, hc, f, hf, hcopy⟩
  · exact hkept (h.onItsWay c frames hold)
  · exact hkept (.inl hw)
  · exact hkept (.inr hr)
  · obtain ⟨item, hitem, hdest, hinfo⟩ :=
      @transmitAll_ready (g.withSessions t) hready cls out e he
    obtain ⟨pd, hp, -, rfl⟩ := hu
    have hone : OneMessage pd.frames :=
      (ht c).message _ (by simp [Peer.outbox, hp])
    exact .inl ⟨item, hitem, carries_of_encode (hdest.trans hc) hinfo hf hcopy (hone.index f hf)⟩

theorem enqueue_unreliable (cfg : SessionConfig) (p : Peer) (seq : UInt16) (kind : Kind)
    (payload : List UInt8) : (p.enqueue cfg seq kind payload false).1.pending = p.pending := by
  have hpiggy : takePiggyback cfg p false = (none, p) := by simp [takePiggyback]
  simp only [Peer.enqueue, hpiggy, restorePiggyback]
  split_ifs <;> first | rfl | contradiction

/-- A new message starts only when none is in flight, and its first fragment is handed over. -/
theorem enqueue_unarmed {s : Sessions} (h : ∀ c, Sound (s.record c)) (dst : Callsign)
    (kind : Kind) (payload : List UInt8) (reliable : Bool) (now : ℕ) :
    let r := s.enqueue dst kind payload reliable now
    (∀ c, Sound (r.1.record c)) ∧ ∀ c frames, Unarmed r.1 c frames → Unarmed s c frames ∨
      c = dst ∧ reliable = true ∧ (s.record dst).pending = none ∧ r.2.accepted = true ∧
        ∃ f rest, r.2.frames = f :: rest ∧ ∃ g ∈ frames, CopyOf g f := by
  intro r
  obtain ⟨t, -, hpeers, hr⟩ := s.enqueue_cases dst kind payload reliable now
  have hother : ∀ c, t.record c = s.record c ∨ t.record c = Peer.new 0 := by
    intro c
    rcases hpeers c with hc | ⟨-, hc⟩
    · exact .inl (Sessions.record_of_peer hc)
    · exact .inr (by simp [Sessions.record, hc])
  have hsound : ∀ c, Sound (t.record c) := by
    intro c
    rcases hother c with hc | hc <;> rw [hc]
    · exact h c
    · exact sound_blank 0
  have hkept : ∀ c frames, Unarmed t c frames → Unarmed s c frames := by
    rintro c frames ⟨pd, hp, hn, hframes⟩
    rcases hother c with hc | hc <;> rw [hc] at hp
    · exact ⟨pd, hp, hn, hframes⟩
    · simp [Peer.new] at hp
  rcases hr with hr | ⟨p, -, hout, hr⟩
  · rw [show r = _ from hr]
    exact ⟨hsound, fun c frames hu => .inl (hkept c frames hu)⟩
  · have hp := sound_of_same (h dst) hout
    obtain ⟨hsound', hcases⟩ :=
      @enqueue_restarted s.config p hp s.nextSeq kind payload reliable
    rw [show r = _ from hr]
    constructor
    · intro c
      by_cases hc : c = dst
      · rw [hc, Sessions.record_store_self]
        exact hsound'
      · rw [Sessions.record_store_ne _ hc]
        exact hsound c
    · rintro c frames ⟨pd, hpd, hn, rfl⟩
      by_cases hc : c = dst
      · rw [hc, Sessions.record_store_self] at hpd
        rcases hcases with hsame | ⟨hnone, hacc, f, rest, hframes, hcopy⟩
        · exact .inl ⟨pd, by rw [hc, ← hout.pending, ← hsame, hpd], hn, rfl⟩
        · cases reliable with
          | false =>
            rw [enqueue_unreliable, hnone] at hpd
            simp at hpd
          | true =>
            exact .inr ⟨hc, rfl, hout.pending ▸ hnone, hacc, f, rest, hframes, hcopy pd hpd⟩
      · rw [Sessions.record_store_ne _ hc] at hpd
        exact .inl (hkept c pd.frames ⟨pd, hpd, hn, rfl⟩)

theorem noteAirc_follows {s : Sessions} (h : ∀ c, Sound (s.record c)) (dst : Callsign) :
    Follows s (Gateway.noteAirc s dst) [] := by
  unfold Gateway.noteAirc
  cases hp : s.peer dst with
  | none => exact follows_of_pending h (fun c => .inl ⟨rfl, rfl⟩) []
  | some p =>
    refine store_follows h ?_ []
    rw [Sessions.record, hp]
    exact ⟨rfl, rfl⟩

theorem expectedFragments_pos (g : Gateway) (payload : List UInt8) :
    0 < g.expectedFragments payload := by
  unfold Gateway.expectedFragments
  simp only
  split_ifs
  · exact Nat.one_pos
  · exact Nat.lt_of_lt_of_le Nat.one_pos (Nat.le_max_right _ _)

theorem live_unicast {g : Gateway} (h : Live g) (dst : Callsign) (kind : Kind)
    (payload : List UInt8) (reliable : Bool) (cls : TxClass) (flags : UInt8) (now : ℕ)
    (hg : Admitted g dst kind payload reliable cls now → reliable = true →
      (g.radio.sessions.record dst).pending = none → Buildable g) :
    Live (g.unicastFlagged dst kind payload reliable cls flags now).2 := by
  obtain ⟨hsound, hstarts⟩ := enqueue_unarmed h.sound dst kind payload reliable now
  rcases g.unicastFlagged_cases dst kind payload reliable cls flags now with
    ⟨g', hr, hsame⟩ | ⟨hon, hup, hback, hfew, ⟨hacc, hr⟩ | ⟨hacc, hr⟩⟩
  · rw [hr]
    exact h.queuing hsame.queuing
  · rw [hr]
    refine h.withSessions hsound fun c frames hu => ?_
    rcases hstarts c frames hu with hold | ⟨-, -, -, hacc', -⟩
    · exact hold
    · rw [hacc] at hacc'
      exact absurd hacc' Bool.false_ne_true
  · rw [hr]
    have hnoted := noteAirc_follows hsound dst
    refine h.transmitAll hnoted.sound ?_
    rintro ⟨c, frames⟩ hm
    rcases hstarts c frames (.of_follows hnoted (mem_unarmed.mp hm)) with
      hold | ⟨rfl, hrel, hnone, -, f, rest, hframes, k, hk, hcopy⟩
    · exact .inl hold
    · have hbehind : g.queuedBehind c reliable = false := by
        cases hp : g.radio.sessions.peer c with
        | none => simp [Gateway.queuedBehind, hp]
        | some p =>
          simp only [Sessions.record, hp, Option.getD_some] at hnone
          simp [Gateway.queuedBehind, hp, Peer.awaitingAck, hnone]
      have hfew := hfew hbehind
      have hbuild := hg ⟨hon, hup, hback, .inr hfew, hacc⟩ hrel hnone
      obtain ⟨n, hn⟩ := Nat.exists_eq_succ_of_ne_zero
        (Nat.ne_of_gt (Nat.lt_of_lt_of_le (expectedFragments_pos g payload) hfew))
      refine .inr (.inr (.inr ⟨⟨hbuild, hon, hup⟩, (c, f.withFlags flags), ?_, rfl, k, hk,
        hcopy.withFlags flags⟩))
      rw [hframes, hn, List.map_cons, List.take_succ_cons]
      exact List.mem_cons_self

/-! ### Reports -/

theorem onKeyed_unarmed {s : Sessions} {k : Keyed} {now : ℕ} {c : Callsign}
    {frames : List AircFrame} (h : Unarmed (s.onKeyed k.dest k.seq now) c frames) :
    Unarmed s c frames ∧ ¬ (k.dest = c ∧ frames.head?.map AircFrame.seq = some k.seq) := by
  obtain ⟨pd, hpd, hn, rfl⟩ := h
  rw [Sessions.record, Sessions.onKeyed_peer] at hpd
  by_cases hc : c = k.dest
  · rw [if_pos hc] at hpd
    cases hp : s.peer c with
    | none => simp [hp, Peer.new] at hpd
    | some p =>
      simp only [hp, Option.map_some, Option.getD_some, Peer.onKeyed] at hpd
      cases hold : p.pending with
      | none => simp [hold] at hpd
      | some old =>
        simp only [hold] at hpd
        split_ifs at hpd with hseq
        · obtain rfl := Option.some.inj (hold.symm.trans hpd)
          exact ⟨⟨old, by simp [Sessions.record, hp, hold], hn, rfl⟩, fun hk => hseq hk.2⟩
        · obtain rfl := Option.some.inj hpd
          simp at hn
  · rw [if_neg hc] at hpd
    exact ⟨⟨pd, hpd, hn, rfl⟩, fun hk => hc hk.1.symm⟩

theorem onKeyed_sound {s : Sessions} (h : ∀ c, Sound (s.record c)) (dest : Callsign)
    (seq : UInt16) (now : ℕ) (c : Callsign) : Sound ((s.onKeyed dest seq now).record c) := by
  have hc := h c
  rw [Sessions.record, Sessions.onKeyed_peer]
  split_ifs
  · cases hp : s.peer c with
    | none => exact sound_blank 0
    | some p =>
      rw [Sessions.record, hp] at hc
      exact hc.advance (onKeyed_advances s.config p seq now)
  · exact hc

/-- A report that is read starts the timer. -/
theorem keyed_unarmed {keyed : List Keyed} {s : Sessions} {now : ℕ} (h : ∀ c, Sound (s.record c)) :
    let t := keyed.foldl (fun s k => s.onKeyed k.dest k.seq now) s
    (∀ c, Sound (t.record c)) ∧ ∀ c frames, Unarmed t c frames →
      Unarmed s c frames ∧ ¬ Reported keyed c frames := by
  induction keyed generalizing s with
  | nil => exact ⟨h, fun c frames hu => ⟨hu, by simp [Reported]⟩⟩
  | cons k keyed ih =>
    obtain ⟨hsound, hunarmed⟩ := ih (onKeyed_sound h k.dest k.seq now)
    refine ⟨hsound, fun c frames hu => ?_⟩
    obtain ⟨hu, hrest⟩ := hunarmed c frames hu
    obtain ⟨hu, hk⟩ := onKeyed_unarmed hu
    refine ⟨hu, ?_⟩
    rintro ⟨k', hk', hreport⟩
    rcases List.mem_cons.mp hk' with rfl | hk'
    · exact hk hreport
    · exact hrest ⟨k', hk', hreport⟩

theorem live_drainKeyed {g : Gateway} (h : Live g) (now : ℕ) : Live (g.drainKeyed now) := by
  obtain ⟨hsound, hunarmed⟩ := @keyed_unarmed g.keyed g.radio.sessions now h.sound
  refine ⟨h.classified, hsound, fun c frames hu => .inl ?_⟩
  obtain ⟨hu, hunread⟩ := hunarmed c frames hu
  exact (h.onItsWay c frames hu).resolve_right hunread

/-! ### The task -/

/-- A frame that stays in its queue is not among those that are swept off it. -/
theorem stays_held {p : Pump} (h : p.scheduler.Classified) {written : Bool}
    {x : Queued Ax25Frame} (hx : x ∈ p.scheduler.waiting) (hs : Stays p x)
    (he : TransmitPump.Enabled p (.step written)) : x ∈ (p.next (.step written)).1.held := by
  have hheld : (p.next (.step written)).1.held + items (p.next (.step written)).2 =
      p.scheduler.waiting + p.phase.inHand := by
    rcases next_held he with hh | ⟨item, hitem, -⟩
    · exact hh
    · exact absurd hitem (by simp)
  have hmem : x ∈ (p.next (.step written)).1.held ∨ x ∈ items (p.next (.step written)).2 := by
    rw [← Multiset.mem_add, hheld]
    exact Multiset.mem_add.mpr (.inl hx)
  have inHand : ∀ item, p.phase.inHand = {item} → items (p.next (.step written)).2 = {item} →
      x ∈ (p.next (.step written)).1.held := by
    intro item hhand hout
    rw [hhand, hout] at hheld
    exact add_right_cancel hheld ▸ hx
  rcases next_fates p (.step written) with hf | ⟨now, item, hp, -, -, hf⟩ |
    ⟨now, item, why, _, hp, -, -, hf⟩ | ⟨_, hp, -, -, hf⟩ | ⟨now, _, hp, -, hf⟩
  · simpa [hf] using hmem
  · exact inHand item (by rw [hp, Phase.inHand]) (by rw [hf, items_singleton, Fate.item])
  · exact inHand item (by rw [hp, Phase.inHand]) (by rw [hf, items_singleton, Fate.item])
  · rw [hf, items_dropped] at hmem
    simp only [Stays, hp] at hs
    exact hmem.resolve_right fun hout => h.drainExcept_out hout hs
  · rw [hf, items_dropped] at hmem
    simp only [Stays, hp] at hs
    refine hmem.resolve_right fun hout => ?_
    rcases hs with hs | hs
    · exact absurd (h.expire_out hout) (by simp [hs])
    · exact absurd (Scheduler.expire_stale hout) (by simp [hs])

/-- Frames leave without a report only in the steps that are guarded. -/
theorem loses_of_gone {g : Gateway} {e : TransmitPump.Event} {x : Queued Ax25Frame}
    (hx : x ∈ items (g.pump.next e).2) :
    (∃ written, e = .step written ∧ Loses g written) ∨
    (g.pump.next e).2 = [.keyed x] ∧ g.keyed.length < keyedCapacity := by
  rcases next_fates g.pump e with hf | ⟨now, item, hp, rfl, hi, hf⟩ |
    ⟨now, item, why, written, hp, rfl, hwhy, hf⟩ | ⟨written, hp, rfl, hi, hf⟩ |
    ⟨now, written, hp, rfl, hf⟩
  · simp [hf] at hx
  · rcases Nat.lt_or_ge g.keyed.length keyedCapacity with hroom | hfull
    · rw [hf, items_singleton, Multiset.mem_singleton, Fate.item] at hx
      exact .inr ⟨by rw [hf, hx], hroom⟩
    · exact .inl ⟨true, rfl, by simp [Loses, hp, hi, hfull]⟩
  · exact .inl ⟨written, rfl, by simp only [Loses, hp]; exact ⟨why, hwhy⟩⟩
  · exact .inl ⟨written, rfl, by simp only [Loses, hp]; exact hi⟩
  · exact .inl ⟨written, rfl, by simp only [Loses, hp]⟩

theorem live_pump {g : Gateway} (h : Live g) {e : TransmitPump.Event}
    (hg : KeepsCopy g (.pump e)) (he : RadioGateway.Enabled g (.pump e)) :
    Live (g.pumpStep e) := by
  have he' : TransmitPump.Enabled g.pump e ∧ ∀ item, e ≠ .enqueue item := by
    cases e <;> first | exact ⟨he, by simp⟩ | exact absurd he id
  refine ⟨next_classified h.classified e, h.sound, ?_⟩
  intro c frames hu
  change Unarmed g.radio.sessions c frames at hu
  change Waiting (g.pump.next e).1.held c frames ∨ Reported (g.keyed ++
    (Gateway.reports (g.pump.next e).2).take (keyedCapacity - g.keyed.length)) c frames
  rcases h.onItsWay c frames hu with ⟨x, hx, hcarries⟩ | ⟨k, hk, hreport⟩
  · have hmem : x ∈ (g.pump.next e).1.held ∨ x ∈ items (g.pump.next e).2 := by
      rcases next_held he'.1 with hh | ⟨item, hitem, -⟩
      · rw [← Multiset.mem_add, hh]
        exact hx
      · exact absurd hitem (he'.2 item)
    rcases hmem with hx | hx
    · exact .inl ⟨x, hx, hcarries⟩
    · rcases loses_of_gone hx with ⟨written, rfl, hloses⟩ | ⟨hf, hroom⟩
      · rcases hg hloses (c, frames) (mem_unarmed.mpr hu) with
          ⟨k, hk, hreport⟩ | ⟨y, hy, hs, hcarries⟩
        · exact .inr ⟨k, List.mem_append_left _ hk, hreport⟩
        · exact .inl ⟨y, stays_held h.classified hy hs he'.1, hcarries⟩
      · -- the frame was keyed and its report is not lost
        obtain ⟨pd, hpd, -, rfl⟩ := hu
        have hone : OneMessage pd.frames :=
          (h.sound c).message _ (by simp [Peer.outbox, hpd])
        obtain ⟨k, hk, hreport⟩ := hcarries.report hone
        refine .inr ⟨k, List.mem_append_right _ ?_, hreport⟩
        rw [hf, List.take_of_length_le]
        · exact hk
        · have : (Gateway.reports [.keyed x]).length ≤ 1 := List.length_filterMap_le _ _
          omega
  · exact .inr ⟨k, List.mem_append_left _ hk, hreport⟩

/-! ### Runs -/

theorem live_step {g : Gateway} {e : RadioGateway.Event} (h : Live g) (hg : KeepsCopy g e)
    (he : RadioGateway.Enabled g e) : Live (g.next e) := by
  cases e with
  | broadcast kind payload cls flags =>
    exact h.queuing (g.broadcastFlagged_queuing kind payload cls flags)
  | unicast dst kind payload reliable cls flags now =>
    exact live_unicast h dst kind payload reliable cls flags now hg
  | transmitUi dest info cls account => exact h.queuing (g.enqueueUi_queuing dest info cls false _)
  | aprsChat dst text cls now => exact h.queuing (g.enqueueAprsChat_queuing dst text cls now)
  | receive src frame now forUs =>
    exact h.transmitAll (onReceive_follows h.sound src frame now forUs).sound hg
  | drainAcks =>
    exact (h.follows (drainAcks_follows h.sound [])).queuing (Gateway.transmitAll_queuing _ _ _)
  | aprsHeard src now =>
    change Live (g.aprsHeard src now)
    unfold Gateway.aprsHeard
    cases ht : g.radio.sessions.touched src now with
    | none => exact h
    | some p =>
      refine h.follows (store_follows h.sound ?_ [])
      have hsame := (Sessions.touched_same ht).2.1
      unfold Peer.noteAprs
      split_ifs
      · exact hsame
      · exact ⟨hsame.pending, hsame.queue⟩
  | aprsAck src id now => exact h.queuing (g.onAprsAck_queuing src id now)
  | forget call => exact h.follows (forget_follows h.sound call)
  | drainKeyed now => exact live_drainKeyed h now
  | tickSessions now =>
    exact h.transmitAll (tickRetries_follows h.sound now _).sound hg
  | tickAprs now => exact h.queuing (g.tickAprs_queuing now)
  | maybeIdentify now => exact h.identifies (g.maybeIdentify_cases now)
  | idIfNeeded now => exact h.identifies (g.idIfNeeded_cases now)
  | identifyNow now => exact h.identifies (g.identifyNow_cases now)
  | radioOff now => exact h.identifies (g.radioOff_cases now)
  | radioOn => exact h.queuing ⟨0, g.radioOn_queues⟩
  | pump e => exact live_pump h hg he

def system (cfg : RadioConfig) (tnc : TncConfig) : System Gateway RadioGateway.Event :=
  .ofNext (· = Gateway.new cfg tnc) RadioGateway.Enabled Gateway.next

theorem live_initial (cfg : RadioConfig) (tnc : TncConfig) : Live (Gateway.new cfg tnc) where
  classified := Scheduler.classified_new _
  sound _ := sound_blank 0
  onItsWay c frames h := by
    obtain ⟨pd, hp, -⟩ := h
    exact absurd hp (by simp [Gateway.new, Radio.new, Sessions.new, Sessions.record,
      Sessions.peer, Peer.new])

open Identification (gatewayConfig turn)

def caller : Callsign := ⟨"SM0ABC", 7⟩

def privateText : RadioGateway.Event := .unicast caller .msg [109, 31, 104, 105] true .direct 0 0

/-- The message is keyed and its report is not read yet. -/
def answered : Gateway := (privateText :: turn).foldl Gateway.next (.new gatewayConfig .default)

/-- The radio is switched off and on again: the frame is gone, the message is not. -/
def interrupted : Gateway :=
  [privateText, .radioOff 0, .pump (.step true), .radioOn].foldl Gateway.next
    (.new gatewayConfig .default)

end InFlight
