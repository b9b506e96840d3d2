import Rfircd.FrameLimit

/-! Where the frames of the session layer come from: every one is part of a message that was handed
to it, or acknowledges what was received. -/
namespace SessionOrigins

open Basics Airc AircSession KeyedTable

variable {cfg : SessionConfig} {part part' : AircFrame → Prop} {asked asked' : UInt16 → Prop}
variable {addressed addressed' : UInt16 → Prop} {p q : Peer} {f : AircFrame} {now : ℕ} {forUs : Bool}

/-! ### One record -/

/-- All that waits is part of a message. What is owed was asked for, in what was addressed to us. -/
structure Kept (part : AircFrame → Prop) (asked addressed : UInt16 → Prop) (p : Peer) : Prop where
  outbox : ∀ frames ∈ p.outbox, ∀ f ∈ frames, part f
  owed : ∀ o ∈ p.owedAck, asked o.seq ∧ addressed o.seq
  wanted : ∀ seq r, p.reasm.get seq = some r → r.wantAck = true → asked seq ∧ addressed seq
  flagged : ∀ seq r, p.reasm.get seq = some r → r.flags &&& Flags.ackReq ≠ 0 → asked seq

theorem kept_new (now : ℕ) : Kept part asked addressed (Peer.new now) where
  outbox _ hf := absurd hf List.not_mem_nil
  owed _ ho := by cases ho
  wanted seq r hr := by simp [Peer.new] at hr
  flagged seq r hr := by simp [Peer.new] at hr

theorem Kept.mono (h : Kept part asked addressed p) (hpart : ∀ f, part f → part' f)
    (hasked : ∀ n, asked n → asked' n) (haddressed : ∀ n, addressed n → addressed' n) :
    Kept part' asked' addressed' p where
  outbox frames hframes f hf := hpart f (h.outbox frames hframes f hf)
  owed o ho := (h.owed o ho).imp (hasked _) (haddressed _)
  wanted seq r hr hw := (h.wanted seq r hr hw).imp (hasked _) (haddressed _)
  flagged seq r hr hf := hasked _ (h.flagged seq r hr hf)

theorem Kept.same (h : Kept part asked addressed p) (hin : SameInbox p q)
    (hout : ∀ frames ∈ q.outbox, frames ∈ p.outbox) : Kept part asked addressed q where
  outbox frames hf := h.outbox frames (hout frames hf)
  owed := hin.owedAck ▸ h.owed
  wanted := hin.reasm ▸ h.wanted
  flagged := hin.reasm ▸ h.flagged

/-- What may go out to a station. -/
inductive Outgoing (part : AircFrame → Prop) (owed : UInt16 → Prop) : AircFrame → Prop where
  | first (g : AircFrame) (h : part g) : Outgoing part owed g
  | again (g : AircFrame) (h : part g) : Outgoing part owed (retryFrame g)
  | acking (g : AircFrame) (seq : UInt16) (h : part g) (ho : owed seq) :
    Outgoing part owed (g.attachPiggyback seq)
  | ack (o : OwedAck) (ho : owed o.seq) : Outgoing part owed o.toFrame

theorem Kept.fromOutbox (h : Kept part asked addressed p) {owed : UInt16 → Prop}
    (hf : FromOutbox p.outbox f) : Outgoing part owed f := by
  obtain ⟨frames, hframes, g, hg, rfl | rfl⟩ := hf
  · exact .first _ (h.outbox frames hframes _ hg)
  · exact .again g (h.outbox frames hframes g hg)

/-! ### Receiving -/

theorem wantsAck_iff : f.wantsAck = true ↔ f.flags &&& Flags.ackReq ≠ 0 := bne_iff_ne

/-- The buffer of a fragment knows no more than was heard. -/
theorem Kept.stored (h : Kept part asked addressed p) (hasked : f.wantsAck = true → asked f.seq)
    (hours : forUs = true → addressed f.seq) :
    ((stored cfg p f now forUs).wantAck = true → asked f.seq ∧ addressed f.seq) ∧
    ((stored cfg p f now forUs).flags &&& Flags.ackReq ≠ 0 → asked f.seq) := by
  have hwant : (forUs && f.wantsAck) = true → asked f.seq ∧ addressed f.seq := by
    intro hboth
    rw [Bool.and_eq_true] at hboth
    exact ⟨hasked hboth.2, hours hboth.1⟩
  have hbuffer : ∀ b, b = bufferFor (evictReasm p f.seq cfg.maxReasm) f now (forUs && f.wantsAck) →
      (b.wantAck = true → asked f.seq ∧ addressed f.seq) ∧
      (b.flags &&& Flags.ackReq ≠ 0 → asked f.seq) := by
    intro b hb
    have hfresh : ∀ parts, b = ⟨f.kind, f.flags, parts, now, forUs && f.wantsAck⟩ →
        (b.wantAck = true → asked f.seq ∧ addressed f.seq) ∧
        (b.flags &&& Flags.ackReq ≠ 0 → asked f.seq) := by
      rintro parts rfl
      exact ⟨hwant, fun hflag => hasked (wantsAck_iff.mpr hflag)⟩
    unfold bufferFor at hb
    dsimp only at hb
    split at hb
    · exact hfresh _ hb
    · rename_i r hr
      split_ifs at hb
      · exact hfresh _ hb
      · subst hb
        exact ⟨h.wanted f.seq b (get_evictReasm hr), h.flagged f.seq b (get_evictReasm hr)⟩
  obtain ⟨hwanted, hflagged⟩ := hbuffer _ rfl
  constructor
  · intro hstored
    rcases Bool.or_eq_true _ _ |>.mp hstored with hb | hb
    · exact hwanted hb
    · exact hwant hb
  · intro hstored
    unfold AircSession.stored storePart at hstored
    dsimp only at hstored
    split_ifs at hstored with hf
    · exact hasked hf
    · exact hflagged hstored

theorem receiveFragment_kept (h : Kept part asked addressed p)
    (hasked : f.wantsAck = true → asked f.seq) (hours : forUs = true → addressed f.seq) :
    Kept part asked addressed (receiveFragment cfg p f now forUs).1 := by
  obtain ⟨hwanted, hflagged⟩ := @Kept.stored cfg part asked addressed p f now forUs h hasked hours
  have hbox := (receiveFragment_outbox cfg p f now forUs).outbox
  have hwantedOld : ∀ seq r, (evictReasm p f.seq cfg.maxReasm).get seq = some r →
      r.wantAck = true → asked seq ∧ addressed seq := fun seq r hr => h.wanted seq r (get_evictReasm hr)
  have hflaggedOld : ∀ seq r, (evictReasm p f.seq cfg.maxReasm).get seq = some r →
      r.flags &&& Flags.ackReq ≠ 0 → asked seq := fun seq r hr => h.flagged seq r (get_evictReasm hr)
  refine ⟨hbox ▸ h.outbox, ?_, ?_, ?_⟩
  · rcases receiveFragment_cases cfg p f now forUs with hr | ⟨-, hr⟩ | ⟨-, hr⟩
    · rw [hr]
      exact h.owed
    · rw [hr]
      simp only [keepParts]
      split_ifs with hown
      · simp only [Bool.and_eq_true] at hown
        rintro _ ⟨rfl⟩
        exact ⟨hasked hown.1.2, hours hown.1.1⟩
      · exact h.owed
    · rw [hr]
      simp only [finishParts]
      split_ifs with hown
      · rintro _ ⟨rfl⟩
        simp only [Bool.or_eq_true, Bool.and_eq_true, bne_iff_ne] at hown
        rcases hown with hw | ⟨hu, hw | hw⟩
        · exact hwanted hw
        · exact ⟨hasked hw, hours hu⟩
        · exact ⟨hflagged hw, hours hu⟩
      · exact h.owed
  all_goals
    intro seq r hget
    rcases receiveFragment_cases cfg p f now forUs with hr | ⟨-, hr⟩ | ⟨-, hr⟩
  · rw [hr] at hget
    exact h.wanted seq r hget
  · rw [hr, keepParts_reasm, Table.get_set] at hget
    split_ifs at hget with hseq
    · obtain rfl := Option.some.inj hget
      exact hseq ▸ hwanted
    · exact hwantedOld seq r hget
  · rw [hr, finishParts_reasm, Table.get_erase] at hget
    split_ifs at hget
    exact hwantedOld seq r hget
  · rw [hr] at hget
    exact h.flagged seq r hget
  · rw [hr, keepParts_reasm, Table.get_set] at hget
    split_ifs at hget with hseq
    · obtain rfl := Option.some.inj hget
      exact hseq ▸ hflagged
    · exact hflaggedOld seq r hget
  · rw [hr, finishParts_reasm, Table.get_erase] at hget
    split_ifs at hget
    exact hflaggedOld seq r hget

theorem receiveMessage_kept (h : Kept part asked addressed p)
    (hasked : f.wantsAck = true → asked f.seq) (hours : forUs = true → addressed f.seq) :
    Kept part asked addressed (receiveMessage cfg p f now forUs).1 := by
  have hacked : Kept part asked addressed
      (if forUs && f.wantsAck then oweAck p f.seq none else p) := by
    split_ifs with hboth
    · rw [Bool.and_eq_true] at hboth
      refine ⟨h.outbox, ?_, h.wanted, h.flagged⟩
      rintro _ ⟨rfl⟩
      exact ⟨hasked hboth.2, hours hboth.1⟩
    · exact h
  unfold receiveMessage
  dsimp only
  generalize (if (forUs && f.wantsAck) = true then oweAck p f.seq none else p) = acked at hacked
  by_cases hseen : f.seq ∈ p.seen
  · rw [if_pos hseen]
    split_ifs with hk
    all_goals exact hacked
  · rw [if_neg hseen]
    by_cases htotal : f.fragTotal = 1
    · rw [if_pos htotal]
      exact ⟨hacked.outbox, hacked.owed, hacked.wanted, hacked.flagged⟩
    · rw [if_neg htotal]
      exact receiveFragment_kept h hasked hours

theorem receive_kept (h : Kept part asked addressed p) (hasked : f.wantsAck = true → asked f.seq)
    (hours : forUs = true → addressed f.seq) :
    Kept part asked addressed (p.receive cfg f now forUs).1 := by
  have hreset : Kept part asked addressed (helloReset p.noteAirc f) := by
    have hout := helloReset_outbox p f
    unfold helloReset at hout ⊢
    split_ifs at hout ⊢
    · refine ⟨fun frames hf => h.outbox frames (hout frames hf), fun o ho => (by cases ho), ?_, ?_⟩
      · intro seq r hr
        simp at hr
      · intro seq r hr
        simp at hr
    · exact h.same ⟨rfl, rfl, rfl⟩ hout
  have hpiggy : Kept part asked addressed (p.piggybacked f) :=
    hreset.same (applyPiggyback_inbox _ f) (applyPiggyback_outbox _ f).1
  by_cases hk : f.kind = .ack
  · rw [receive_of_ack hk]
    cases parseAckPayload f.payload with
    | none => exact hpiggy
    | some ack => exact hpiggy.same (applyAck_inbox _ ack.1 ack.2) (applyAck_outbox _ ack.1 ack.2).1
  · rw [receive_of_message hk]
    exact receiveMessage_kept hpiggy hasked hours

/-! ### Sending -/

theorem enqueue_kept (h : Kept part asked addressed p) {seq : UInt16} {kind : Kind}
    {payload : List UInt8} {reliable : Bool} {made : AircFrame → Prop}
    (hmade : ∀ cut, (chunkPayload payload cfg.maxPayload cut).length ≤ 255 →
      ∀ f ∈ fragments kind seq reliable (chunkPayload payload cfg.maxPayload cut), made f)
    (hpart : reliable = true → ∀ f, made f → part f) :
    Kept part asked addressed (p.enqueue cfg seq kind payload reliable).1 ∧
      ∀ f ∈ (p.enqueue cfg seq kind payload reliable).2.frames, made f ∨ reliable = true ∧
        ∃ g acked, made g ∧ (asked acked ∧ addressed acked) ∧ f = g.attachPiggyback acked := by
  have hcut : (p.parts cfg payload reliable).length ≤ 255 →
      ∀ f ∈ fragments kind seq reliable (p.parts cfg payload reliable), made f := hmade _
  have hqueued : ∀ frames ∈ p.queue, ∀ f ∈ frames, part f :=
    fun frames hf => h.outbox frames (List.mem_append_right _ hf)
  have hstarted : reliable = true → (p.parts cfg payload reliable).length ≤ 255 →
      ∀ frames ∈ fragments kind seq reliable (p.parts cfg payload reliable) :: p.queue,
        ∀ f ∈ frames, part f := by
    intro hr hfew frames hf
    rcases List.mem_cons.mp hf with rfl | hf
    · exact fun f hf => hpart hr f (hcut hfew f hf)
    · exact hqueued frames hf
  rcases enqueue_cases cfg p seq kind payload reliable with ⟨q, heq, hin, hout⟩ | ⟨hfew, ⟨-, heq⟩ |
      ⟨hr, -, -, heq⟩ | ⟨hr, -, heq⟩ | ⟨acked, hr, -, howed, heq⟩⟩
  · rw [heq]
    exact ⟨h.same hin fun frames hf => hout.outbox ▸ hf, fun f hf => absurd hf List.not_mem_nil⟩
  · rw [heq]
    exact ⟨h, fun f hf => .inl (hcut hfew f hf)⟩
  · rw [heq]
    refine ⟨⟨?_, h.owed, h.wanted, h.flagged⟩, fun f hf => absurd hf List.not_mem_nil⟩
    intro frames hf
    rcases List.mem_append.mp hf with hf | hf
    · exact h.outbox frames (List.mem_append_left _ hf)
    · rcases List.mem_append.mp hf with hf | hf
      · exact hqueued frames hf
      · rw [List.mem_singleton.mp hf]
        exact fun f hf => hpart hr f (hcut hfew f hf)
  · rw [heq]
    exact ⟨⟨hstarted hr hfew, h.owed, h.wanted, h.flagged⟩, fun f hf => .inl (hcut hfew f hf)⟩
  · rw [heq]
    refine ⟨⟨hstarted hr hfew, fun o ho => (by cases ho), h.wanted, h.flagged⟩, fun f hf => ?_⟩
    rcases ReliableDelivery.of_mem_modifyHead hf with hf | ⟨g, hg, rfl⟩
    · exact .inl (hcut hfew f hf)
    · exact .inr ⟨hr, g, acked, hcut hfew g hg, h.owed _ howed, rfl⟩

/-! ### All stations -/

section

variable {part part' : Callsign → AircFrame → Prop}
variable {asked addressed asked' addressed' : Callsign → UInt16 → Prop} {s : Sessions}

def AllKept (part : Callsign → AircFrame → Prop) (asked addressed : Callsign → UInt16 → Prop)
    (s : Sessions) : Prop :=
  ∀ call p, s.peer call = some p → Kept (part call) (asked call) (addressed call) p

/-- What may go out to any of the stations. -/
def Sends (part : Callsign → AircFrame → Prop) (asked addressed : Callsign → UInt16 → Prop)
    (e : Callsign × AircFrame) : Prop :=
  Outgoing (part e.1) (fun n => asked e.1 n ∧ addressed e.1 n) e.2

theorem AllKept.mono (h : AllKept part asked addressed s) (hpart : ∀ call f, part call f → part' call f)
    (hasked : ∀ call n, asked call n → asked' call n)
    (haddressed : ∀ call n, addressed call n → addressed' call n) :
    AllKept part' asked' addressed' s :=
  fun call p hp => (h call p hp).mono (hpart call) (hasked call) (haddressed call)

theorem AllKept.record (h : AllKept part asked addressed s) (call : Callsign) :
    Kept (part call) (asked call) (addressed call) (s.record call) := by
  unfold Sessions.record
  cases hp : s.peer call with
  | none => exact kept_new 0
  | some p => exact h call p hp

theorem AllKept.store (h : AllKept part asked addressed s) {call : Callsign} {p : Peer}
    (hp : Kept (part call) (asked call) (addressed call) p) :
    AllKept part asked addressed (s.store call p) := by
  intro j q hq
  rw [Sessions.peer_store] at hq
  split_ifs at hq with hj
  · obtain rfl := Option.some.inj hq
    exact hj ▸ hp
  · exact h j q hq

theorem AllKept.onReceive (h : AllKept part asked addressed s) (src : Callsign) (f : AircFrame)
    (now : ℕ) (forUs : Bool) (hasked : f.wantsAck = true → asked src f.seq)
    (hours : forUs = true → addressed src f.seq) :
    AllKept part asked addressed (s.onReceive src f now forUs).1 ∧
      ∀ next ∈ (s.onReceive src f now forUs).2.transmit, Sends part asked addressed (src, next) := by
  obtain ⟨-, heq⟩ | ⟨p, ht, heq⟩ := s.onReceive_cases src f now forUs
  · rw [heq]
    exact ⟨h, fun next hnext => absurd hnext List.not_mem_nil⟩
  · obtain ⟨hin, hout, -⟩ := Sessions.touched_same ht
    have hp : Kept (part src) (asked src) (addressed src) p :=
      (h.record src).same hin fun frames hf => hout.outbox ▸ hf
    rw [heq]
    refine ⟨h.store (receive_kept hp hasked hours), fun next hnext => ?_⟩
    exact hp.fromOutbox ((receive_outbox s.config p f now forUs).2 next hnext)

theorem AllKept.enqueue (h : AllKept part asked addressed s) (dst : Callsign) {kind : Kind}
    {payload : List UInt8} {reliable : Bool} (now : ℕ) {made : AircFrame → Prop}
    (hmade : ∀ seq cut, (chunkPayload payload s.config.maxPayload cut).length ≤ 255 →
      ∀ f ∈ fragments kind seq reliable (chunkPayload payload s.config.maxPayload cut), made f)
    (hpart : reliable = true → ∀ f, made f → part dst f) :
    AllKept part asked addressed (s.enqueue dst kind payload reliable now).1 ∧
      ∀ f ∈ (s.enqueue dst kind payload reliable now).2.frames, made f ∨ reliable = true ∧
        ∃ g acked, made g ∧ (asked dst acked ∧ addressed dst acked) ∧ f = g.attachPiggyback acked := by
  obtain ⟨t, -, hpeers, heq | ⟨p, hin, hout, heq⟩⟩ :=
    s.enqueue_cases dst kind payload reliable now
  all_goals
    have ht : AllKept part asked addressed t := by
      intro call q hq
      rcases hpeers call with hsame | ⟨-, hnone⟩
      · exact h call q (hsame ▸ hq)
      · rw [hnone] at hq
        cases hq
  · rw [heq]
    exact ⟨ht, fun f hf => absurd hf List.not_mem_nil⟩
  · have hp : Kept (part dst) (asked dst) (addressed dst) p :=
      (h.record dst).same hin fun frames hf => hout.outbox ▸ hf
    obtain ⟨hkept, hframes⟩ := enqueue_kept hp (hmade s.nextSeq) hpart
    rw [heq]
    exact ⟨ht.store hkept, hframes⟩

theorem AllKept.tickRetries (h : AllKept part asked addressed s) (now : ℕ) (retry : Bool) :
    AllKept part asked addressed (s.tickRetries now retry).1 ∧
      ∀ e ∈ (s.tickRetries now retry).2.transmit, Sends part asked addressed e := by
  refine ⟨fun call q hq => ?_, fun e he => ?_⟩
  · rw [Sessions.tickRetries_peer, Option.bind_eq_some_iff] at hq
    obtain ⟨p, hp, hq⟩ := hq
    obtain ⟨-, howed, hreasm, hadvances⟩ := ticked_after hq
    have hkept := h call p hp
    have hold : ∀ seq r, q.reasm.get seq = some r → p.reasm.get seq = some r := by
      intro seq r hr
      rw [hreasm, expireReasm, Table.get_filterMap, Option.bind_eq_some_iff] at hr
      obtain ⟨r', hget, hr⟩ := hr
      split_ifs at hr
      exact Option.some.inj hr ▸ hget
    exact ⟨fun frames hf => hkept.outbox frames (hadvances.outbox frames hf), howed ▸ hkept.owed,
      fun seq r hr => hkept.wanted seq r (hold seq r hr),
      fun seq r hr => hkept.flagged seq r (hold seq r hr)⟩
  · obtain ⟨call, f⟩ := e
    obtain ⟨p, hp, hf | hf⟩ := Sessions.mem_tickRetries he
    · exact (h call p hp).fromOutbox hf
    · obtain ⟨⟨seq, r⟩, hr, rfl⟩ := List.mem_map.mp hf
      obtain ⟨hmem, hexpired⟩ := List.mem_filter.mp hr
      rw [Bool.and_eq_true] at hexpired
      exact .ack ⟨seq, some (bitmapFromParts r.parts)⟩
        ((h call p hp).wanted seq r (Table.mem_entries_iff.mp hmem) hexpired.2)

theorem AllKept.drainAcks (h : AllKept part asked addressed s) :
    AllKept part asked addressed s.drainAcks.1 ∧
      ∀ e ∈ s.drainAcks.2, Sends part asked addressed e := by
  refine ⟨fun call q hq => ?_, fun e he => ?_⟩
  · rw [Sessions.drainAcks_peer, Option.map_eq_some_iff] at hq
    obtain ⟨p, hp, rfl⟩ := hq
    have hkept := h call p hp
    exact ⟨hkept.outbox, fun o ho => (by cases ho), hkept.wanted, hkept.flagged⟩
  · obtain ⟨call, f⟩ := e
    obtain ⟨p, o, hp, ho, rfl⟩ := Sessions.mem_drainAcks he
    exact .ack o ((h call p hp).owed o ho)

theorem AllKept.onKeyed (h : AllKept part asked addressed s) (dest : Callsign) (seq : UInt16)
    (now : ℕ) : AllKept part asked addressed (s.onKeyed dest seq now) := by
  intro call q hq
  rw [Sessions.onKeyed_peer] at hq
  split_ifs at hq with hcall
  · obtain ⟨p, hp, rfl⟩ := Option.map_eq_some_iff.mp hq
    exact (h call p hp).same (onKeyed_inbox ..) (onKeyed_advances ..).outbox
  · exact h call q hq

end

end SessionOrigins
