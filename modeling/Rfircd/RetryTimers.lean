import Rfircd.SessionSteps

/-! When the retry timer of a message in flight stands still, and what was sent at that moment. -/
namespace RetryTimers

open Basics Airc AircSession KeyedTable

/-- The same fragment, with other flags or another acknowledgement on it. -/
structure CopyOf (f g : AircFrame) : Prop where
  kind : g.kind = f.kind
  seq : g.seq = f.seq
  index : g.fragIndex = f.fragIndex
  total : g.fragTotal = f.fragTotal
  payload : g.payload = f.payload

theorem CopyOf.refl (f : AircFrame) : CopyOf f f := ⟨rfl, rfl, rfl, rfl, rfl⟩

theorem CopyOf.retry (f : AircFrame) : CopyOf f (retryFrame f) := ⟨rfl, rfl, rfl, rfl, rfl⟩

theorem CopyOf.piggyback (f : AircFrame) (seq : UInt16) : CopyOf f (f.attachPiggyback seq) :=
  ⟨rfl, rfl, rfl, rfl, rfl⟩

theorem CopyOf.withFlags {f g : AircFrame} (h : CopyOf f g) (flags : UInt8) :
    CopyOf f (g.withFlags flags) :=
  ⟨h.kind, h.seq, h.index, h.total, h.payload⟩

/-- The fragments of one message: at least one, all with one number, and numbered in turn. -/
structure OneMessage (frames : List AircFrame) : Prop where
  ne_nil : frames ≠ []
  seq : ∀ f ∈ frames, frames.head?.map AircFrame.seq = some f.seq
  index : ∀ f ∈ frames, f.fragIndex < f.fragTotal

/-- The sending half of a record is well formed. -/
structure Sound (p : Peer) : Prop where
  message : ∀ frames ∈ p.outbox, OneMessage frames
  marks : ∀ pd, p.pending = some pd → pd.acked.length = pd.frames.length

/-- A message whose timer stands still stood still before, or some of it was just sent. -/
def Restarted (p q : Peer) (out : List AircFrame) : Prop :=
  ∀ pd, q.pending = some pd → pd.nextRetry = none →
    (∃ old, p.pending = some old ∧ old.nextRetry = none ∧ old.frames = pd.frames) ∨
    ∃ f ∈ out, ∃ g ∈ pd.frames, CopyOf g f

theorem sound_blank (now : ℕ) : Sound (Peer.new now) where
  message frames hf := absurd hf List.not_mem_nil
  marks pd hp := by simp [Peer.new] at hp

theorem Sound.advance {p q : Peer} (h : Sound p) (ha : Advances p q) : Sound q where
  message frames hf := h.message frames (ha.outbox frames hf)
  marks pd hp := by
    rcases ha.marks pd hp with ⟨old, hold, hframes, hacked⟩ | hfresh
    · rw [hacked, hframes]
      exact h.marks old hold
    · rw [hfresh, List.length_map]

theorem Restarted.trans {p q r : Peer} {out out' : List AircFrame} (h : Restarted p q out)
    (h' : Restarted q r out') : Restarted p r (out ++ out') := by
  intro pd hp hn
  rcases h' pd hp hn with ⟨old, hold, hnone, hframes⟩ | ⟨f, hf, hcopy⟩
  · rcases h old hold hnone with ⟨older, hp, hnone', hframes'⟩ | ⟨f, hf, hcopy⟩
    · exact .inl ⟨older, hp, hnone', hframes'.trans hframes⟩
    · rw [hframes] at hcopy
      exact .inr ⟨f, List.mem_append_left _ hf, hcopy⟩
  · exact .inr ⟨f, List.mem_append_right _ hf, hcopy⟩

theorem restarted_of_pending {p q : Peer} (h : q.pending = p.pending) (out : List AircFrame) :
    Restarted p q out :=
  fun pd hp hn => .inl ⟨pd, h ▸ hp, hn, rfl⟩

theorem restarted_of_none {p q : Peer} (h : q.pending = none) (out : List AircFrame) :
    Restarted p q out := by
  intro pd hp
  rw [h] at hp
  simp at hp

theorem releasePending_restarted {p : Peer} (h : Sound p) :
    Restarted p (releasePending p).1 (releasePending p).2 := by
  intro pd hp _
  unfold releasePending startPending at hp ⊢
  cases hq : p.queue with
  | nil => simp [hq] at hp
  | cons next queue =>
    simp only [hq, Option.some.injEq] at hp ⊢
    subst hp
    have hone := h.message next (List.mem_append_right _ (by rw [hq]; exact List.mem_cons_self))
    obtain ⟨f, hf⟩ := List.exists_mem_of_ne_nil next hone.ne_nil
    exact .inr ⟨f, hf, f, hf, .refl f⟩

/-- What a bitmap leaves open is sent again. -/
theorem missing_ne_nil {pd : Pending} (hlen : pd.acked.length = pd.frames.length)
    (h : (pd.acked.all fun flag => flag) = false) : ∃ f ∈ pd.missing, ∃ g ∈ pd.frames, CopyOf g f := by
  rw [List.all_eq_false] at h
  obtain ⟨flag, hflag, hopen⟩ := h
  obtain ⟨i, hi, rfl⟩ := List.mem_iff_getElem.mp hflag
  have hi' : i < pd.frames.length := hlen ▸ hi
  refine ⟨retryFrame pd.frames[i], ?_, pd.frames[i], List.getElem_mem hi', .retry _⟩
  refine List.mem_map.mpr ⟨(pd.frames[i], i), List.mem_filter.mpr ⟨?_, ?_⟩, rfl⟩
  · exact List.mem_zipIdx_iff_getElem?.mpr (List.getElem?_eq_getElem hi')
  · simpa [List.getElem?_eq_getElem hi] using hopen

theorem applyAck_restarted {p : Peer} (h : Sound p) (seq : UInt16)
    (bitmap : Option (List UInt8)) :
    Sound (applyAck p seq bitmap).1 ∧
    Restarted p (applyAck p seq bitmap).1 (applyAck p seq bitmap).2 := by
  obtain ⟨hr, -⟩ | ⟨pd, bits, hp, -, rfl, hc, -, hr⟩ | ⟨pd, -, -, -, hr⟩ := applyAck_cases p seq bitmap
  · rw [hr]
    exact ⟨h, restarted_of_pending rfl _⟩
  · have hlen : (pd.mark bits).acked.length = (pd.mark bits).frames.length := by
      simpa [Pending.mark] using h.marks pd hp
    rw [hr]
    refine ⟨⟨?_, ?_⟩, ?_⟩
    · intro frames hf
      exact h.message frames (by simpa [Peer.outbox, hp, Pending.mark] using hf)
    · intro pd' hpd'
      obtain rfl := Option.some.inj hpd'
      exact hlen
    · intro pd' hpd' _
      obtain rfl := Option.some.inj hpd'
      exact .inr (missing_ne_nil hlen hc)
  · rw [hr]
    exact ⟨h.advance (releasePending_advances p), releasePending_restarted h⟩

theorem helloReset_restarted (p : Peer) (f : AircFrame) :
    Restarted p (helloReset p.noteAirc f) [] := by
  unfold helloReset
  split_ifs
  · exact restarted_of_none rfl _
  · exact restarted_of_pending rfl _

theorem applyPiggyback_restarted {p : Peer} (h : Sound p) (f : AircFrame) :
    Sound (applyPiggyback p f).1 ∧ Restarted p (applyPiggyback p f).1 (applyPiggyback p f).2 := by
  unfold applyPiggyback
  cases f.piggybackSeq with
  | none => exact ⟨h, restarted_of_pending rfl _⟩
  | some seq => exact applyAck_restarted h seq none

theorem receive_restarted {cfg : SessionConfig} {p : Peer} (h : Sound p) (f : AircFrame) (now : ℕ)
    (addressedToUs : Bool) :
    Sound (p.receive cfg f now addressedToUs).1 ∧
    Restarted p (p.receive cfg f now addressedToUs).1
      (p.receive cfg f now addressedToUs).2.transmit := by
  have hreset := h.advance (helloReset_advances p f)
  obtain ⟨hpiggy, hrestart⟩ := applyPiggyback_restarted hreset f
  have hrestart := (helloReset_restarted p f).trans hrestart
  rw [List.nil_append] at hrestart
  by_cases hk : f.kind = .ack
  · rw [receive_of_ack hk]
    cases parseAckPayload f.payload with
    | none => exact ⟨hpiggy, hrestart⟩
    | some parsed =>
      obtain ⟨hsound, hack⟩ := applyAck_restarted hpiggy parsed.1 parsed.2
      exact ⟨hsound, hrestart.trans hack⟩
  · rw [receive_of_message hk]
    have hsame := receiveMessage_outbox cfg (p.piggybacked f) f now addressedToUs
    refine ⟨hpiggy.advance hsame.advances, ?_⟩
    have := hrestart.trans (restarted_of_pending hsame.pending [])
    rwa [List.append_nil] at this

/-- A tick starts timers; it starts a message only when another is given up. -/
theorem tick_restarted (cfg : SessionConfig) (p : Peer) (now : ℕ) (retry : Bool)
    (out : List AircFrame) : Restarted p (p.tick cfg now retry).1 out := by
  have hpending : (expireReasm cfg p now).1.pending = p.pending := rfl
  simp only [Peer.tick, hpending]
  cases hp : p.pending with
  | none => split_ifs <;> exact restarted_of_pending hpending out
  | some pd =>
    simp only
    split_ifs
    · exact restarted_of_pending hpending out
    · exact restarted_of_pending hpending out
    · exact restarted_of_pending hpending out
    · exact restarted_of_pending hpending out
    · intro pd' hpd' hn
      obtain rfl := Option.some.inj hpd'
      simp [retryPending] at hn

theorem ticked_restarted {s : Sessions} {now : ℕ} {retry : Bool} {p q : Peer} (h : Sound p)
    (hq : (s.ticked now retry p).1 = some q) :
    Restarted p q ((s.ticked now retry p).2.1 ++ (s.ticked now retry p).2.2) := by
  have hsound : Sound (p.tick s.config now retry).1 :=
    h.advance (tick_after s.config p now retry).1.advances
  have htick := tick_restarted s.config p now retry (p.tick s.config now retry).2.1
  unfold Sessions.ticked at hq ⊢
  rcases hk : p.tick s.config now retry with ⟨r, frames, - | - | -⟩
  · rw [hk] at hq htick
    obtain rfl := Option.some.inj hq
    simpa using htick
  · simp [hk] at hq
  · rw [hk] at hq hsound htick
    simp only at hq htick ⊢
    unfold Peer.abandon at hq ⊢
    cases hqueue : r.queue with
    | nil => simp [hqueue] at hq
    | cons next queue =>
      simp only [hqueue, Option.some.injEq] at hq ⊢
      have hdropped : Sound { r with dropped := r.dropped + 1 } := ⟨hsound.message, hsound.marks⟩
      have hrelease := releasePending_restarted hdropped
      simp only [hqueue] at hrelease
      rw [hq] at hrelease
      have hcount : Restarted r { r with dropped := r.dropped + 1 } [] :=
        restarted_of_pending rfl []
      have := (htick.trans hcount).trans hrelease
      rwa [List.append_nil] at this

/-! ### New messages -/

theorem oneMessage_fragments (kind : Kind) (seq : UInt16) (reliable : Bool)
    {parts : List (List UInt8)} (hne : parts ≠ []) (hfew : parts.length ≤ 255) :
    OneMessage (fragments kind seq reliable parts) := by
  have hmem : ∀ f ∈ fragments kind seq reliable parts, f.seq = seq ∧ f.fragIndex < f.fragTotal := by
    intro f hf
    obtain ⟨i, hi, rfl⟩ := List.mem_mapIdx.mp hf
    refine ⟨rfl, UInt8.lt_iff_toNat_lt.mpr ?_⟩
    simp only [UInt8.toNat_ofNat']
    omega
  refine ⟨?_, ?_, fun f hf => (hmem f hf).2⟩
  · intro h
    have hlen : (fragments kind seq reliable parts).length = parts.length := List.length_mapIdx
    rw [h] at hlen
    exact hne (List.eq_nil_of_length_eq_zero hlen.symm)
  · intro f hf
    cases hl : fragments kind seq reliable parts with
    | nil => simp [hl] at hf
    | cons g rest =>
      have hg := (hmem g (by simp [hl])).1
      simp [hg, (hmem f hf).1]

theorem startPending_sound {p : Peer} {frames : List AircFrame} (hone : OneMessage frames)
    (hq : ∀ frames ∈ p.queue, OneMessage frames) : Sound (startPending p frames).1 where
  message l hl := by
    rcases List.mem_cons.mp hl with rfl | hl
    · exact hone
    · exact hq l hl
  marks pd hp := by
    obtain rfl := Option.some.inj hp
    exact List.length_map _

/-- A new message is in flight only when none was; its first frame goes out at once. -/
theorem enqueue_restarted {cfg : SessionConfig} {p : Peer} (h : Sound p) (seq : UInt16)
    (kind : Kind) (payload : List UInt8) (reliable : Bool) :
    let r := p.enqueue cfg seq kind payload reliable
    Sound r.1 ∧ (r.1.pending = p.pending ∨
      p.pending = none ∧ r.2.accepted = true ∧ ∃ f rest, r.2.frames = f :: rest ∧
        ∀ pd, r.1.pending = some pd → ∃ g ∈ pd.frames, CopyOf g f) := by
  have hone := fun hfew => oneMessage_fragments kind seq reliable
    (chunkPayload_ne_nil payload cfg.maxPayload (takePiggyback cfg p reliable).1.isSome) hfew
  intro r
  obtain ⟨q, hr, -, hout⟩ |
      ⟨hfew, ⟨-, hr⟩ | ⟨-, -, -, hr⟩ | ⟨-, hp, hr⟩ | ⟨acked, -, hp, -, hr⟩⟩ :=
    enqueue_cases cfg p seq kind payload reliable
  · rw [show r = _ from hr]
    exact ⟨h.advance hout.advances, .inl hout.pending⟩
  · rw [show r = _ from hr]
    exact ⟨h, .inl rfl⟩
  · rw [show r = _ from hr]
    refine ⟨⟨?_, h.marks⟩, .inl rfl⟩
    intro frames hf
    simp only [Peer.outbox, List.mem_append, List.mem_singleton] at hf
    rcases hf with hf | hf | rfl
    · exact h.message frames (List.mem_append_left _ hf)
    · exact h.message frames (List.mem_append_right _ hf)
    · exact hone hfew
  all_goals
    have hqueue : ∀ frames ∈ p.queue, OneMessage frames :=
      fun frames hf => h.message frames (List.mem_append_right _ hf)
    obtain ⟨f, rest, hframes⟩ := List.exists_cons_of_ne_nil (hone hfew).ne_nil
    change fragments kind seq reliable (p.parts cfg payload reliable) = f :: rest at hframes
    rw [show r = _ from hr]
  · refine ⟨startPending_sound (hone hfew) hqueue, .inr ⟨hp, rfl, f, rest, hframes, ?_⟩⟩
    intro pd hpd
    obtain rfl := Option.some.inj hpd
    exact ⟨f, by simp [hframes], .refl f⟩
  · refine ⟨startPending_sound (hone hfew) hqueue, .inr ⟨hp, rfl, f.attachPiggyback acked, rest, ?_, ?_⟩⟩
    · simp only [hframes, List.modifyHead_cons]
    · intro pd hpd
      obtain rfl := Option.some.inj hpd
      exact ⟨f, by simp [hframes], .piggyback f acked⟩

/-! ### All stations -/

/-- A step of the session layer that hands over the frames of what it starts. -/
structure Follows (s t : Sessions) (out : List (Callsign × AircFrame)) : Prop where
  sound : ∀ c, Sound (t.record c)
  restarted : ∀ c, Restarted (s.record c) (t.record c) (framesTo c out)

variable {s : Sessions}

theorem sound_of_same {p q : Peer} (h : Sound p) (hs : SameOutbox p q) : Sound q :=
  h.advance hs.advances

theorem follows_of_pending {t : Sessions} (h : ∀ c, Sound (s.record c))
    (hs : ∀ c, SameOutbox (s.record c) (t.record c) ∨ ∃ now, t.record c = Peer.new now)
    (out : List (Callsign × AircFrame)) : Follows s t out := by
  constructor
  · intro c
    rcases hs c with hs | ⟨now, hs⟩
    · exact sound_of_same (h c) hs
    · rw [hs]
      exact sound_blank now
  · intro c
    rcases hs c with hs | ⟨now, hs⟩
    · exact restarted_of_pending hs.pending _
    · rw [hs]
      exact restarted_of_none rfl _

theorem framesTo_map (c : Callsign) (frames : List AircFrame) (src : Callsign) :
    framesTo c (frames.map (src, ·)) = if src = c then frames else [] := by
  induction frames with
  | nil => simp [framesTo]
  | cons f frames ih =>
    simp only [framesTo, List.map_cons, List.filterMap_cons] at ih ⊢
    split_ifs at ih ⊢ <;> simp [ih]

theorem onReceive_follows (h : ∀ c, Sound (s.record c)) (src : Callsign) (f : AircFrame)
    (now : ℕ) (addressedToUs : Bool) :
    Follows s (s.onReceive src f now addressedToUs).1
      ((s.onReceive src f now addressedToUs).2.transmit.map (src, ·)) := by
  obtain ⟨-, hr⟩ | ⟨p, ht, hr⟩ := s.onReceive_cases src f now addressedToUs
  · rw [hr]
    exact follows_of_pending h (fun c => .inl ⟨rfl, rfl⟩) _
  · have hsame := (Sessions.touched_same ht).2.1
    have hp := sound_of_same (h src) hsame
    obtain ⟨hsound, hrestart⟩ := @receive_restarted s.config p hp f now addressedToUs
    rw [hr]
    constructor
    · intro c
      by_cases hc : c = src
      · rw [hc, Sessions.record_store_self]
        exact hsound
      · rw [Sessions.record_store_ne _ hc]
        exact h c
    · intro c
      rw [framesTo_map]
      by_cases hc : c = src
      · subst hc
        rw [Sessions.record_store_self, if_pos rfl]
        have := (restarted_of_pending hsame.pending []).trans hrestart
        rwa [List.nil_append] at this
      · rw [Sessions.record_store_ne _ hc]
        exact restarted_of_pending rfl _

theorem mem_framesTo_tick {now : ℕ} {retry : Bool} {c : Callsign} {p : Peer} {f : AircFrame}
    (hp : s.peer c = some p)
    (hf : f ∈ (s.ticked now retry p).2.1 ++ (s.ticked now retry p).2.2) :
    f ∈ framesTo c (s.tickRetries now retry).2.transmit := by
  have he := Table.mem_entries_iff.mpr hp
  rw [mem_framesTo]
  rcases List.mem_append.mp hf with hf | hf
  · exact List.mem_append_left _ (List.mem_flatMap.mpr ⟨_, he, List.mem_map.mpr ⟨f, hf, rfl⟩⟩)
  · exact List.mem_append_right _ (List.mem_flatMap.mpr ⟨_, he, List.mem_map.mpr ⟨f, hf, rfl⟩⟩)

theorem tickRetries_follows (h : ∀ c, Sound (s.record c)) (now : ℕ) (retry : Bool) :
    Follows s (s.tickRetries now retry).1 (s.tickRetries now retry).2.transmit := by
  have hcase : ∀ c, (∃ p q, s.peer c = some p ∧ (s.ticked now retry p).1 = some q ∧
      (s.tickRetries now retry).1.record c = q) ∨
      (s.tickRetries now retry).1.record c = Peer.new 0 := by
    intro c
    rw [Sessions.record, Sessions.tickRetries_peer]
    cases hp : s.peer c with
    | none => exact .inr rfl
    | some p =>
      cases hq : (s.ticked now retry p).1 with
      | none => exact .inr (by simp [hq])
      | some q => exact .inl ⟨p, q, rfl, hq, by simp [hq]⟩
  constructor
  · intro c
    rcases hcase c with ⟨p, q, hp, hq, hr⟩ | hr
    · rw [hr]
      have hc := h c
      rw [Sessions.record, hp] at hc
      exact hc.advance (ticked_after hq).advances
    · rw [hr]
      exact sound_blank 0
  · intro c
    rcases hcase c with ⟨p, q, hp, hq, hr⟩ | hr
    · have hc := h c
      have hrec : s.record c = p := by rw [Sessions.record, hp]; rfl
      rw [hrec] at hc
      rw [hr, hrec]
      intro pd hpd hn
      rcases ticked_restarted hc hq pd hpd hn with hold | ⟨f, hf, hcopy⟩
      · exact .inl hold
      · exact .inr ⟨f, mem_framesTo_tick hp hf, hcopy⟩
    · rw [hr]
      exact restarted_of_none rfl _

theorem drainAcks_follows (h : ∀ c, Sound (s.record c)) (out : List (Callsign × AircFrame)) :
    Follows s s.drainAcks.1 out := by
  refine follows_of_pending h (fun c => .inl ?_) out
  rw [Sessions.record, Sessions.record, Sessions.drainAcks_peer]
  cases s.peer c <;> exact ⟨rfl, rfl⟩

theorem forget_follows (h : ∀ c, Sound (s.record c)) (call : Callsign) :
    Follows s (s.forget call) [] := by
  refine follows_of_pending h (fun c => ?_) []
  simp only [Sessions.record, Sessions.peer, Sessions.forget, Table.get_erase]
  split_ifs
  · exact .inr ⟨0, rfl⟩
  · exact .inl ⟨rfl, rfl⟩

theorem store_follows (h : ∀ c, Sound (s.record c)) {call : Callsign} {p : Peer}
    (hp : SameOutbox (s.record call) p) (out : List (Callsign × AircFrame)) :
    Follows s (s.store call p) out := by
  refine follows_of_pending h (fun c => .inl ?_) out
  by_cases hc : c = call
  · rw [hc, Sessions.record_store_self]
    exact hp
  · rw [Sessions.record_store_ne _ hc]
    exact ⟨rfl, rfl⟩

end RetryTimers
