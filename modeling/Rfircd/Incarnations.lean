import Rfircd.ReliableDelivery

/-! What a station remembers of the present incarnation of another one.
A restarted station counts its messages from one again, while its correspondent still knows the
numbers of the messages before. -/
namespace Incarnations

open Basics Airc AircSession KeyedTable FragmentBuffers

/-- The part of a record that is about the numbers of `mine`; the owed acknowledgement is part
of it if it is `own`. -/
def only (p : Peer) (mine : UInt16 → Bool) (own : Bool) : Peer :=
  { p with
    seen := p.seen.filter mine
    reasm := p.reasm.filterMap fun s r => if mine s then some r else none
    owedAck := if own then p.owedAck else none }

/-- Whether a reception leaves an acknowledgement owed. -/
def owes (cfg : SessionConfig) (p : Peer) (f : AircFrame) (now : ℕ) (addressedToUs : Bool) : Bool :=
  (receiveMessage cfg { p with owedAck := none } f now addressedToUs).1.owedAck.isSome

/-- Whose number it is once a frame has been received; a HELLO in one frame is taken in again. -/
def rebound (mine : UInt16 → Bool) (p : Peer) (f : AircFrame) (ours : Bool) (s : UInt16) : Bool :=
  if s = f.seq ∧ (f.seq ∉ p.seen ∨ ours = true ∧ f.kind = .hello ∧ f.fragTotal = 1) then ours
  else mine s

section

variable {cfg : SessionConfig} {p : Peer} {f : AircFrame} {now : ℕ} {addressedToUs : Bool}

/-- What becomes of a frame, and of the acknowledgement that is owed. -/
inductive Branch (cfg : SessionConfig) (p : Peer) (f : AircFrame) (now : ℕ)
    (addressedToUs : Bool) : Peer → Option AircFrame → Prop where
  | known (q deliver) : f.seq ∈ p.seen → q.seen = p.seen → q.reasm = p.reasm →
      deliver = (if f.kind = .hello then some f else none) →
      q.owedAck = (if owes cfg p f now addressedToUs then some ⟨f.seq, none⟩ else p.owedAck) →
      Branch cfg p f now addressedToUs q deliver
  | single (q) : f.seq ∉ p.seen → f.fragTotal = 1 → (∀ s ∈ q.seen, s ∈ p.seen ∨ s = f.seq) →
      q.reasm = p.reasm →
      q.owedAck = (if owes cfg p f now addressedToUs then some ⟨f.seq, none⟩ else p.owedAck) →
      Branch cfg p f now addressedToUs q (some f)
  | dropped : f.seq ∉ p.seen → owes cfg p f now addressedToUs = false →
      Branch cfg p f now addressedToUs p none
  | kept (q) : f.seq ∉ p.seen → f.fragTotal ≠ 1 → f.payload.length ≤ cfg.maxPayload →
      (stored cfg p f now addressedToUs).complete = false → q.seen = p.seen →
      q.reasm = (evictReasm p f.seq cfg.maxReasm).set f.seq (stored cfg p f now addressedToUs) →
      q.owedAck = (if owes cfg p f now addressedToUs then
        some ⟨f.seq, some (bitmapFromParts (stored cfg p f now addressedToUs).parts)⟩
        else p.owedAck) →
      Branch cfg p f now addressedToUs q none
  | finished (q) : f.seq ∉ p.seen → f.fragTotal ≠ 1 → f.payload.length ≤ cfg.maxPayload →
      (stored cfg p f now addressedToUs).complete = true →
      (∀ s ∈ q.seen, s ∈ p.seen ∨ s = f.seq) →
      q.reasm = (evictReasm p f.seq cfg.maxReasm).erase f.seq →
      q.owedAck = (if owes cfg p f now addressedToUs then some ⟨f.seq, none⟩ else p.owedAck) →
      Branch cfg p f now addressedToUs q (some ((stored cfg p f now addressedToUs).message f.seq))

theorem receiveMessage_branch (cfg : SessionConfig) (p : Peer) (f : AircFrame) (now : ℕ)
    (addressedToUs : Bool) :
    Branch cfg p f now addressedToUs (receiveMessage cfg p f now addressedToUs).1
      (receiveMessage cfg p f now addressedToUs).2.1 := by
  by_cases hseen : f.seq ∈ p.seen
  · apply Branch.known _ _ hseen
    all_goals
      simp only [receiveMessage, owes, if_pos hseen]
      split_ifs <;> simp_all [oweAck]
  by_cases htotal : f.fragTotal = 1
  · have hdeliver : (receiveMessage cfg p f now addressedToUs).2.1 = some f := by
      simp only [receiveMessage, if_neg hseen, if_pos htotal]
    rw [hdeliver]
    apply Branch.single _ hseen htotal
    · intro s hs
      simp only [receiveMessage, if_neg hseen, if_pos htotal] at hs
      split_ifs at hs <;> exact mem_rememberSeq hs
    · simp only [receiveMessage, if_neg hseen, if_pos htotal]
      split_ifs <;> rfl
    · simp only [receiveMessage, owes, if_neg hseen, if_pos htotal]
      split_ifs <;> simp_all [oweAck, rememberSeq]
  · have hfragment : ∀ p' : Peer, p'.seen = p.seen →
        (receiveMessage cfg p' f now addressedToUs).1 =
          (receiveFragment cfg p' f now addressedToUs).1 := by
      intro p' hp'
      simp only [receiveMessage, hp', if_neg hseen, if_neg htotal]
    have hdeliver : (receiveMessage cfg p f now addressedToUs).2.1 =
        (receiveFragment cfg p f now addressedToUs).2 := by
      simp only [receiveMessage, if_neg hseen, if_neg htotal]
    have howes : owes cfg p f now addressedToUs =
        (receiveFragment cfg { p with owedAck := none } f now addressedToUs).1.owedAck.isSome :=
      congrArg (fun q : Peer => q.owedAck.isSome) (hfragment _ rfl)
    rw [hfragment p rfl, hdeliver]
    by_cases hlong : cfg.maxPayload < f.payload.length
    · simp only [receiveFragment, if_pos hlong] at howes ⊢
      exact .dropped hseen howes
    have hlen := Nat.le_of_not_lt hlong
    simp only [receiveFragment, if_neg hlong] at howes ⊢
    cases hc : (stored cfg p f now addressedToUs).complete with
    | false =>
      have hc' : (stored cfg { p with owedAck := none } f now addressedToUs).complete = false := hc
      simp only [hc', Bool.not_false, if_true] at howes ⊢
      refine .kept _ hseen htotal hlen hc (keepParts_seen ..) (keepParts_reasm ..) ?_
      rw [howes]
      simp only [keepParts]
      split_ifs <;> simp_all [oweAck]
    | true =>
      have hc' : (stored cfg { p with owedAck := none } f now addressedToUs).complete = true := hc
      simp only [hc', Bool.not_true, Bool.false_eq_true, if_false] at howes ⊢
      refine .finished _ hseen htotal hlen hc (fun s hs => finishParts_seen _ _ _ _ _ hs)
        (finishParts_reasm ..) ?_
      rw [howes]
      have hsame : stored cfg { p with owedAck := none } f now addressedToUs =
          stored cfg p f now addressedToUs := rfl
      simp only [finishParts, hsame]
      split_ifs <;> simp_all [oweAck, rememberSeq]

end

/-! ### Receiving -/

theorem mem_only_seen {p : Peer} {mine : UInt16 → Bool} {own : Bool} {s : UInt16} :
    s ∈ (only p mine own).seen ↔ s ∈ p.seen ∧ mine s = true := List.mem_filter

theorem only_get (p : Peer) (mine : UInt16 → Bool) (own : Bool) (s : UInt16) :
    (only p mine own).reasm.get s = if mine s = true then p.reasm.get s else none := by
  rw [only, Table.get_filterMap]
  cases p.reasm.get s with
  | none => simp
  | some r => split_ifs <;> rfl

theorem only_get_some {p : Peer} {mine : UInt16 → Bool} {own : Bool} {s : UInt16}
    {r : Reassembly} :
    (only p mine own).reasm.get s = some r ↔ mine s = true ∧ p.reasm.get s = some r := by
  rw [only_get]
  split_ifs with h <;> simp [h]

section

variable {messages : List Message} {wanted kept : UInt16 → Prop} {p q : Peer}
variable {d dl : List AircFrame} {mine mine' : UInt16 → Bool} {own own' : Bool}

theorem carries_only (h : ∀ m ∈ messages, kept m.seq → mine m.seq = true →
      ∀ r, p.reasm.get m.seq = some r → Delivered (d ++ dl) m ∨
        mine' m.seq = true ∧ ∃ r', q.reasm.get m.seq = some r' ∧ ∀ i, HasPart r i → HasPart r' i) :
    Carries messages kept (only p mine own) d (only q mine' own') (d ++ dl) where
  delivered _ hm := hm.append dl
  arrived m hm hk i hi := by
    rcases hi with hi | ⟨r, hr, hi⟩
    · exact .inl (hi.append dl)
    · obtain ⟨hmine, hr⟩ := only_get_some.mp hr
      rcases h m hm hk hmine r hr with hd | ⟨hmine', r', hr', hparts⟩
      · exact .inl hd
      · exact .inr ⟨r', only_get_some.mpr ⟨hmine', hr'⟩, hparts i hi⟩

/-- What was owed stays true, and what is owed now is. -/
theorem owed_only (h : Inbox messages wanted (only p mine own) d)
    (hc : Carries messages kept (only p mine own) d (only q mine' own') (d ++ dl))
    (howed : ∀ o, (only p mine own).owedAck = some o → o.bitmap.isSome → wanted o.seq → kept o.seq)
    {w : Bool} {new : OwedAck} {own₁ : Bool}
    (hq : q.owedAck = if w then some new else p.owedAck) (hown : own' = if w then own₁ else own)
    (hnew : own₁ = true → new.bitmap ≠ some [] ∧
      Backed messages wanted (only q mine' own') (d ++ dl) new.seq new.bitmap) :
    ∀ o, (only q mine' own').owedAck = some o → o.bitmap ≠ some [] ∧
      Backed messages wanted (only q mine' own') (d ++ dl) o.seq o.bitmap := by
  intro o ho
  have hfield : (only q mine' own').owedAck = if own' then q.owedAck else none := rfl
  rw [hfield] at ho
  cases w with
  | true =>
    simp only [if_true] at hq hown
    rw [hq] at ho
    split_ifs at ho with ht
    obtain rfl := Option.some.inj ho
    exact hnew (hown ▸ ht)
  | false =>
    simp only [Bool.false_eq_true, if_false] at hq hown
    rw [hq, hown] at ho
    have hold := h.owed o ho
    exact ⟨hold.1, hold.2.carry hc (howed o ho)⟩

variable {cfg : SessionConfig} {f : AircFrame} {now : ℕ} {addressedToUs : Bool} {ours : Bool}

/-- What a reception assumes of the numbers: a buffer is for the message the frame is a part of,
and a number that is known is known for this message or is that of a HELLO in one frame. -/
structure Attributed (mine : UInt16 → Bool) (p : Peer) (f : AircFrame) (ours : Bool) : Prop where
  buffer : f.seq ∉ p.seen → f.seq ∈ p.reasm.keys → mine f.seq = ours
  seen : ours = true → f.seq ∈ p.seen → mine f.seq = true ∨
    f.kind = .hello ∧ f.fragTotal = 1 ∧ f.seq ∉ p.reasm.keys

theorem rebound_ne {s : UInt16} (hs : s ≠ f.seq) : rebound mine p f ours s = mine s :=
  if_neg fun h => hs h.1

theorem rebound_new (hn : f.seq ∉ p.seen) : rebound mine p f ours f.seq = ours :=
  if_pos ⟨rfl, .inl hn⟩

/-- The number of a buffer stays whose it was. -/
theorem rebound_buffer (ha : Attributed mine p f ours) {s : UInt16} {r : Reassembly}
    (hr : p.reasm.get s = some r) : rebound mine p f ours s = mine s := by
  by_cases hs : s = f.seq
  · subst hs
    have hkey : f.seq ∈ p.reasm.keys := Table.mem_keys_iff.mpr (by simp [hr])
    by_cases hn : f.seq ∈ p.seen
    · rw [rebound]
      split_ifs with hc
      · obtain ⟨-, hc | ⟨ho, -⟩⟩ := hc
        · exact absurd hn hc
        · rcases ha.seen ho hn with hm | ⟨-, -, hno⟩
          · rw [hm, ho]
          · exact absurd hkey hno
      · rfl
    · rw [rebound_new hn, ha.buffer hn hkey]
  · exact rebound_ne hs

/-- Where the buffers stay, what is ours in them stays. -/
theorem carries_rebound (ha : Attributed mine p f ours) (hreasm : q.reasm = p.reasm) :
    Carries messages kept (only p mine own) d (only q (rebound mine p f ours) own') (d ++ dl) := by
  apply carries_only
  intro m hm hk hmine r hr
  exact .inr ⟨by rw [rebound_buffer ha hr, hmine], r, by rw [hreasm, hr], fun _ hi => hi⟩

theorem buffers_rebound (h : Inbox messages wanted (only p mine own) d) (ha : Attributed mine p f ours)
    (hreasm : q.reasm = p.reasm) : ∀ s r, (only q (rebound mine p f ours) own').reasm.get s = some r →
      ∃ m ∈ messages, m.seq = s ∧ BufferOf m r ∧ r.complete = false := by
  intro s r hr
  obtain ⟨hmine, hr⟩ := only_get_some.mp hr
  rw [hreasm] at hr
  rw [rebound_buffer ha hr] at hmine
  exact h.buffers s r (only_get_some.mpr ⟨hmine, hr⟩)

/-- A number that was known before is not that of a new frame. -/
theorem seen_before (h : Inbox messages wanted (only p mine own) d) (hnew : f.seq ∉ p.seen) {s : UInt16}
    (hs : s ∈ p.seen) (hmine : rebound mine p f ours s = true) :
    ∃ m ∈ messages, m.seq = s ∧ Delivered (d ++ dl) m := by
  rw [rebound_ne (fun he => hnew (he ▸ hs))] at hmine
  obtain ⟨m, hm, hseq, hd⟩ := h.seen s (mem_only_seen.mpr ⟨hs, hmine⟩)
  exact ⟨m, hm, hseq, hd.append dl⟩

/-- A number that becomes known is that of the message that the frame completes. -/
theorem seen_rebound (h : Inbox messages wanted (only p mine own) d) (hnew : f.seq ∉ p.seen)
    (hqseen : ∀ s ∈ q.seen, s ∈ p.seen ∨ s = f.seq)
    (hdone : ours = true → ∃ m ∈ messages, m.seq = f.seq ∧ Delivered (d ++ dl) m) :
    ∀ s ∈ (only q (rebound mine p f ours) own').seen,
      ∃ m ∈ messages, m.seq = s ∧ Delivered (d ++ dl) m := by
  intro s hs
  obtain ⟨hs, hmine⟩ := mem_only_seen.mp hs
  rcases hqseen s hs with hold | rfl
  · exact seen_before h hnew hold hmine
  · rw [rebound_new hnew] at hmine
    exact hdone hmine

/-- A buffer that has to be kept is not evicted. -/
theorem buffer_stays (hroom : ∀ s ∈ p.reasm.keys, s ∉ (evictReasm p f.seq cfg.maxReasm).keys →
      ¬ (mine s = true ∧ kept s)) {s : UInt16} {r : Reassembly} (hr : p.reasm.get s = some r)
    (hmine : mine s = true) (hk : kept s) : (evictReasm p f.seq cfg.maxReasm).get s = some r := by
  have hstays : s ∈ (evictReasm p f.seq cfg.maxReasm).keys := by
    by_contra hgone
    exact hroom s (Table.mem_keys_iff.mpr (by simp [hr])) hgone ⟨hmine, hk⟩
  obtain ⟨r', hr'⟩ := Option.isSome_iff_exists.mp (Table.mem_keys_iff.mp hstays)
  obtain rfl := Option.some.inj ((get_evictReasm hr').symm.trans hr)
  exact hr'

theorem receive_known (h : Inbox messages wanted (only p mine own) d)
    (hv : ∀ m ∈ messages, m.Valid) (hf : ours = true → ∃ m ∈ messages, m.IsFragment f)
    (ha : Attributed mine p f ours)
    (howed : ∀ o, (only p mine own).owedAck = some o → o.bitmap.isSome → wanted o.seq → kept o.seq)
    {deliver : Option AircFrame} (hseen : f.seq ∈ p.seen) (hqseen : q.seen = p.seen)
    (hreasm : q.reasm = p.reasm) (hd : deliver = if f.kind = .hello then some f else none)
    (hq : q.owedAck = if owes cfg p f now addressedToUs then some ⟨f.seq, none⟩ else p.owedAck)
    (hdl : dl = if ours then deliver.toList else [])
    (hown : own' = if owes cfg p f now addressedToUs then rebound mine p f ours f.seq else own) :
    Inbox messages wanted (only q (rebound mine p f ours) own') (d ++ dl) ∧
      Carries messages kept (only p mine own) d (only q (rebound mine p f ours) own') (d ++ dl) := by
  have hcarry : Carries messages kept (only p mine own) d (only q (rebound mine p f ours) own')
      (d ++ dl) := carries_rebound ha hreasm
  -- the number is known for a message that was delivered, before or by this very frame
  have hknown : ∀ s ∈ p.seen, rebound mine p f ours s = true →
      ∃ m ∈ messages, m.seq = s ∧ Delivered (d ++ dl) m := by
    intro s hs hmine'
    by_cases hmine : mine s = true
    · obtain ⟨m, hm, hseq, hdone⟩ := h.seen s (mem_only_seen.mpr ⟨hs, hmine⟩)
      exact ⟨m, hm, hseq, hdone.append dl⟩
    · rw [rebound] at hmine'
      split_ifs at hmine' with hc
      swap
      · exact absurd hmine' hmine
      obtain ⟨rfl, hc | ⟨ho, hk, ht⟩⟩ := hc
      · exact absurd hs hc
      · obtain ⟨m, hm, hfrag⟩ := hf ho
        rw [hdl, hd, if_pos ho, if_pos hk]
        exact ⟨m, hm, hfrag.seq.symm, delivered_single (hv m hm) hfrag ht⟩
  refine ⟨⟨buffers_rebound h ha hreasm, ?_, ?_⟩, hcarry⟩
  · intro s hs
    obtain ⟨hs, hmine⟩ := mem_only_seen.mp hs
    exact hknown s (hqseen ▸ hs) hmine
  · exact owed_only h hcarry howed hq hown fun hmine =>
      ⟨by simp, hknown f.seq hseen hmine⟩

/-- A buffer that is ours holds parts of the message of the frame. -/
theorem buffer_only (h : Inbox messages wanted (only p mine own) d) {m : Message} (hm : m ∈ messages)
    (hunique : ∀ m ∈ messages, ∀ m' ∈ messages, m.seq = m'.seq → m = m') (hf : m.IsFragment f)
    (ha : Attributed mine p f true) (hnew : f.seq ∉ p.seen) :
    ∀ r, p.reasm.get f.seq = some r → BufferOf m r := by
  intro r hr
  have hmine := ha.buffer hnew (Table.mem_keys_iff.mpr (by simp [hr]))
  obtain ⟨m', hm', hs, hof, -⟩ := h.buffers f.seq r (only_get_some.mpr ⟨hmine, hr⟩)
  rwa [hunique m hm m' hm' (by rw [hs, hf.seq])]

theorem receive_single (h : Inbox messages wanted (only p mine own) d)
    (hv : ∀ m ∈ messages, m.Valid) (hf : ours = true → ∃ m ∈ messages, m.IsFragment f)
    (ha : Attributed mine p f ours)
    (howed : ∀ o, (only p mine own).owedAck = some o → o.bitmap.isSome → wanted o.seq → kept o.seq)
    (hnew : f.seq ∉ p.seen) (ht : f.fragTotal = 1)
    (hqseen : ∀ s ∈ q.seen, s ∈ p.seen ∨ s = f.seq) (hreasm : q.reasm = p.reasm)
    (hq : q.owedAck = if owes cfg p f now addressedToUs then some ⟨f.seq, none⟩ else p.owedAck)
    (hdl : dl = if ours then [f] else [])
    (hown : own' = if owes cfg p f now addressedToUs then rebound mine p f ours f.seq else own) :
    Inbox messages wanted (only q (rebound mine p f ours) own') (d ++ dl) ∧
      Carries messages kept (only p mine own) d (only q (rebound mine p f ours) own') (d ++ dl) := by
  have hcarry : Carries messages kept (only p mine own) d (only q (rebound mine p f ours) own')
      (d ++ dl) := carries_rebound ha hreasm
  have hdone : ours = true → ∃ m ∈ messages, m.seq = f.seq ∧ Delivered (d ++ dl) m := by
    intro ho
    obtain ⟨m, hm, hfrag⟩ := hf ho
    rw [hdl, if_pos ho]
    exact ⟨m, hm, hfrag.seq.symm, delivered_single (hv m hm) hfrag ht⟩
  refine ⟨⟨buffers_rebound h ha hreasm, seen_rebound h hnew hqseen hdone, ?_⟩, hcarry⟩
  refine owed_only h hcarry howed hq hown fun hmine => ⟨by simp, ?_⟩
  rw [rebound_new hnew] at hmine
  exact hdone hmine

theorem receive_dropped (h : Inbox messages wanted (only p mine own) d)
    (ha : Attributed mine p f ours)
    (howed : ∀ o, (only p mine own).owedAck = some o → o.bitmap.isSome → wanted o.seq → kept o.seq)
    (hnew : f.seq ∉ p.seen) :
    Inbox messages wanted (only p (rebound mine p f ours) own) (d ++ dl) ∧
      Carries messages kept (only p mine own) d (only p (rebound mine p f ours) own) (d ++ dl) := by
  have hcarry : Carries messages kept (only p mine own) d (only p (rebound mine p f ours) own)
      (d ++ dl) := carries_rebound ha rfl
  refine ⟨⟨buffers_rebound h ha rfl, ?_, ?_⟩, hcarry⟩
  · intro s hs
    obtain ⟨hs, hmine⟩ := mem_only_seen.mp hs
    exact seen_before h hnew hs hmine
  · intro o ho
    exact ⟨(h.owed o ho).1, (h.owed o ho).2.carry hcarry (howed o ho)⟩

theorem receive_kept (h : Inbox messages wanted (only p mine own) d)
    (hunique : ∀ m ∈ messages, ∀ m' ∈ messages, m.seq = m'.seq → m = m')
    (hf : ours = true → ∃ m ∈ messages, m.IsFragment f) (ha : Attributed mine p f ours)
    (howed : ∀ o, (only p mine own).owedAck = some o → o.bitmap.isSome → wanted o.seq → kept o.seq)
    (hroom : ∀ s ∈ p.reasm.keys, s ∉ (evictReasm p f.seq cfg.maxReasm).keys →
      ¬ (mine s = true ∧ kept s))
    (hnew : f.seq ∉ p.seen) (hc : (stored cfg p f now addressedToUs).complete = false)
    (hqseen : q.seen = p.seen)
    (hreasm : q.reasm =
      (evictReasm p f.seq cfg.maxReasm).set f.seq (stored cfg p f now addressedToUs))
    (hq : q.owedAck = if owes cfg p f now addressedToUs then
      some ⟨f.seq, some (bitmapFromParts (stored cfg p f now addressedToUs).parts)⟩ else p.owedAck)
    (hown : own' = if owes cfg p f now addressedToUs then rebound mine p f ours f.seq else own) :
    Inbox messages wanted (only q (rebound mine p f ours) own') (d ++ []) ∧
      Carries messages kept (only p mine own) d (only q (rebound mine p f ours) own') (d ++ []) := by
  have hself : ∀ r, p.reasm.get f.seq = some r → mine f.seq = ours :=
    fun r hr => ha.buffer hnew (Table.mem_keys_iff.mpr (by simp [hr]))
  have hcarry : Carries messages kept (only p mine own) d (only q (rebound mine p f ours) own')
      (d ++ []) := by
    apply carries_only
    intro m hm hk hmine r hr
    refine .inr ⟨by rw [rebound_buffer ha hr, hmine], ?_⟩
    rw [hreasm]
    by_cases hs : m.seq = f.seq
    · rw [hs] at hr hmine ⊢
      have ho : ours = true := (hself r hr).symm.trans hmine
      obtain ⟨m', hm', hfrag⟩ := hf ho
      obtain ⟨-, hkeeps⟩ := @stored_of m' cfg p f now addressedToUs hfrag
        (buffer_only h hm' hunique hfrag (ho ▸ ha) hnew)
      exact ⟨_, Table.get_set_self _ _ _, hkeeps r hr⟩
    · have hstays := buffer_stays hroom hr hmine hk
      exact ⟨r, by rw [Table.get_set_ne _ hs, hstays], fun _ hi => hi⟩
  refine ⟨⟨?_, ?_, ?_⟩, hcarry⟩
  · intro s r hr
    obtain ⟨hmine, hr⟩ := only_get_some.mp hr
    rw [hreasm, Table.get_set] at hr
    split_ifs at hr with hs
    · obtain rfl := Option.some.inj hr
      rw [hs, rebound_new hnew] at hmine
      obtain ⟨m, hm, hfrag⟩ := hf hmine
      obtain ⟨hof, -⟩ := @stored_of m cfg p f now addressedToUs hfrag
        (buffer_only h hm hunique hfrag (hmine ▸ ha) hnew)
      exact ⟨m, hm, by rw [hs, hfrag.seq], hof, hc⟩
    · have hr := get_evictReasm hr
      rw [rebound_buffer ha hr] at hmine
      exact h.buffers s r (only_get_some.mpr ⟨hmine, hr⟩)
  · intro s hs
    obtain ⟨hs, hmine⟩ := mem_only_seen.mp hs
    rw [hqseen] at hs
    exact seen_before h hnew hs hmine
  · refine owed_only h hcarry howed hq hown fun hmine =>
      ⟨by simpa using bitmapFromParts_ne_nil _, ?_⟩
    have ho := hmine
    rw [rebound_new hnew] at ho
    obtain ⟨m, hm, hfrag⟩ := hf ho
    refine ⟨m, hm, hfrag.seq.symm, fun _ i hi => .inr ⟨stored cfg p f now addressedToUs, ?_, ?_⟩⟩
    · rw [only_get_some, hreasm, ← hfrag.seq]
      exact ⟨hmine, Table.get_set_self _ _ _⟩
    · rw [bitSet_bitmapFromParts] at hi
      exact hi

theorem receive_finished (h : Inbox messages wanted (only p mine own) d)
    (hv : ∀ m ∈ messages, m.Valid)
    (hunique : ∀ m ∈ messages, ∀ m' ∈ messages, m.seq = m'.seq → m = m')
    (hf : ours = true → ∃ m ∈ messages, m.IsFragment f) (ha : Attributed mine p f ours)
    (howed : ∀ o, (only p mine own).owedAck = some o → o.bitmap.isSome → wanted o.seq → kept o.seq)
    (hroom : ∀ s ∈ p.reasm.keys, s ∉ (evictReasm p f.seq cfg.maxReasm).keys →
      ¬ (mine s = true ∧ kept s))
    (hnew : f.seq ∉ p.seen) (hc : (stored cfg p f now addressedToUs).complete = true)
    (hqseen : ∀ s ∈ q.seen, s ∈ p.seen ∨ s = f.seq)
    (hreasm : q.reasm = (evictReasm p f.seq cfg.maxReasm).erase f.seq)
    (hq : q.owedAck = if owes cfg p f now addressedToUs then some ⟨f.seq, none⟩ else p.owedAck)
    (hdl : dl = if ours then [(stored cfg p f now addressedToUs).message f.seq] else [])
    (hown : own' = if owes cfg p f now addressedToUs then rebound mine p f ours f.seq else own) :
    Inbox messages wanted (only q (rebound mine p f ours) own') (d ++ dl) ∧
      Carries messages kept (only p mine own) d (only q (rebound mine p f ours) own') (d ++ dl) := by
  have hdone : ours = true → ∃ m ∈ messages, m.seq = f.seq ∧ Delivered (d ++ dl) m := by
    intro ho
    obtain ⟨m, hm, hfrag⟩ := hf ho
    obtain ⟨hof, -⟩ := @stored_of m cfg p f now addressedToUs hfrag
      (buffer_only h hm hunique hfrag (ho ▸ ha) hnew)
    obtain ⟨hkind, hseq, hpayload⟩ := message_of_complete (hv m hm) hof hc f.seq
    rw [hdl, if_pos ho]
    exact ⟨m, hm, hfrag.seq.symm, _, List.mem_append_right _ (List.mem_singleton.mpr rfl), hkind,
      hseq.trans hfrag.seq, hpayload⟩
  have hcarry : Carries messages kept (only p mine own) d (only q (rebound mine p f ours) own')
      (d ++ dl) := by
    apply carries_only
    intro m hm hk hmine r hr
    by_cases hs : m.seq = f.seq
    · left
      have hkey : f.seq ∈ p.reasm.keys := Table.mem_keys_iff.mpr (by simp [← hs, hr])
      have ho : ours = true := (ha.buffer hnew hkey).symm.trans (hs ▸ hmine)
      obtain ⟨m', hm', hseq, hd⟩ := hdone ho
      rwa [hunique m hm m' hm' (hs.trans hseq.symm)]
    · refine .inr ⟨by rw [rebound_buffer ha hr, hmine], ?_⟩
      have hstays := buffer_stays hroom hr hmine hk
      exact ⟨r, by rw [hreasm, Table.get_erase, if_neg hs, hstays], fun _ hi => hi⟩
  refine ⟨⟨?_, ?_, ?_⟩, hcarry⟩
  · intro s r hr
    obtain ⟨hmine, hr⟩ := only_get_some.mp hr
    rw [hreasm, Table.get_erase] at hr
    split_ifs at hr
    have hr := get_evictReasm hr
    rw [rebound_buffer ha hr] at hmine
    exact h.buffers s r (only_get_some.mpr ⟨hmine, hr⟩)
  · exact seen_rebound h hnew hqseen hdone
  · refine owed_only h hcarry howed hq hown fun hmine => ⟨by simp, ?_⟩
    rw [rebound_new hnew] at hmine
    exact hdone hmine

theorem receiveMessage_only (h : Inbox messages wanted (only p mine own) d)
    (hv : ∀ m ∈ messages, m.Valid)
    (hunique : ∀ m ∈ messages, ∀ m' ∈ messages, m.seq = m'.seq → m = m')
    (hf : ours = true → ∃ m ∈ messages, m.IsFragment f) (ha : Attributed mine p f ours)
    (howed : ∀ o, (only p mine own).owedAck = some o → o.bitmap.isSome → wanted o.seq → kept o.seq)
    (hk : f.kind ≠ .ack) (hroom : NoneEvicted cfg (fun s => mine s = true ∧ kept s) p f)
    (hdl : dl = if ours then (receiveMessage cfg p f now addressedToUs).2.1.toList else [])
    (hown : own' = if owes cfg p f now addressedToUs then rebound mine p f ours f.seq else own) :
    Inbox messages wanted (only (receiveMessage cfg p f now addressedToUs).1
        (rebound mine p f ours) own') (d ++ dl) ∧
      Carries messages kept (only p mine own) d (only (receiveMessage cfg p f now addressedToUs).1
        (rebound mine p f ours) own') (d ++ dl) := by
  have hroom := hroom hk
  have hbranch := receiveMessage_branch cfg p f now addressedToUs
  generalize (receiveMessage cfg p f now addressedToUs).1 = q,
    (receiveMessage cfg p f now addressedToUs).2.1 = deliver at hbranch hdl ⊢
  cases hbranch with
  | known q deliver hseen hqseen hreasm hd hq =>
    exact receive_known h hv hf ha howed hseen hqseen hreasm hd hq hdl hown
  | single q hnew ht hqseen hreasm hq =>
    exact receive_single h hv hf ha howed hnew ht hqseen hreasm hq hdl hown
  | dropped hnew ho =>
    obtain rfl : own' = own := by rw [hown, ho]; rfl
    exact receive_dropped h ha howed hnew
  | kept q hnew ht hlen hc hqseen hreasm hq =>
    have hdl : dl = [] := by rw [hdl, Option.toList_none, ite_self]
    rw [hdl]
    exact receive_kept h hunique hf ha howed (hroom hnew ht hlen) hnew hc hqseen hreasm hq hown
  | finished q hnew ht hlen hc hqseen hreasm hq =>
    exact receive_finished h hv hunique hf ha howed (hroom hnew ht hlen) hnew hc hqseen hreasm hq
      hdl hown

theorem only_inbox {t : Peer} (h : SameInbox p t) (mine : UInt16 → Bool) (own : Bool) :
    SameInbox (only p mine own) (only t mine own) := by
  constructor
  · rw [only, only, h.seen]
  · rw [only, only, h.reasm]
  · rw [only, only, h.owedAck]

theorem only_helloReset (p : Peer) (f : AircFrame) (mine : UInt16 → Bool) (own : Bool) :
    SameInbox (helloReset (only p mine own).noteAirc f) (only (helloReset p.noteAirc f) mine own) := by
  have hepoch : (only p mine own).noteAirc.epoch = p.noteAirc.epoch := rfl
  rw [helloReset, helloReset, hepoch]
  split_ifs
  · refine ⟨rfl, rfl, ?_⟩
    cases own <;> rfl
  · exact ⟨rfl, rfl, rfl⟩

/-- What the frame changes of the numbers that are ours, and of what is owed for them. -/
def mineAfter (mine : UInt16 → Bool) (p : Peer) (f : AircFrame) (ours : Bool) : UInt16 → Bool :=
  if f.kind = .ack then mine else rebound mine (p.piggybacked f) f ours

def ownAfter (cfg : SessionConfig) (mine : UInt16 → Bool) (own : Bool) (p : Peer) (f : AircFrame)
    (now : ℕ) (addressedToUs : Bool) (ours : Bool) : Bool :=
  if f.kind ≠ .ack ∧ owes cfg (p.piggybacked f) f now addressedToUs = true then
    rebound mine (p.piggybacked f) f ours f.seq
  else own

/-- A frame is received, of our messages or of others: what the record says of our messages
stays true. -/
theorem receive_only (h : Inbox messages wanted (only p mine own) d)
    (hv : ∀ m ∈ messages, m.Valid)
    (hunique : ∀ m ∈ messages, ∀ m' ∈ messages, m.seq = m'.seq → m = m')
    (hf : f.kind ≠ .ack → ours = true → ∃ m ∈ messages, m.IsFragment f)
    (ha : f.kind ≠ .ack → Attributed mine (p.piggybacked f) f ours)
    (howed : ∀ o, (only p mine own).owedAck = some o → o.bitmap.isSome → wanted o.seq → kept o.seq)
    (hkeep : f.kind = .hello → helloEpoch f ≠ p.epoch → ∀ s ∈ p.reasm.keys,
      ¬ (mine s = true ∧ kept s))
    (hroom : NoneEvicted cfg (fun s => mine s = true ∧ kept s) p f)
    (hdl : dl = if ours then (p.receive cfg f now addressedToUs).2.deliver.toList else []) :
    Inbox messages wanted (only (p.receive cfg f now addressedToUs).1 (mineAfter mine p f ours)
        (ownAfter cfg mine own p f now addressedToUs ours)) (d ++ dl) ∧
      Carries messages kept (only p mine own) d (only (p.receive cfg f now addressedToUs).1
        (mineAfter mine p f ours) (ownAfter cfg mine own p f now addressedToUs ours)) (d ++ dl) := by
  have hreset : Inbox messages wanted (helloReset (only p mine own).noteAirc f) d ∧
      Carries messages kept (only p mine own) d (helloReset (only p mine own).noteAirc f) d := by
    refine helloReset_inbox h fun hk he s hs hkept => ?_
    obtain ⟨r, hr⟩ := Option.isSome_iff_exists.mp (Table.mem_keys_iff.mp hs)
    obtain ⟨hmine, hr⟩ := only_get_some.mp hr
    exact hkeep hk he s (Table.mem_keys_iff.mpr (by simp [hr])) ⟨hmine, hkept⟩
  obtain ⟨hreset', hcarry'⟩ := hreset.1.congr (only_helloReset p f mine own)
  obtain ⟨hpiggy, hcarry''⟩ := hreset'.congr
    (only_inbox (applyPiggyback_inbox (helloReset p.noteAirc f) f) mine own)
  have hcarry := (hreset.2.trans hcarry').trans hcarry''
  change Inbox messages wanted (only (p.piggybacked f) mine own) d at hpiggy
  change Carries messages kept (only p mine own) d (only (p.piggybacked f) mine own) d at hcarry
  rw [mineAfter, ownAfter]
  by_cases hk : f.kind = .ack
  · rw [if_pos hk, if_neg fun hc => hc.1 hk]
    have hdl : dl = [] := by
      rw [hdl, receive_of_ack hk]
      cases parseAckPayload f.payload <;> simp
    rw [hdl, List.append_nil, receive_of_ack hk]
    cases parseAckPayload f.payload with
    | none => exact ⟨hpiggy, hcarry⟩
    | some parsed =>
      obtain ⟨hin, hc⟩ := hpiggy.congr
        (only_inbox (applyAck_inbox (p.piggybacked f) parsed.1 parsed.2) mine own)
      exact ⟨hin, hcarry.trans hc⟩
  rw [if_neg hk]
  have ha := ha hk
  have hf := hf hk
  have howed' : ∀ o, (only (p.piggybacked f) mine own).owedAck = some o → o.bitmap.isSome →
      wanted o.seq → kept o.seq := by
    intro o ho
    rcases piggybacked_cases p f with hs | ⟨-, -, hs⟩
    · exact howed o ((only_inbox hs mine own).owedAck ▸ ho)
    · rw [only, hs, ite_self] at ho
      cases ho
  have hown : (if f.kind ≠ .ack ∧ owes cfg (p.piggybacked f) f now addressedToUs = true then
        rebound mine (p.piggybacked f) f ours f.seq else own) =
      if owes cfg (p.piggybacked f) f now addressedToUs then
        rebound mine (p.piggybacked f) f ours f.seq else own := by
    simp [hk]
  rw [receive_of_message hk] at hdl ⊢
  obtain ⟨hin, hc⟩ := @receiveMessage_only messages wanted kept (p.piggybacked f) d dl mine own _
    cfg f now addressedToUs ours hpiggy hv hunique hf ha howed' hk hroom.piggybacked hdl hown
  exact ⟨hin, hcarry.trans hc⟩

end

end Incarnations
