import Rfircd.AtMostOnce

/-! Whether a HELLO that comes in several fragments is handed up, and handed up whole.
The epoch of a HELLO is read from the payload of each of its frames, and a HELLO whose number was
seen before is handed up again. -/
namespace HelloFragments

open Basics Airc AircSession KeyedTable FragmentBuffers
open AtMostOnce (Resets)

structure Reception where
  frame : AircFrame
  now : ℕ
  addressedToUs : Bool
  deriving DecidableEq

namespace Reception

def next (cfg : SessionConfig) (p : Peer) (r : Reception) : Peer :=
  (p.receive cfg r.frame r.now r.addressedToUs).1

def deliver (cfg : SessionConfig) (p : Peer) (r : Reception) : Option AircFrame :=
  (p.receive cfg r.frame r.now r.addressedToUs).2.deliver

end Reception

section

variable (cfg : SessionConfig) (p : Peer)

/-- The record of the station after those receptions. -/
def after (l : List Reception) : Peer := l.foldl (Reception.next cfg) p

/-- Each reception with the record that it finds. -/
def steps : Peer → List Reception → List (Peer × Reception)
  | _, [] => []
  | p, r :: l => (p, r) :: steps (r.next cfg p) l

/-- What the application is handed. -/
def handed (l : List Reception) : List AircFrame :=
  (steps cfg p l).filterMap fun e => e.2.deliver cfg e.1

end

/-- A message as it was sent, and not a fragment of it. -/
structure Whole (m : Message) (f : AircFrame) : Prop where
  kind : f.kind = m.kind
  seq : f.seq = m.seq
  total : f.fragTotal = 1
  payload : f.payload = m.payload

def Heard (m : Message) (l : List Reception) (i : ℕ) : Prop :=
  ∃ r ∈ l, m.IsFragment r.frame ∧ r.frame.fragIndex.toNat = i

/-- Every fragment of the message arrived. -/
def AllHeard (m : Message) (l : List Reception) : Prop := ∀ i < m.parts.length, Heard m l i

/-- A reception of a fragment of the message that clears the record. -/
def ResetBy (m : Message) (e : Peer × Reception) : Prop :=
  e.2.frame.seq = m.seq ∧ Resets e.1 e.2.frame

instance (m : Message) (e : Peer × Reception) : Decidable (ResetBy m e) :=
  inferInstanceAs (Decidable (_ ∧ _))

/-- What the layer owes the HELLOs among the messages, and the application. -/
structure Integrity (cfg : SessionConfig) (messages : List Message) (p : Peer)
    (l : List Reception) : Prop where
  whole : ∀ f ∈ handed cfg p l, ∃ m ∈ messages, Whole m f
  delivered : ∀ m ∈ messages, m.kind = .hello →
    ((∃ f ∈ handed cfg p l, Whole m f) ↔ AllHeard m l)
  once : ∀ m ∈ messages, m.kind = .hello → (steps cfg p l).countP (ResetBy m ·) ≤ 1
  siblings : ∀ m ∈ messages, ∀ e ∈ steps cfg p l, ResetBy m e → e.1.reasm.get m.seq = none

/-- The frames are fragments of those messages, and acknowledgements; nothing of the messages was
received before. -/
structure Frames (messages : List Message) (p : Peer) (l : List Reception) : Prop where
  valid : ∀ m ∈ messages, m.Valid
  distinct : ∀ m ∈ messages, ∀ m' ∈ messages, m.seq = m'.seq → m = m'
  frames : ∀ r ∈ l, r.frame.kind = .ack ∨ ∃ m ∈ messages, m.IsFragment r.frame
  unheard : ∀ m ∈ messages, p.reasm.get m.seq = none

/-- The number of a HELLO. -/
def OfHello (messages : List Message) (seq : UInt16) : Prop :=
  ∃ m ∈ messages, m.kind = .hello ∧ m.seq = seq

/-- No branch that harms a HELLO is taken: the fragment is not too long, its number was not seen
before, no earlier fragment reset the record and no HELLO is incomplete when this one does, and
no incomplete HELLO makes way for the fragment. -/
structure Sound (cfg : SessionConfig) (messages : List Message) (before : List (Peer × Reception))
    (p : Peer) (f : AircFrame) : Prop where
  fits : f.kind = .hello → f.fragTotal ≠ 1 → f.payload.length ≤ cfg.maxPayload
  unseen : f.kind = .hello → f.fragTotal ≠ 1 → f.seq ∈ p.seen → Resets p f
  once : Resets p f → ∀ e ∈ before, e.2.frame.seq = f.seq → ¬ Resets e.1 e.2.frame
  complete : Resets p f → ∀ seq, OfHello messages seq → p.reasm.get seq = none
  room : NoneEvicted cfg (OfHello messages) p f

/-! ### Runs, one reception longer -/

section

variable {cfg : SessionConfig} {p : Peer} {l : List Reception} {r : Reception}

theorem after_snoc : after cfg p (l ++ [r]) = r.next cfg (after cfg p l) := by
  simp only [after, List.foldl_append, List.foldl_cons, List.foldl_nil]

theorem steps_snoc : steps cfg p (l ++ [r]) = steps cfg p l ++ [(after cfg p l, r)] := by
  induction l generalizing p with
  | nil => rfl
  | cons r' l ih =>
    rw [List.cons_append, steps, ih]
    rfl

theorem handed_snoc : handed cfg p (l ++ [r]) =
    handed cfg p l ++ (r.deliver cfg (after cfg p l)).toList := by
  rw [handed, steps_snoc, List.filterMap_append]
  cases h : r.deliver cfg (after cfg p l) with
  | none => simp [handed, h]
  | some f => simp [handed, h]

variable {m : Message} {i : ℕ}

theorem heard_snoc : Heard m (l ++ [r]) i ↔
    Heard m l i ∨ m.IsFragment r.frame ∧ r.frame.fragIndex.toNat = i := by
  simp only [Heard, List.mem_append, List.mem_singleton]
  constructor
  · rintro ⟨r', hr | rfl, h⟩
    · exact .inl ⟨r', hr, h⟩
    · exact .inr h
  · rintro (⟨r', hr, h⟩ | h)
    · exact ⟨r', .inl hr, h⟩
    · exact ⟨r, .inr rfl, h⟩

theorem AllHeard.snoc (h : AllHeard m l) (r : Reception) : AllHeard m (l ++ [r]) :=
  fun i hi => heard_snoc.mpr (.inl (h i hi))

theorem mem_steps_snoc {e : Peer × Reception} : e ∈ steps cfg p (l ++ [r]) ↔
    e ∈ steps cfg p l ∨ e = (after cfg p l, r) := by
  rw [steps_snoc, List.mem_append, List.mem_singleton]

end

/-! ### What the record holds of the messages -/

section

variable {cfg : SessionConfig} {messages : List Message} {p q : Peer} {l : List Reception}
variable {r : Reception} {m : Message} {d : List AircFrame} {f : AircFrame}

/-- The buffers hold parts that arrived, and all of those of a HELLO that was not delivered. -/
structure Held (messages : List Message) (l : List Reception) (d : List AircFrame) (q : Peer) :
    Prop where
  buffers : ∀ m ∈ messages, ∀ r, q.reasm.get m.seq = some r →
    BufferOf m r ∧ r.complete = false ∧ ∀ i, HasPart r i → Heard m l i
  kept : ∀ m ∈ messages, m.kind = .hello → ∀ i, Heard m l i → Arrived q d m i
  whole : ∀ f ∈ d, ∃ m ∈ messages, Whole m f ∧ AllHeard m l

theorem held_nil (h : ∀ m ∈ messages, p.reasm.get m.seq = none) : Held messages [] [] p where
  buffers m hm r hr := by
    rw [h m hm] at hr
    cases hr
  kept _ _ _ _ hi := by
    obtain ⟨_, hr, -⟩ := hi
    exact absurd hr List.not_mem_nil
  whole _ hf := absurd hf List.not_mem_nil

/-- A HELLO of which nothing is missing was delivered. -/
theorem Held.delivered_of_all (h : Held messages l d q) (hv : m.Valid) (hm : m ∈ messages)
    (hk : m.kind = .hello) (hall : AllHeard m l) : Delivered d m := by
  have harrived : ∀ i < m.parts.length, Arrived q d m i := fun i hi => h.kept m hm hk i (hall i hi)
  rcases harrived 0 (List.length_pos_of_ne_nil hv.parts) with hd | ⟨b, hb, -⟩
  · exact hd
  · by_contra hnot
    obtain ⟨hof, hopen, -⟩ := h.buffers m hm b hb
    have hcomplete : b.complete = true := by
      apply complete_of_has hof
      intro i hi
      rcases harrived i hi with hd | ⟨b', hb', hpart⟩
      · exact absurd hd hnot
      · obtain rfl := Option.some.inj (hb.symm.trans hb')
        exact hpart
    rw [hopen] at hcomplete
    exact Bool.false_ne_true hcomplete

theorem Held.congr (h : Held messages l d p) (hr : q.reasm = p.reasm) : Held messages l d q where
  buffers := hr ▸ h.buffers
  kept m hm hk i hi := by
    rcases h.kept m hm hk i hi with hd | hbuffer
    · exact .inl hd
    · exact .inr (hr ▸ hbuffer)
  whole := h.whole

/-- A restart while no HELLO is incomplete. -/
theorem Held.piggybacked (h : Held messages l d p)
    (hcomplete : Resets p f → ∀ seq, OfHello messages seq → p.reasm.get seq = none) :
    Held messages l d (p.piggybacked f) := by
  by_cases hreset : Resets p f
  · have hclear := piggybacked_reset hreset
    refine ⟨?_, ?_, h.whole⟩
    · intro m _ r hr
      rw [hclear.2.1] at hr
      simp at hr
    · intro m hm hk i hi
      rcases h.kept m hm hk i hi with hd | ⟨r, hr, -⟩
      · exact .inl hd
      · rw [hcomplete hreset m.seq ⟨m, hm, hk, rfl⟩] at hr
        cases hr
  · exact h.congr (piggybacked_same hreset).reasm

/-- The record is as it was, and no part of an undelivered HELLO came. -/
theorem Held.extend (h : Held messages l d p) (hreasm : q.reasm = p.reasm) (ds : List AircFrame)
    (hds : ∀ f ∈ ds, ∃ m ∈ messages, Whole m f ∧ AllHeard m (l ++ [r]))
    (hr : ∀ m ∈ messages, m.kind = .hello → m.IsFragment r.frame → Delivered (d ++ ds) m) :
    Held messages (l ++ [r]) (d ++ ds) q where
  buffers m hm b hb := by
    rw [hreasm] at hb
    obtain ⟨hof, hopen, hparts⟩ := h.buffers m hm b hb
    exact ⟨hof, hopen, fun i hi => heard_snoc.mpr (.inl (hparts i hi))⟩
  kept m hm hk i hi := by
    rcases heard_snoc.mp hi with hi | ⟨hfrag, -⟩
    · rcases h.kept m hm hk i hi with hd | hbuffer
      · exact .inl (hd.append ds)
      · exact .inr (hreasm ▸ hbuffer)
    · exact .inl (hr m hm hk hfrag)
  whole f hf := by
    rcases List.mem_append.mp hf with hf | hf
    · obtain ⟨m, hm, hwhole, hall⟩ := h.whole f hf
      exact ⟨m, hm, hwhole, hall.snoc r⟩
    · exact hds f hf

theorem Whole.delivered (h : Whole m f) (d : List AircFrame) : Delivered (d ++ [f]) m :=
  ⟨f, List.mem_append_right _ (List.mem_singleton.mpr rfl), h.kind, h.seq, h.payload⟩

/-- A message in one frame. -/
theorem whole_single (hv : m.Valid) (hf : m.IsFragment r.frame) (ht : r.frame.fragTotal = 1) :
    Whole m r.frame ∧ AllHeard m (l ++ [r]) := by
  obtain ⟨f, hmem, -, -, hpayload⟩ := delivered_single (d := []) hv hf ht
  obtain rfl := List.mem_singleton.mp hmem
  refine ⟨⟨hf.kind, hf.seq, ht, hpayload⟩, ?_⟩
  intro i hi
  have hone : m.parts.length = 1 := by rw [← hf.total, ht]; rfl
  have hindex : r.frame.fragIndex.toNat < m.parts.length :=
    (List.getElem?_eq_some_iff.mp hf.part).1
  exact heard_snoc.mpr (.inr ⟨hf, by omega⟩)

/-- A frame is a fragment of one message only. -/
theorem Frames.eq_of_fragment {m' : Message} (h : Frames messages p l) (hm : m ∈ messages)
    (hm' : m' ∈ messages) (hf : m.IsFragment f) (hf' : m'.IsFragment f) : m' = m :=
  h.distinct m' hm' m hm (hf'.seq.symm.trans hf.seq)

/-- The buffer of a fragment is one of its message. -/
theorem Held.buffer (h : Held messages l d p) (hm : m ∈ messages) (hf : m.IsFragment f) :
    ∀ b, p.reasm.get f.seq = some b → BufferOf m b := by
  intro b hb
  exact (h.buffers m hm b (hf.seq ▸ hb)).1

/-- Another HELLO that is incomplete does not make way for the fragment. -/
theorem Held.others (h : Held messages l d p) {m' : Message} (hm' : m' ∈ messages)
    (hk : m'.kind = .hello) {i : ℕ} (hi : Heard m' l i)
    (hroom : ∀ seq ∈ p.reasm.keys, seq ∉ (evictReasm p f.seq cfg.maxReasm).keys →
      ¬ OfHello messages seq) :
    Delivered d m' ∨ ∃ b, (evictReasm p f.seq cfg.maxReasm).get m'.seq = some b ∧
      p.reasm.get m'.seq = some b ∧ HasPart b i :=
  arrived_after_evict hroom ⟨m', hm', hk, rfl⟩ (h.kept m' hm' hk i hi)

/-- A part is put into its buffer. -/
theorem Held.store (h : Held messages l d p) {p₀ : Peer} {l₀ : List Reception}
    (hframes : Frames messages p₀ l₀) (hm : m ∈ messages)
    (hf : m.IsFragment r.frame)
    (hroom : ∀ seq ∈ p.reasm.keys, seq ∉ (evictReasm p r.frame.seq cfg.maxReasm).keys →
      ¬ OfHello messages seq)
    (hopen : (stored cfg p r.frame r.now r.addressedToUs).complete = false)
    (hreasm : q.reasm = (evictReasm p r.frame.seq cfg.maxReasm).set r.frame.seq
      (stored cfg p r.frame r.now r.addressedToUs)) :
    Held messages (l ++ [r]) d q where
  buffers m' hm' b hb := by
    rw [hreasm, Table.get_set] at hb
    split_ifs at hb with hs
    · obtain rfl := hframes.distinct m hm m' hm' (hf.seq.symm.trans hs.symm)
      obtain rfl := Option.some.inj hb
      refine ⟨(stored_of hf (h.buffer hm hf)).1, hopen, ?_⟩
      intro i hi
      rcases (stored_hasPart hf (h.buffer hm hf) i).mp hi with ⟨b, hb, hi⟩ | rfl
      · exact heard_snoc.mpr (.inl ((h.buffers m hm b (hf.seq ▸ hb)).2.2 i hi))
      · exact heard_snoc.mpr (.inr ⟨hf, rfl⟩)
    · obtain ⟨hof, hopen', hparts⟩ := h.buffers m' hm' b (get_evictReasm hb)
      exact ⟨hof, hopen', fun i hi => heard_snoc.mpr (.inl (hparts i hi))⟩
  kept m' hm' hk i hi := by
    by_cases hs : m' = m
    · subst hs
      have hbuffer : q.reasm.get m'.seq =
          some (stored cfg p r.frame r.now r.addressedToUs) := by
        rw [hreasm, ← hf.seq, Table.get_set_self]
      have hpart := @stored_hasPart m' cfg p r.frame r.now r.addressedToUs hf (h.buffer hm hf) i
      rcases heard_snoc.mp hi with hi | ⟨-, rfl⟩
      · rcases h.kept m' hm hk i hi with hd | ⟨b, hb, hi⟩
        · exact .inl hd
        · exact .inr ⟨_, hbuffer, hpart.mpr (.inl ⟨b, hf.seq ▸ hb, hi⟩)⟩
      · exact .inr ⟨_, hbuffer, hpart.mpr (.inr rfl)⟩
    · have hne : m'.seq ≠ r.frame.seq := fun he => hs (hframes.distinct m' hm' m hm (he.trans hf.seq))
      rcases heard_snoc.mp hi with hi | ⟨hf', -⟩
      · rcases h.others hm' hk hi hroom with hd | ⟨b, hb, -, hi⟩
        · exact .inl hd
        · refine .inr ⟨b, ?_, hi⟩
          rw [hreasm, Table.get_set_ne _ hne]
          exact hb
      · exact absurd (hframes.eq_of_fragment hm hm' hf hf') hs
  whole f hf := by
    obtain ⟨m', hm', hwhole, hall⟩ := h.whole f hf
    exact ⟨m', hm', hwhole, hall.snoc r⟩

/-- The last missing part completes a message, all of whose parts have arrived. -/
theorem Held.whole_message (h : Held messages l d p) (hv : m.Valid) (hm : m ∈ messages)
    (hf : m.IsFragment r.frame)
    (hdone : (stored cfg p r.frame r.now r.addressedToUs).complete = true) :
    Whole m ((stored cfg p r.frame r.now r.addressedToUs).message r.frame.seq) ∧
      AllHeard m (l ++ [r]) := by
  obtain ⟨hof, -⟩ := @stored_of m cfg p r.frame r.now r.addressedToUs hf (h.buffer hm hf)
  obtain ⟨hkind, hseq, hpayload⟩ := message_of_complete hv hof hdone r.frame.seq
  refine ⟨⟨hkind, hseq.trans hf.seq, rfl, hpayload⟩, ?_⟩
  intro i hi
  have hpart : HasPart (stored cfg p r.frame r.now r.addressedToUs) i := by
    rw [HasPart, parts_of_complete hof hdone, List.getElem?_map, List.getElem?_eq_getElem hi]
    rfl
  rcases (stored_hasPart hf (h.buffer hm hf) i).mp hpart with ⟨b, hb, hi⟩ | rfl
  · exact heard_snoc.mpr (.inl ((h.buffers m hm b (hf.seq ▸ hb)).2.2 i hi))
  · exact heard_snoc.mpr (.inr ⟨hf, rfl⟩)

theorem Held.finish (h : Held messages l d p) {p₀ : Peer} {l₀ : List Reception}
    (hframes : Frames messages p₀ l₀) (hm : m ∈ messages) (hf : m.IsFragment r.frame)
    (hroom : ∀ seq ∈ p.reasm.keys, seq ∉ (evictReasm p r.frame.seq cfg.maxReasm).keys →
      ¬ OfHello messages seq)
    (hdone : (stored cfg p r.frame r.now r.addressedToUs).complete = true)
    (hreasm : q.reasm = (evictReasm p r.frame.seq cfg.maxReasm).erase r.frame.seq) :
    Held messages (l ++ [r])
      (d ++ [(stored cfg p r.frame r.now r.addressedToUs).message r.frame.seq]) q := by
  obtain ⟨hwhole, hall⟩ := h.whole_message (hframes.valid m hm) hm hf hdone
  refine ⟨?_, ?_, ?_⟩
  · intro m' hm' b hb
    rw [hreasm, Table.get_erase] at hb
    split_ifs at hb
    obtain ⟨hof, hopen, hparts⟩ := h.buffers m' hm' b (get_evictReasm hb)
    exact ⟨hof, hopen, fun i hi => heard_snoc.mpr (.inl (hparts i hi))⟩
  · intro m' hm' hk i hi
    by_cases hs : m' = m
    · subst hs
      exact .inl (hwhole.delivered d)
    · have hne : m'.seq ≠ r.frame.seq := fun he => hs (hframes.distinct m' hm' m hm (he.trans hf.seq))
      rcases heard_snoc.mp hi with hi | ⟨hf', -⟩
      · rcases h.others hm' hk hi hroom with hd | ⟨b, hb, -, hi⟩
        · exact .inl (hd.append _)
        · refine .inr ⟨b, ?_, hi⟩
          rw [hreasm, Table.get_erase, if_neg hne]
          exact hb
      · exact absurd (hframes.eq_of_fragment hm hm' hf hf') hs
  · intro f hf
    rcases List.mem_append.mp hf with hf | hf
    · obtain ⟨m', hm', hwhole, hall⟩ := h.whole f hf
      exact ⟨m', hm', hwhole, hall.snoc r⟩
    · rw [List.mem_singleton.mp hf]
      exact ⟨m, hm, hwhole, hall⟩

/-- A fragment is received, and no branch that harms a HELLO is taken. -/
theorem Held.fragment (h : Held messages l d p) {p₀ : Peer} {l₀ : List Reception}
    (hframes : Frames messages p₀ l₀) (hm : m ∈ messages) (hf : m.IsFragment r.frame)
    (hfits : r.frame.kind = .hello → r.frame.fragTotal ≠ 1 →
      r.frame.payload.length ≤ cfg.maxPayload)
    (hunseen : r.frame.kind = .hello → r.frame.fragTotal ≠ 1 → r.frame.seq ∉ p.seen)
    (hroom : NoneEvicted cfg (OfHello messages) p r.frame) {deliver : Option AircFrame}
    (htaken : Taken cfg p r.frame r.now r.addressedToUs q deliver) :
    Held messages (l ++ [r]) (d ++ deliver.toList) q := by
  have hv := hframes.valid m hm
  have hack : r.frame.kind ≠ .ack := hf.kind ▸ hv.kind
  have hkind : ∀ m' ∈ messages, m'.kind = .hello → m'.IsFragment r.frame →
      m' = m ∧ r.frame.kind = .hello := by
    intro m' hm' hk hf'
    exact ⟨hframes.eq_of_fragment hm hm' hf hf', hf'.kind.trans hk⟩
  cases htaken with
  | again _ _ hseen _ hreasm hdeliver =>
    rw [hdeliver]
    by_cases hhello : r.frame.kind = .hello
    · have ht : r.frame.fragTotal = 1 := by
        by_contra ht
        exact hunseen hhello ht hseen
      obtain ⟨hwhole, hall⟩ := whole_single (l := l) hv hf ht
      rw [if_pos hhello]
      refine h.extend hreasm [r.frame] ?_ ?_
      · intro f hf
        rw [List.mem_singleton.mp hf]
        exact ⟨m, hm, hwhole, hall⟩
      · intro m' hm' hk hf'
        rw [(hkind m' hm' hk hf').1]
        exact hwhole.delivered d
    · rw [if_neg hhello]
      refine h.extend hreasm [] (fun _ hf => absurd hf List.not_mem_nil) ?_
      intro m' hm' hk hf'
      exact absurd (hkind m' hm' hk hf').2 hhello
  | single _ _ ht _ hreasm =>
    obtain ⟨hwhole, hall⟩ := whole_single (l := l) hv hf ht
    refine h.extend hreasm [r.frame] ?_ ?_
    · intro f hf
      rw [List.mem_singleton.mp hf]
      exact ⟨m, hm, hwhole, hall⟩
    · intro m' hm' hk hf'
      rw [(hkind m' hm' hk hf').1]
      exact hwhole.delivered d
  | refused _ ht hlong =>
    refine h.extend rfl [] (fun _ hf => absurd hf List.not_mem_nil) ?_
    intro m' hm' hk hf'
    have := hfits (hkind m' hm' hk hf').2 ht
    omega
  | kept _ hnew ht hlen hopen _ hreasm =>
    rw [Option.toList_none, List.append_nil]
    exact h.store hframes hm hf (hroom hack hnew ht hlen) hopen hreasm
  | finished _ hnew ht hlen hdone _ hreasm =>
    exact h.finish hframes hm hf (hroom hack hnew ht hlen) hdone hreasm

/-! ### Runs without harm -/

/-- A number that was seen before is new again after a restart. -/
theorem new_of_reset (h : f.seq ∈ p.seen → Resets p f) : f.seq ∉ (p.piggybacked f).seen := by
  by_cases hreset : Resets p f
  · rw [(piggybacked_reset hreset).1]
    exact List.not_mem_nil
  · rw [(piggybacked_same hreset).seen]
    exact fun hseen => hreset (h hseen)

theorem Held.next (h : Held messages l d p) {p₀ : Peer} {l₀ : List Reception}
    (hframes : Frames messages p₀ l₀)
    (hr : r.frame.kind = .ack ∨ ∃ m ∈ messages, m.IsFragment r.frame)
    {before : List (Peer × Reception)} (hsound : Sound cfg messages before p r.frame) :
    Held messages (l ++ [r]) (d ++ (r.deliver cfg p).toList) (r.next cfg p) := by
  have hbase := h.piggybacked hsound.complete
  by_cases hack : r.frame.kind = .ack
  · have hsame : (r.next cfg p).reasm = (p.piggybacked r.frame).reasm ∧ r.deliver cfg p = none := by
      rw [Reception.next, Reception.deliver, receive_of_ack hack]
      cases parseAckPayload r.frame.payload with
      | none => exact ⟨rfl, rfl⟩
      | some ack => exact ⟨(applyAck_inbox _ ack.1 ack.2).reasm, rfl⟩
    rw [hsame.2]
    refine hbase.extend hsame.1 [] (fun _ hf => absurd hf List.not_mem_nil) ?_
    intro m hm _ hf
    exact absurd (hf.kind.symm.trans hack) (hframes.valid m hm).kind
  · obtain ⟨m, hm, hf⟩ := hr.resolve_left hack
    have htaken := receiveMessage_taken cfg (p.piggybacked r.frame) r.frame r.now r.addressedToUs
    have hunseen : r.frame.kind = .hello → r.frame.fragTotal ≠ 1 →
        r.frame.seq ∉ (p.piggybacked r.frame).seen :=
      fun hk ht => new_of_reset (hsound.unseen hk ht)
    rw [Reception.next, Reception.deliver, receive_of_message hack]
    exact hbase.fragment hframes hm hf hsound.fits hunseen hsound.room.piggybacked htaken

/-- Every step of the run is one without harm. -/
def AllSound (cfg : SessionConfig) (messages : List Message) (p : Peer) (l : List Reception) :
    Prop :=
  ∀ before r rest, l = before ++ r :: rest →
    Sound cfg messages (steps cfg p before) (after cfg p before) r.frame

theorem AllSound.init (h : AllSound cfg messages p (l ++ [r])) : AllSound cfg messages p l := by
  rintro before r' rest rfl
  exact h before r' (rest ++ [r]) (by simp)

theorem AllSound.last (h : AllSound cfg messages p (l ++ [r])) :
    Sound cfg messages (steps cfg p l) (after cfg p l) r.frame :=
  h l r [] rfl

theorem Frames.init (h : Frames messages p (l ++ [r])) : Frames messages p l :=
  ⟨h.valid, h.distinct, fun r' hr => h.frames r' (List.mem_append_left _ hr), h.unheard⟩

theorem held_after (hframes : Frames messages p l) (hsound : AllSound cfg messages p l) :
    Held messages l (handed cfg p l) (after cfg p l) := by
  induction l using List.reverseRecOn with
  | nil => exact held_nil hframes.unheard
  | append_singleton l r ih =>
    rw [handed_snoc, after_snoc]
    exact (ih hframes.init hsound.init).next hframes (hframes.frames r (by simp)) hsound.last

/-- The fragments of a HELLO clear the record once at most. -/
theorem once_of_sound (hsound : AllSound cfg messages p l) (m : Message) :
    (steps cfg p l).countP (ResetBy m ·) ≤ 1 := by
  induction l using List.reverseRecOn with
  | nil => exact Nat.zero_le 1
  | append_singleton l r ih =>
    rw [steps_snoc, List.countP_append, List.countP_singleton]
    by_cases hreset : ResetBy m (after cfg p l, r)
    · have hnone : (steps cfg p l).countP (ResetBy m ·) = 0 := by
        apply List.countP_eq_zero.mpr
        intro e he hearlier
        obtain ⟨hseq, hearlier⟩ := of_decide_eq_true hearlier
        exact hsound.last.once hreset.2 e he (hseq.trans hreset.1.symm) hearlier
      rw [hnone, if_pos (decide_eq_true hreset)]
    · rw [if_neg (by simpa using hreset)]
      exact ih hsound.init

/-- A fragment that clears the record finds no part of its own HELLO there. -/
theorem siblings_of_sound (hframes : Frames messages p l) (hsound : AllSound cfg messages p l) :
    ∀ m ∈ messages, ∀ e ∈ steps cfg p l, ResetBy m e → e.1.reasm.get m.seq = none := by
  induction l using List.reverseRecOn with
  | nil => exact fun _ _ _ he => absurd he List.not_mem_nil
  | append_singleton l r ih =>
    intro m hm e he hreset
    rcases mem_steps_snoc.mp he with he | rfl
    · exact ih hframes.init hsound.init m hm e he hreset
    · rcases hframes.frames r (by simp) with hack | ⟨m', hm', hf⟩
      · have hhello : r.frame.kind = .hello := hreset.2.1
        rw [hack] at hhello
        cases hhello
      · obtain rfl := hframes.distinct m' hm' m hm (hf.seq.symm.trans hreset.1)
        exact hsound.last.complete hreset.2 m'.seq ⟨m', hm, hf.kind.symm.trans hreset.2.1, rfl⟩

theorem integrity_of_sound (hframes : Frames messages p l) (hsound : AllSound cfg messages p l) :
    Integrity cfg messages p l := by
  have hheld := held_after hframes hsound
  refine ⟨?_, ?_, fun m _ _ => once_of_sound hsound m, siblings_of_sound hframes hsound⟩
  · intro f hf
    obtain ⟨m, hm, hwhole, -⟩ := hheld.whole f hf
    exact ⟨m, hm, hwhole⟩
  · intro m hm hk
    constructor
    · rintro ⟨f, hf, hwhole⟩
      obtain ⟨m', hm', hwhole', hall⟩ := hheld.whole f hf
      obtain rfl := hframes.distinct m' hm' m hm (hwhole'.seq.symm.trans hwhole.seq)
      exact hall
    · intro hall
      obtain ⟨f, hf, -, hseq, -⟩ := hheld.delivered_of_all (hframes.valid m hm) hm hk hall
      obtain ⟨m', hm', hwhole, -⟩ := hheld.whole f hf
      obtain rfl := hframes.distinct m' hm' m hm (hwhole.seq.symm.trans hseq)
      exact ⟨f, hf, hwhole⟩

end

/-! ### The fragments of one HELLO -/

/-- The frames are fragments of one HELLO, none of them too long, of which nothing was received
before. -/
structure OneHello (cfg : SessionConfig) (m : Message) (p : Peer) (l : List Reception) : Prop where
  valid : m.Valid
  hello : m.kind = .hello
  frames : ∀ r ∈ l, m.IsFragment r.frame
  fits : m.parts.length ≠ 1 → ∀ part ∈ m.parts, part.length ≤ cfg.maxPayload
  unheard : p.reasm.get m.seq = none

/-- The fragments show one epoch, the first of them is new to the record or clears it, and none
comes once all of them have come. -/
structure Spared (m : Message) (p : Peer) (l : List Reception) : Prop where
  agree : ∀ r ∈ l, ∀ r' ∈ l, helloEpoch r.frame = helloEpoch r'.frame
  fresh : ∀ r, l.head? = some r → helloEpoch r.frame = p.epoch → m.seq ∉ p.seen
  ended : ∀ before r rest, l = before ++ r :: rest → ¬ AllHeard m before

section

variable {cfg : SessionConfig} {m : Message} {p q : Peer} {l : List Reception} {r : Reception}

theorem OneHello.init (h : OneHello cfg m p (l ++ [r])) : OneHello cfg m p l :=
  ⟨h.valid, h.hello, fun r' hr => h.frames r' (List.mem_append_left _ hr), h.fits, h.unheard⟩

theorem OneHello.last (h : OneHello cfg m p (l ++ [r])) : m.IsFragment r.frame :=
  h.frames r (by simp)

theorem OneHello.all (h : OneHello cfg m p l) : Frames [m] p l where
  valid _ hm' := List.mem_singleton.mp hm' ▸ h.valid
  distinct _ hm₁ _ hm₂ _ := (List.mem_singleton.mp hm₁).trans (List.mem_singleton.mp hm₂).symm
  frames r hr := .inr ⟨m, List.mem_singleton.mpr rfl, h.frames r hr⟩
  unheard _ hm' := List.mem_singleton.mp hm' ▸ h.unheard

theorem Spared.init (h : Spared m p (l ++ [r])) : Spared m p l where
  agree r₁ hr₁ r₂ hr₂ := h.agree r₁ (List.mem_append_left _ hr₁) r₂ (List.mem_append_left _ hr₂)
  fresh r' hr' := by
    cases l with
    | nil => cases hr'
    | cons a l => exact h.fresh r' hr'
  ended before r' rest hl := h.ended before r' (rest ++ [r]) (by rw [hl]; simp)

/-- Which epoch a fragment shows depends on its index alone. -/
theorem helloEpoch_fragment {f g : AircFrame} (hf : m.IsFragment f) (hg : m.IsFragment g)
    (h : f.fragIndex.toNat = g.fragIndex.toNat) : helloEpoch f = helloEpoch g := by
  have hpayload : f.payload = g.payload := by
    have hpart := hf.part
    rw [h, hg.part] at hpart
    exact (Option.some.inj hpart).symm
  rw [helloEpoch, helloEpoch, AircFrame.field, AircFrame.field, AircFrame.fields, AircFrame.fields,
    hpayload]

theorem total_fragment {f : AircFrame} (hf : m.IsFragment f) :
    f.fragTotal = 1 ↔ m.parts.length = 1 := by
  rw [← hf.total]
  constructor
  · intro h
    rw [h]
    rfl
  · exact fun h => UInt8.toNat_inj.mp h

theorem applyAck_epoch (p : Peer) (seq : UInt16) (bitmap : Option (List UInt8)) :
    (applyAck p seq bitmap).1.epoch = p.epoch := by
  obtain ⟨h, -⟩ | ⟨pd, bits, -, -, -, -, -, h⟩ | ⟨pd, -, -, -, h⟩ := applyAck_cases p seq bitmap
  · rw [h]
  · rw [h]
  · rw [h, releasePending]
    cases p.queue <;> rfl

theorem piggybacked_epoch {f : AircFrame} (hk : f.kind = .hello) :
    (p.piggybacked f).epoch = helloEpoch f := by
  have hbase : (helloReset p.noteAirc f).epoch = helloEpoch f := by
    rw [helloReset]
    split_ifs with h
    · rfl
    · by_contra hne
      exact h ⟨hk, fun he => hne he.symm⟩
  rw [Peer.piggybacked, applyPiggyback]
  cases f.piggybackSeq with
  | none => exact hbase
  | some seq => exact (applyAck_epoch _ seq none).trans hbase

theorem receiveMessage_epoch (cfg : SessionConfig) (p : Peer) (f : AircFrame) (now : ℕ)
    (addressedToUs : Bool) :
    (receiveMessage cfg p f now addressedToUs).1.epoch = p.epoch := by
  simp only [receiveMessage, receiveFragment, keepParts, finishParts]
  split_ifs <;> rfl

/-- The record knows the epoch that the last frame of a HELLO showed. -/
theorem next_epoch (hk : r.frame.kind = .hello) :
    (r.next cfg p).epoch = helloEpoch r.frame := by
  have hack : r.frame.kind ≠ .ack := fun h => by
    rw [hk] at h
    cases h
  rw [Reception.next, receive_of_message hack, receiveMessage_epoch, piggybacked_epoch hk]

theorem OneHello.epoch (h : OneHello cfg m p l) : ∀ r, l.getLast? = some r →
    (after cfg p l).epoch = helloEpoch r.frame := by
  induction l using List.reverseRecOn with
  | nil => exact fun _ hr => nomatch hr
  | append_singleton l r' =>
    intro r hr
    rw [List.getLast?_concat] at hr
    obtain rfl := Option.some.inj hr
    rw [after_snoc, next_epoch (h.last.kind.trans h.hello)]

/-- A fragment that clears the record is the first one to come. -/
theorem OneHello.nil_of_reset (h : OneHello cfg m p (l ++ [r]))
    (hagree : ∀ r₁ ∈ l ++ [r], ∀ r₂ ∈ l ++ [r], helloEpoch r₁.frame = helloEpoch r₂.frame)
    (hreset : Resets (after cfg p l) r.frame) : l = [] := by
  cases hlast : l.getLast? with
  | none => exact List.getLast?_eq_none_iff.mp hlast
  | some r' =>
    have hmem : r' ∈ l ++ [r] := List.mem_append_left _ (List.mem_of_getLast? hlast)
    exact absurd ((hagree r (by simp) r' hmem).trans (h.init.epoch r' hlast).symm) hreset.2

/-- The only buffer of the HELLO is that of the fragment itself. -/
theorem room_alone {f : AircFrame} (hf : m.IsFragment f) (p : Peer) :
    NoneEvicted cfg (OfHello [m]) p f := by
  rintro - - - - seq hkey hgone ⟨m', hm', -, rfl⟩
  obtain rfl := List.mem_singleton.mp hm'
  rw [Table.mem_keys_iff] at hkey hgone
  rw [← hf.seq] at hkey hgone
  rw [get_evictReasm_self] at hgone
  exact hgone hkey

theorem OneHello.sound (h : OneHello cfg m p (l ++ [r]))
    (hagree : ∀ r₁ ∈ l ++ [r], ∀ r₂ ∈ l ++ [r], helloEpoch r₁.frame = helloEpoch r₂.frame)
    (hunseen : r.frame.fragTotal ≠ 1 → m.seq ∈ (after cfg p l).seen →
      Resets (after cfg p l) r.frame) :
    Sound cfg [m] (steps cfg p l) (after cfg p l) r.frame where
  fits _ ht := by
    have hparts := fun hone => ht ((total_fragment h.last).mpr hone)
    exact h.fits hparts _ (List.mem_of_getElem? h.last.part)
  unseen _ ht hseen := hunseen ht (h.last.seq ▸ hseen)
  once hreset e he := by
    rw [h.nil_of_reset hagree hreset] at he
    exact absurd he List.not_mem_nil
  complete hreset seq hseq := by
    obtain ⟨m', hm', -, rfl⟩ := hseq
    rw [List.mem_singleton.mp hm', h.nil_of_reset hagree hreset]
    exact h.unheard
  room := room_alone h.last _

theorem AllSound.snoc {messages : List Message} (h : AllSound cfg messages p l)
    (hr : Sound cfg messages (steps cfg p l) (after cfg p l) r.frame) :
    AllSound cfg messages p (l ++ [r]) := by
  intro before r' rest hsplit
  rcases List.eq_nil_or_concat rest with rfl | ⟨rest, r'', rfl⟩
  · obtain ⟨rfl, hlast⟩ := List.append_inj' hsplit rfl
    obtain rfl := List.cons.inj hlast |>.1
    exact hr
  · rw [List.concat_eq_append, ← List.cons_append, ← List.append_assoc] at hsplit
    exact h before r' rest (List.append_inj' hsplit rfl).1

/-- A HELLO in one frame is never harmed. -/
theorem OneHello.allSound_single (h : OneHello cfg m p l) (hone : m.parts.length = 1) :
    AllSound cfg [m] p l := by
  have hagree : ∀ r₁ ∈ l, ∀ r₂ ∈ l, helloEpoch r₁.frame = helloEpoch r₂.frame := by
    intro r₁ hr₁ r₂ hr₂
    have hi₁ := (List.getElem?_eq_some_iff.mp (h.frames r₁ hr₁).part).1
    have hi₂ := (List.getElem?_eq_some_iff.mp (h.frames r₂ hr₂).part).1
    exact helloEpoch_fragment (h.frames r₁ hr₁) (h.frames r₂ hr₂) (by omega)
  induction l using List.reverseRecOn with
  | nil => exact fun before r rest hl => absurd hl (by simp)
  | append_singleton l r ih =>
    have hbefore := ih h.init fun r₁ hr₁ r₂ hr₂ =>
      hagree r₁ (List.mem_append_left _ hr₁) r₂ (List.mem_append_left _ hr₂)
    refine hbefore.snoc (h.sound hagree ?_)
    exact fun ht => absurd ((total_fragment h.last).mpr hone) ht

theorem taken_of_hello (hk : r.frame.kind = .hello) :
    Taken cfg (p.piggybacked r.frame) r.frame r.now r.addressedToUs (r.next cfg p)
      (r.deliver cfg p) := by
  have hack : r.frame.kind ≠ .ack := fun h => by
    rw [hk] at h
    cases h
  rw [Reception.next, Reception.deliver, receive_of_message hack]
  exact receiveMessage_taken cfg (p.piggybacked r.frame) r.frame r.now r.addressedToUs

/-- A HELLO whose number was seen before is handed up as it comes. -/
theorem deliver_seen (hk : r.frame.kind = .hello)
    (hseen : r.frame.seq ∈ (p.piggybacked r.frame).seen) : r.deliver cfg p = some r.frame := by
  have htaken : Taken cfg _ _ _ _ (r.next cfg p) (r.deliver cfg p) := taken_of_hello hk
  generalize r.next cfg p = q at htaken
  generalize r.deliver cfg p = deliver at htaken ⊢
  cases htaken with
  | again _ _ _ _ _ hdeliver => rw [hdeliver, if_pos hk]
  | single _ hnew => exact absurd hseen hnew
  | refused hnew => exact absurd hseen hnew
  | kept _ hnew => exact absurd hseen hnew
  | finished _ hnew => exact absurd hseen hnew

/-- The number of a HELLO in several fragments is remembered when it is delivered. -/
theorem next_seen (hw : 0 < cfg.dedupWindow) (hk : r.frame.kind = .hello)
    (ht : r.frame.fragTotal ≠ 1) (hnew : r.frame.seq ∉ (p.piggybacked r.frame).seen) :
    r.frame.seq ∈ (r.next cfg p).seen ↔ (r.deliver cfg p).isSome = true := by
  have htaken : Taken cfg _ _ _ _ (r.next cfg p) (r.deliver cfg p) := taken_of_hello hk
  generalize r.next cfg p = q at htaken ⊢
  generalize r.deliver cfg p = deliver at htaken ⊢
  cases htaken with
  | again _ _ hseen => exact absurd hseen hnew
  | single _ _ htotal => exact absurd htotal ht
  | refused => simp [hnew]
  | kept _ _ _ _ _ hseen => simp [hseen, hnew]
  | finished _ _ _ _ _ hseen =>
    rw [hseen]
    exact iff_of_true (mem_rememberSeq_self _ _ hw) rfl

/-- What is known of the record while the fragments are spared. -/
structure Following (cfg : SessionConfig) (m : Message) (p : Peer) (l : List Reception) : Prop where
  sound : AllSound cfg [m] p l
  seen : l ≠ [] → (m.seq ∈ (after cfg p l).seen ↔ AllHeard m l)

theorem OneHello.following (h : OneHello cfg m p l) (hw : 0 < cfg.dedupWindow)
    (hmany : m.parts.length ≠ 1) (hs : Spared m p l) : Following cfg m p l := by
  induction l using List.reverseRecOn with
  | nil => exact ⟨fun before r rest hl => absurd hl (by simp), fun hne => absurd rfl hne⟩
  | append_singleton l r ih =>
    obtain ⟨hbefore, hseen⟩ := ih h.init hs.init
    have hhello : r.frame.kind = .hello := h.last.kind.trans h.hello
    have hmiss : ¬ AllHeard m l := hs.ended l r [] rfl
    have ht : r.frame.fragTotal ≠ 1 := fun hone => hmany ((total_fragment h.last).mp hone)
    have hunseen : m.seq ∈ (after cfg p l).seen → Resets (after cfg p l) r.frame := by
      intro hold
      by_cases hnil : l = []
      · subst hnil
        exact ⟨hhello, fun he => hs.fresh r rfl he hold⟩
      · exact absurd ((hseen hnil).mp hold) hmiss
    have hsound := hbefore.snoc (h.sound hs.agree fun _ => hunseen)
    refine ⟨hsound, fun _ => ?_⟩
    have hnew := new_of_reset (p := after cfg p l) (h.last.seq.symm ▸ hunseen)
    have hheld := held_after h.all hsound
    rw [after_snoc, ← h.last.seq, next_seen hw hhello ht hnew]
    rw [handed_snoc] at hheld
    constructor
    · intro hdeliver
      obtain ⟨f, hf⟩ := Option.isSome_iff_exists.mp hdeliver
      obtain ⟨m', hm', -, hall⟩ := hheld.whole f (by simp [hf])
      exact List.mem_singleton.mp hm' ▸ hall
    · intro hall
      by_contra hnone
      rw [Option.not_isSome_iff_eq_none.mp hnone, Option.toList_none, List.append_nil] at hheld
      obtain ⟨f, hf, hfm⟩ := hheld.delivered_of_all h.valid (List.mem_singleton.mpr rfl) h.hello hall
      obtain ⟨m', hm', -, hall'⟩ := (held_after h.init.all hbefore).whole f hf
      exact hmiss (List.mem_singleton.mp hm' ▸ hall')

/-- A fragment that is not spared is handed up, or clears the parts that came before it. -/
theorem OneHello.spared_snoc (h : OneHello cfg m p (l ++ [r])) (hw : 0 < cfg.dedupWindow)
    (hmany : m.parts.length ≠ 1) (hs : Spared m p l)
    (htorn : r.deliver cfg (after cfg p l) ≠ some r.frame)
    (hclear : Resets (after cfg p l) r.frame → (after cfg p l).reasm.get m.seq = none) :
    Spared m p (l ++ [r]) := by
  obtain ⟨hsound, hseen⟩ := h.init.following hw hmany hs
  have hheld := held_after h.init.all hsound
  have hhello : r.frame.kind = .hello := h.last.kind.trans h.hello
  have hunseen : m.seq ∈ (after cfg p l).seen → Resets (after cfg p l) r.frame := by
    intro hold
    by_contra hreset
    refine htorn (deliver_seen hhello ?_)
    rw [(piggybacked_same hreset).seen, h.last.seq]
    exact hold
  cases hlast : l.getLast? with
  | none =>
    -- the first fragment
    obtain rfl := List.getLast?_eq_none_iff.mp hlast
    refine ⟨by simp, ?_, ?_⟩
    · intro r' hr' hepoch hold
      obtain rfl := Option.some.inj hr'
      exact (hunseen hold).2 hepoch
    · intro before r' rest hsplit hall
      obtain ⟨rfl, -⟩ : before = [] ∧ _ := by
        cases before with
        | nil => exact ⟨rfl, trivial⟩
        | cons a before => simp at hsplit
      obtain ⟨r', hr', -⟩ := hall 0 (List.length_pos_of_ne_nil h.valid.parts)
      exact absurd hr' List.not_mem_nil
  | some r₀ =>
    have hmem : r₀ ∈ l := List.mem_of_getLast? hlast
    have hepoch : (after cfg p l).epoch = helloEpoch r₀.frame := h.init.epoch r₀ hlast
    have hmiss : ¬ AllHeard m l := by
      intro hall
      have hreset := hunseen ((hseen (List.ne_nil_of_mem hmem)).mpr hall)
      have hindex : r.frame.fragIndex.toNat < m.parts.length :=
        (List.getElem?_eq_some_iff.mp h.last.part).1
      obtain ⟨r', hr', hf', hi⟩ := hall _ hindex
      refine hreset.2 ?_
      rw [hepoch, helloEpoch_fragment h.last hf' hi.symm]
      exact hs.agree r' hr' r₀ hmem
    have hsame : helloEpoch r.frame = helloEpoch r₀.frame := by
      by_contra hne
      have hnone := hclear ⟨hhello, fun he => hne (he.trans hepoch)⟩
      have hheard : Heard m l r₀.frame.fragIndex.toNat :=
        ⟨r₀, hmem, h.frames r₀ (List.mem_append_left _ hmem), rfl⟩
      rcases hheld.kept m (List.mem_singleton.mpr rfl) h.hello _ hheard with
        ⟨f, hf, -⟩ | ⟨b, hb, -⟩
      · obtain ⟨m', hm', -, hall⟩ := hheld.whole f hf
        exact hmiss (List.mem_singleton.mp hm' ▸ hall)
      · rw [hnone] at hb
        cases hb
    have hcommon : ∀ r' ∈ l ++ [r], helloEpoch r'.frame = helloEpoch r₀.frame := by
      intro r' hr'
      rcases List.mem_append.mp hr' with hr' | hr'
      · exact hs.agree r' hr' r₀ hmem
      · rw [List.mem_singleton.mp hr']
        exact hsame
    refine ⟨fun r₁ hr₁ r₂ hr₂ => (hcommon r₁ hr₁).trans (hcommon r₂ hr₂).symm, ?_, ?_⟩
    · intro r' hr'
      cases l with
      | nil => cases hmem
      | cons a l => exact hs.fresh r' hr'
    · intro before r' rest hsplit
      rcases List.eq_nil_or_concat rest with rfl | ⟨rest, r'', rfl⟩
      · exact (List.append_inj' hsplit rfl).1 ▸ hmiss
      · rw [List.concat_eq_append, ← List.cons_append, ← List.append_assoc] at hsplit
        exact hs.ended before r' rest (List.append_inj' hsplit rfl).1

/-- A run in which only whole messages are handed up, and no fragment clears its siblings. -/
theorem OneHello.spared (h : OneHello cfg m p l) (hw : 0 < cfg.dedupWindow)
    (hmany : m.parts.length ≠ 1) (hwhole : ∀ f ∈ handed cfg p l, f.fragTotal = 1)
    (hclear : ∀ e ∈ steps cfg p l, ResetBy m e → e.1.reasm.get m.seq = none) :
    Spared m p l := by
  induction l using List.reverseRecOn with
  | nil => exact ⟨by simp, by simp, by simp⟩
  | append_singleton l r ih =>
    rw [handed_snoc] at hwhole
    have hs := ih h.init (fun f hf => hwhole f (List.mem_append_left _ hf))
      fun e he => hclear e (mem_steps_snoc.mpr (.inl he))
    refine h.spared_snoc hw hmany hs ?_ ?_
    · intro hdeliver
      have htotal := hwhole r.frame (by simp [hdeliver])
      exact hmany ((total_fragment h.last).mp htotal)
    · exact fun hreset => hclear (after cfg p l, r) (mem_steps_snoc.mpr (.inr rfl))
        ⟨h.last.seq, hreset⟩

end

/-- The fragments of one HELLO are handed up whole, once, and clear no part of it, exactly when
it came in one frame, or its fragments show one epoch, the first of them is new to the record or
clears it, and none comes after the last missing one. Among other messages they are when no step
takes a branch that harms a HELLO. -/
theorem hello_integrity (cfg : SessionConfig) (p : Peer) (l : List Reception) :
    (∀ m, OneHello cfg m p l → 0 < cfg.dedupWindow →
      (Integrity cfg [m] p l ↔ m.parts.length = 1 ∨ Spared m p l)) ∧
    ∀ messages, Frames messages p l → AllSound cfg messages p l → Integrity cfg messages p l := by
  refine ⟨?_, fun messages => integrity_of_sound⟩
  intro m h hw
  constructor
  · intro hintegrity
    by_cases hmany : m.parts.length = 1
    · exact .inl hmany
    · refine .inr (h.spared hw hmany ?_ (hintegrity.siblings m (List.mem_singleton.mpr rfl)))
      intro f hf
      obtain ⟨m', -, hwhole⟩ := hintegrity.whole f hf
      exact hwhole.total
  · intro hspared
    by_cases hone : m.parts.length = 1
    · exact integrity_of_sound h.all (h.allSound_single hone)
    · exact integrity_of_sound h.all (h.following hw hone (hspared.resolve_left hone)).sound

/-! ### Fragments that are spared, and fragments that are not -/

/-- A HELLO without an epoch, in two frames. -/
def plain : Message := ⟨.hello, 1, true, [120, 121], [[120], [121]]⟩

/-- The epoch is in the second frame. -/
def withEpoch : Message :=
  ⟨.hello, 1, true, [120, 121, 31, 48, 48, 65, 66], [[120, 121], [31, 48, 48, 65, 66]]⟩

def privateText : Message := ⟨.msg, 2, true, [120, 31, 121], [[120, 31, 121]]⟩

theorem plain_valid : plain.Valid := ⟨by decide, by decide, by decide, rfl⟩

theorem withEpoch_valid : withEpoch.Valid := ⟨by decide, by decide, by decide, rfl⟩

theorem privateText_valid : privateText.Valid := ⟨by decide, by decide, by decide, rfl⟩

/-- Frames of those messages, by index. -/
def arrivals (l : List (Message × ℕ)) : List Reception :=
  l.filterMap fun e => (e.1.frames[e.2]?).map fun f => ⟨f, 0, true⟩

theorem mem_arrivals {l : List (Message × ℕ)} {r : Reception} (h : r ∈ arrivals l) :
    ∃ e ∈ l, r.frame ∈ e.1.frames := by
  obtain ⟨e, he, hr⟩ := List.mem_filterMap.mp h
  obtain ⟨f, hf, rfl⟩ := Option.map_eq_some_iff.mp hr
  exact ⟨e, he, List.mem_of_getElem? hf⟩

/-- Nothing was seen before, nothing is cleared, and there is room. -/
def Unhurt (cfg : SessionConfig) (e : Peer × Reception) : Prop :=
  e.2.frame.payload.length ≤ cfg.maxPayload ∧ e.2.frame.seq ∉ e.1.seen ∧
    ¬ Resets e.1 e.2.frame ∧
    ∀ seq ∈ e.1.reasm.keys, seq ∈ (evictReasm e.1 e.2.frame.seq cfg.maxReasm).keys

instance (cfg : SessionConfig) (e : Peer × Reception) : Decidable (Unhurt cfg e) :=
  inferInstanceAs (Decidable (_ ∧ _ ∧ _ ∧ _))

theorem mem_steps (cfg : SessionConfig) (p : Peer) (before : List Reception) (r : Reception)
    (rest : List Reception) :
    (after cfg p before, r) ∈ steps cfg p (before ++ r :: rest) := by
  induction before generalizing p with
  | nil => exact List.mem_cons_self
  | cons r' before ih => exact List.mem_cons_of_mem _ (ih (r'.next cfg p))

theorem allSound_of_unhurt {cfg : SessionConfig} {messages : List Message} {p : Peer}
    {l : List Reception} (h : ∀ e ∈ steps cfg p l, Unhurt cfg e) : AllSound cfg messages p l := by
  rintro before r rest rfl
  obtain ⟨hfits, hnew, hsame, hroom⟩ := h _ (mem_steps cfg p before r rest)
  exact ⟨fun _ _ => hfits, fun _ _ hseen => absurd hseen hnew, fun hreset => absurd hreset hsame,
    fun hreset => absurd hreset hsame, fun _ _ _ _ seq hkey hgone => absurd (hroom seq hkey) hgone⟩

/-- The second fragment comes first, alone or with a private message between the two. -/
def swapped : List Reception := arrivals [(plain, 1), (plain, 0)]

def between : List Reception := arrivals [(plain, 1), (privateText, 0), (plain, 0)]

theorem hello_integrity_swapped :
    Integrity .default [plain] (Peer.new 0) swapped ∧
      Integrity .default [plain, privateText] (Peer.new 0) between := by
  have hone : OneHello .default plain (Peer.new 0) swapped := by
    refine ⟨plain_valid, rfl, ?_, fun _ => by decide, rfl⟩
    intro r hr
    obtain ⟨e, he, hf⟩ := mem_arrivals hr
    have hplain : ∀ e ∈ [(plain, 1), (plain, 0)], e.1 = plain := by decide
    exact Message.isFragment_of_mem plain_valid (hplain e he ▸ hf)
  have hspared : Spared plain (Peer.new 0) swapped := by
    refine ⟨by decide +kernel, fun _ _ _ => List.not_mem_nil, ?_⟩
    intro before r rest hsplit hall
    obtain ⟨r', hr', -, hi⟩ := hall 0 (by decide)
    have hearly : ∀ r ∈ swapped.dropLast, r.frame.fragIndex.toNat ≠ 0 := by decide +kernel
    refine hearly r' ?_ hi
    rw [hsplit, List.dropLast_append_cons]
    exact List.mem_append_left _ hr'
  have hframes : Frames [plain, privateText] (Peer.new 0) between := by
    refine ⟨?_, by decide, ?_, fun _ _ => rfl⟩
    · simp [plain_valid, privateText_valid]
    · intro r hr
      obtain ⟨e, he, hf⟩ := mem_arrivals hr
      have hmem : ∀ e ∈ [(plain, 1), (privateText, 0), (plain, 0)],
          e.1 = plain ∨ e.1 = privateText := by decide
      rcases hmem e he with hm | hm
      · exact .inr ⟨plain, by simp, Message.isFragment_of_mem plain_valid (hm ▸ hf)⟩
      · exact .inr ⟨privateText, by simp, Message.isFragment_of_mem privateText_valid (hm ▸ hf)⟩
  have hsound : AllSound .default [plain, privateText] (Peer.new 0) between :=
    allSound_of_unhurt (by decide +kernel)
  exact ⟨((hello_integrity .default (Peer.new 0) swapped).1 plain hone (by decide)).mpr
      (.inr hspared),
    (hello_integrity .default (Peer.new 0) between).2 [plain, privateText] hframes hsound⟩

/-- A HELLO with an epoch is lost although both its fragments come; of one without an epoch, the
first fragment is handed up when it comes again. -/
theorem hello_lost_and_torn :
    ¬ Integrity .default [withEpoch] (Peer.new 0) (arrivals [(withEpoch, 0), (withEpoch, 1)]) ∧
      ¬ Integrity .default [plain] (Peer.new 0)
        (arrivals [(plain, 0), (plain, 1), (plain, 0)]) := by
  constructor
  · intro h
    have hnone : handed .default (Peer.new 0) (arrivals [(withEpoch, 0), (withEpoch, 1)]) = [] := by
      decide +kernel
    have hall : AllHeard withEpoch (arrivals [(withEpoch, 0), (withEpoch, 1)]) := by
      have hcame : ∀ i < withEpoch.parts.length,
          ∃ r ∈ arrivals [(withEpoch, 0), (withEpoch, 1)],
            r.frame ∈ withEpoch.frames ∧ r.frame.fragIndex.toNat = i := by decide +kernel
      intro i hi
      obtain ⟨r, hr, hf, hindex⟩ := hcame i hi
      exact ⟨r, hr, Message.isFragment_of_mem withEpoch_valid hf, hindex⟩
    obtain ⟨f, hf, -⟩ := (h.delivered withEpoch (List.mem_singleton.mpr rfl) rfl).mpr hall
    rw [hnone] at hf
    exact absurd hf List.not_mem_nil
  · intro h
    have htorn : (⟨.hello, Flags.ackReq, 1, 0, 2, [120], none⟩ : AircFrame) ∈
        handed .default (Peer.new 0) (arrivals [(plain, 0), (plain, 1), (plain, 0)]) := by
      decide +kernel
    obtain ⟨m, -, hwhole⟩ := h.whole _ htorn
    exact absurd hwhole.total (by decide)

end HelloFragments
