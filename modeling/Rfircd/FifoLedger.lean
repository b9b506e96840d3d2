import Mathlib.Data.Nat.Basic
import Mathlib.Order.Basic

/-! The accounts of a sender that has one message out at a time and keeps the others in a queue.
A message is the list of its frames; `Copy` says which frames may stand for a frame. -/
namespace FifoLedger

variable {φ : Type*}

/-- How a message comes to its end. -/
inductive Fate where
  | completed
  | givenUp
  | discarded
  deriving DecidableEq

inductive Entry (φ : Type*) where
  | accept (m : List φ)
  | put (f : φ)
  | settle (fate : Fate)

/-- `puts` has every frame that went out, with the number of messages that had come to their end
before it. -/
structure Ledger (φ : Type*) where
  accepted : List (List φ)
  fates : List Fate
  puts : List (ℕ × φ)
  deriving DecidableEq

namespace Ledger

def empty : Ledger φ := ⟨[], [], []⟩

def record (l : Ledger φ) : Entry φ → Ledger φ
  | .accept m => { l with accepted := l.accepted ++ [m] }
  | .put f => { l with puts := l.puts ++ [(l.fates.length, f)] }
  | .settle fate => { l with fates := l.fates ++ [fate] }

def enter (l : Ledger φ) (es : List (Entry φ)) : Ledger φ := es.foldl record l

theorem enter_append (l : Ledger φ) (es es' : List (Entry φ)) :
    l.enter (es ++ es') = (l.enter es).enter es' := List.foldl_append

theorem enter_puts (l : Ledger φ) (frames : List φ) :
    l.enter (frames.map .put) = { l with puts := l.puts ++ frames.map (l.fates.length, ·) } := by
  induction frames generalizing l with
  | nil => simp [enter]
  | cons f frames ih =>
    rw [List.map_cons, enter, List.foldl_cons, ← enter, ih]
    simp [record]

theorem enter_discards (l : Ledger φ) (k : ℕ) :
    l.enter (List.replicate k (.settle .discarded)) =
      { l with fates := l.fates ++ List.replicate k .discarded } := by
  induction k generalizing l with
  | zero => simp [enter]
  | succ k ih =>
    rw [List.replicate_succ, enter, List.foldl_cons, ← enter, ih, List.replicate_succ]
    simp [record]

end Ledger

def putAll (frames : List φ) : List (Entry φ) := frames.map .put

/-- The frames among the entries. -/
def Entry.frame : Entry φ → Option φ
  | .put f => some f
  | _ => none

variable (Copy : φ → φ → Prop)

/-- Every frame of the message went out while `n` messages had come to their end. -/
def PutOut (l : Ledger φ) (n : ℕ) (m : List φ) : Prop := ∀ g ∈ m, ∃ f, (n, f) ∈ l.puts ∧ Copy g f

/-- The messages come to their end in the order they were accepted in. The first that has not is
in flight, the others wait; a frame that goes out is one of the message in flight. -/
structure Balanced (flying : Option (List φ)) (waiting : List (List φ)) (l : Ledger φ) : Prop where
  settled : l.fates.length ≤ l.accepted.length
  left : l.accepted.drop l.fates.length = flying.toList ++ waiting
  order : l.puts.Pairwise fun a b => a.1 ≤ b.1
  past : ∀ n f, (n, f) ∈ l.puts → n ≤ l.fates.length
  content : ∀ n f, (n, f) ∈ l.puts → ∃ m, l.accepted[n]? = some m ∧ ∃ g ∈ m, Copy g f
  finished : ∀ n fate, l.fates[n]? = some fate → fate ≠ .discarded →
    ∀ m, l.accepted[n]? = some m → PutOut Copy l n m
  started : ∀ m, flying = some m → PutOut Copy l l.fates.length m

variable {Copy} {flying : Option (List φ)} {waiting : List (List φ)} {l : Ledger φ}

theorem balanced_empty : Balanced Copy none [] (Ledger.empty : Ledger φ) where
  settled := le_rfl
  left := rfl
  order := .nil
  past n f h := absurd h List.not_mem_nil
  content n f h := absurd h List.not_mem_nil
  finished n fate h := by simp [Ledger.empty] at h
  started m h := by cases h

theorem PutOut.mono {l l' : Ledger φ} {n : ℕ} {m : List φ} (h : PutOut Copy l n m)
    (hp : ∀ e ∈ l.puts, e ∈ l'.puts) : PutOut Copy l' n m := by
  intro g hg
  obtain ⟨f, hf, hcopy⟩ := h g hg
  exact ⟨f, hp _ hf, hcopy⟩

/-- The message in flight is the first that has not come to its end. -/
theorem Balanced.current (h : Balanced Copy flying waiting l) {m : List φ} {rest : List (List φ)}
    (hm : flying.toList ++ waiting = m :: rest) : l.accepted[l.fates.length]? = some m := by
  have hhead : (l.accepted.drop l.fates.length)[0]? = some m := by rw [h.left, hm]; rfl
  simpa using hhead

theorem Balanced.accept (h : Balanced Copy flying waiting l) (m : List φ) :
    Balanced Copy flying (waiting ++ [m]) (l.enter [.accept m]) := by
  have hkept : ∀ (n : ℕ) (m' : List φ), l.accepted[n]? = some m' → (l.accepted ++ [m])[n]? = some m' := by
    intro n m' hn
    rw [List.getElem?_append_left (List.getElem?_eq_some_iff.mp hn).1]
    exact hn
  have hsettled := h.settled
  refine ⟨?_, ?_, h.order, h.past, ?_, ?_, h.started⟩
  · change l.fates.length ≤ (l.accepted ++ [m]).length
    rw [List.length_append]
    omega
  · change (l.accepted ++ [m]).drop l.fates.length = _
    rw [List.drop_append_of_le_length hsettled, h.left, List.append_assoc]
  · intro n f hf
    obtain ⟨m', hm', hpart⟩ := h.content n f hf
    exact ⟨m', hkept n m' hm', hpart⟩
  · intro n fate hn hfate m' hm'
    have hlt := (List.getElem?_eq_some_iff.mp hn).1
    change (l.accepted ++ [m])[n]? = some m' at hm'
    rw [List.getElem?_append_left (lt_of_lt_of_le hlt hsettled)] at hm'
    exact h.finished n fate hn hfate m' hm'

/-- Frames of the first message that has not come to its end go out. -/
theorem Balanced.put_first (h : Balanced Copy flying waiting l) {m : List φ}
    {rest : List (List φ)} (hm : flying.toList ++ waiting = m :: rest) {frames : List φ}
    (hf : ∀ f ∈ frames, ∃ g ∈ m, Copy g f) :
    Balanced Copy flying waiting (l.enter (putAll frames)) := by
  have hnew : ∀ e ∈ frames.map (l.fates.length, ·), e.1 = l.fates.length := by
    intro e he
    obtain ⟨f, -, rfl⟩ := List.mem_map.mp he
    rfl
  rw [putAll, Ledger.enter_puts]
  refine ⟨h.settled, h.left, ?_, ?_, ?_, ?_, ?_⟩
  · refine List.pairwise_append.mpr ⟨h.order, ?_, ?_⟩
    · refine List.pairwise_iff_forall_sublist.mpr fun {a b} hab => ?_
      have ha := hnew a (hab.subset (by simp))
      have hb := hnew b (hab.subset (by simp))
      omega
    · intro a ha b hb
      rw [hnew b hb]
      exact h.past a.1 a.2 ha
  · intro n f hmem
    rcases List.mem_append.mp hmem with hmem | hmem
    · exact h.past n f hmem
    · exact (hnew _ hmem).le
  · intro n f hmem
    rcases List.mem_append.mp hmem with hmem | hmem
    · exact h.content n f hmem
    · obtain ⟨f', hf', heq⟩ := List.mem_map.mp hmem
      obtain ⟨rfl, rfl⟩ := Prod.mk.inj heq
      exact ⟨m, h.current hm, hf f' hf'⟩
  · intro n fate hn hfate m' hm'
    exact (h.finished n fate hn hfate m' hm').mono fun e he => List.mem_append_left _ he
  · intro m' hm'
    exact (h.started m' hm').mono fun e he => List.mem_append_left _ he

theorem Balanced.put {m : List φ} (h : Balanced Copy (some m) waiting l) {frames : List φ}
    (hf : ∀ f ∈ frames, ∃ g ∈ m, Copy g f) :
    Balanced Copy (some m) waiting (l.enter (putAll frames)) :=
  h.put_first rfl hf

/-- All frames of the message whose turn it is go out. -/
theorem Balanced.start {m : List φ} (h : Balanced Copy none (m :: waiting) l) (frames : List φ)
    (hall : ∀ g ∈ m, ∃ f ∈ frames, Copy g f) (hf : ∀ f ∈ frames, ∃ g ∈ m, Copy g f) :
    Balanced Copy (some m) waiting (l.enter (putAll frames)) := by
  obtain ⟨hsettled, hleft, horder, hpast, hcontent, hfinished, -⟩ := h.put_first rfl hf
  refine ⟨hsettled, hleft, horder, hpast, hcontent, hfinished, ?_⟩
  intro m' hm' g hg
  obtain rfl := Option.some.inj hm'
  obtain ⟨f, hmem, hcopy⟩ := hall g hg
  rw [putAll, Ledger.enter_puts]
  exact ⟨f, List.mem_append_right _ (List.mem_map.mpr ⟨f, hmem, rfl⟩), hcopy⟩

/-- The message in flight comes to its end. -/
theorem Balanced.settle {m : List φ} (h : Balanced Copy (some m) waiting l) (fate : Fate) :
    Balanced Copy none waiting (l.enter [.settle fate]) := by
  have hcurrent := h.current rfl
  have hlt := (List.getElem?_eq_some_iff.mp hcurrent).1
  have hlength : (l.fates ++ [fate]).length = l.fates.length + 1 := List.length_append
  refine ⟨?_, ?_, h.order, ?_, h.content, ?_, fun m' hm' => by cases hm'⟩
  · change (l.fates ++ [fate]).length ≤ l.accepted.length
    omega
  · change l.accepted.drop (l.fates ++ [fate]).length = waiting
    rw [hlength, ← List.tail_drop, h.left]
    rfl
  · intro n f hf
    have := h.past n f hf
    change n ≤ (l.fates ++ [fate]).length
    omega
  · intro n fate' hn hfate m' hm'
    change (l.fates ++ [fate])[n]? = some fate' at hn
    by_cases hold : n < l.fates.length
    · rw [List.getElem?_append_left hold] at hn
      exact h.finished n fate' hn hfate m' hm'
    · have hn' := (List.getElem?_eq_some_iff.mp hn).1
      obtain rfl : n = l.fates.length := by omega
      obtain rfl := Option.some.inj (hcurrent.symm.trans hm')
      exact h.started m rfl

/-- All that is left is thrown away. -/
theorem Balanced.discard (h : Balanced Copy flying waiting l) :
    Balanced Copy none []
      (l.enter (List.replicate (flying.toList ++ waiting).length (.settle .discarded))) := by
  have hlength : (l.fates ++ List.replicate (flying.toList ++ waiting).length Fate.discarded).length =
      l.accepted.length := by
    have := h.settled
    rw [List.length_append, List.length_replicate, ← h.left, List.length_drop]
    omega
  rw [Ledger.enter_discards]
  refine ⟨hlength.le, List.drop_of_length_le hlength.ge, h.order, ?_, h.content, ?_,
    fun m hm => by cases hm⟩
  · intro n f hf
    refine (h.past n f hf).trans ?_
    rw [List.length_append]
    exact Nat.le_add_right _ _
  · intro n fate hn hfate m hm
    rw [List.getElem?_append] at hn
    split_ifs at hn with hold
    · exact h.finished n fate hn hfate m hm
    · exact absurd (List.eq_of_mem_replicate (List.mem_of_getElem? hn)) hfate

/-! ### How many frames a message may use -/

namespace Ledger

/-- The frames that went out while `k` messages had come to their end. -/
def used (l : Ledger φ) (k : ℕ) : ℕ := l.puts.countP (·.1 = k)

theorem used_put (l : Ledger φ) (frames : List φ) (k : ℕ) :
    (l.enter (putAll frames)).used k =
      l.used k + if k = l.fates.length then frames.length else 0 := by
  rw [putAll, enter_puts, used, List.countP_append, List.countP_map]
  congr 1
  split_ifs with hk
  · exact List.countP_eq_length.mpr fun f _ => by simp [hk]
  · exact List.countP_eq_zero.mpr fun f _ => by simpa using Ne.symm hk

end Ledger

/-- A message may use `bound` frames; `left` is what the one in flight has left of them. -/
structure Within (bound : List φ → ℕ) (left : ℕ) (l : Ledger φ) : Prop where
  each : ∀ k m, l.accepted[k]? = some m → l.used k ≤ bound m
  flying : ∀ m, l.accepted[l.fates.length]? = some m → l.used l.fates.length + left ≤ bound m

section

variable {bound : List φ → ℕ} {left left' : ℕ}

theorem within_empty : Within bound left (Ledger.empty : Ledger φ) where
  each k m h := by simp [Ledger.empty] at h
  flying m h := by simp [Ledger.empty] at h

/-- A message that has not had its turn has used nothing. -/
theorem Balanced.used_later (h : Balanced Copy flying waiting l) {k : ℕ}
    (hk : l.fates.length < k) : l.used k = 0 := by
  apply List.countP_eq_zero.mpr
  rintro ⟨n, f⟩ hmem hn
  have hpast := h.past n f hmem
  obtain rfl : n = k := of_decide_eq_true hn
  omega

theorem Within.put (h : Within bound left l) {frames : List φ}
    (hleft : frames.length + left' ≤ left) : Within bound left' (l.enter (putAll frames)) := by
  have haccepted : (l.enter (putAll frames)).accepted = l.accepted := by
    rw [putAll, Ledger.enter_puts]
  have hfates : (l.enter (putAll frames)).fates = l.fates := by
    rw [putAll, Ledger.enter_puts]
  constructor
  · intro k m hm
    rw [haccepted] at hm
    have hbound := h.each k m hm
    rw [Ledger.used_put]
    split_ifs with hk
    · subst hk
      have := h.flying m hm
      omega
    · omega
  · intro m hm
    rw [haccepted, hfates] at hm
    have := h.flying m hm
    rw [hfates, Ledger.used_put, if_pos rfl]
    omega

theorem Within.le (h : Within bound left l) (hleft : left' ≤ left) : Within bound left' l :=
  ⟨h.each, fun m hm => (Nat.add_le_add_left hleft _).trans (h.flying m hm)⟩

/-- A message that is accepted while another is in flight. -/
theorem Within.accept (h : Within bound left l) (hb : Balanced Copy flying waiting l)
    (m : List φ) (hflying : flying.toList ++ waiting ≠ []) :
    Within bound left (l.enter [.accept m]) := by
  have hlt : l.fates.length < l.accepted.length := by
    have hlength : (l.accepted.drop l.fates.length).length ≠ 0 := by
      rw [hb.left]
      exact fun h0 => hflying (List.eq_nil_of_length_eq_zero h0)
    rw [List.length_drop] at hlength
    omega
  constructor
  · intro k m' hm'
    change (l.accepted ++ [m])[k]? = some m' at hm'
    change l.used k ≤ bound m'
    rw [List.getElem?_append] at hm'
    split_ifs at hm' with hk
    · exact h.each k m' hm'
    · rw [hb.used_later (by omega)]
      exact Nat.zero_le _
  · intro m' hm'
    change (l.accepted ++ [m])[l.fates.length]? = some m' at hm'
    rw [List.getElem?_append_left hlt] at hm'
    exact h.flying m' hm'

/-- With nothing in flight, a message that is accepted has its whole bound. -/
theorem Within.accept_first (h : Within bound left l) (hb : Balanced Copy none [] l)
    {m : List φ} (hleft : left' ≤ bound m) : Within bound left' (l.enter [.accept m]) := by
  have hlength : l.fates.length = l.accepted.length := by
    have hnil := hb.left
    have := hb.settled
    rw [Option.toList_none, List.nil_append, List.drop_eq_nil_iff] at hnil
    omega
  have hunused : l.used l.accepted.length = 0 := by
    apply List.countP_eq_zero.mpr
    rintro ⟨n, f⟩ hmem hn
    obtain rfl : n = l.accepted.length := of_decide_eq_true hn
    obtain ⟨m', hm', -⟩ := hb.content _ f hmem
    simp at hm'
  constructor
  · intro k m' hm'
    change (l.accepted ++ [m])[k]? = some m' at hm'
    change l.used k ≤ bound m'
    rw [List.getElem?_append] at hm'
    split_ifs at hm' with hk
    · exact h.each k m' hm'
    · have hlt := (List.getElem?_eq_some_iff.mp hm').1
      obtain rfl : k = l.accepted.length := by
        rw [List.length_singleton] at hlt
        omega
      rw [hunused]
      exact Nat.zero_le _
  · intro m' hm'
    change (l.accepted ++ [m])[l.fates.length]? = some m' at hm'
    change l.used l.fates.length + left' ≤ bound m'
    rw [hlength, List.getElem?_append_right le_rfl, Nat.sub_self] at hm'
    obtain rfl := Option.some.inj hm'
    rw [hlength, hunused, Nat.zero_add]
    exact hleft

/-- The next message has its whole bound. -/
theorem Within.settle (h : Within bound left l) (hb : Balanced Copy flying waiting l) (fate : Fate)
    (hleft : ∀ m, l.accepted[l.fates.length + 1]? = some m → left' ≤ bound m) :
    Within bound left' (l.enter [.settle fate]) := by
  refine ⟨h.each, ?_⟩
  intro m hm
  change l.accepted[(l.fates ++ [fate]).length]? = some m at hm
  change l.used (l.fates ++ [fate]).length + left' ≤ bound m
  rw [List.length_append, List.length_singleton] at hm ⊢
  rw [hb.used_later (Nat.lt_succ_self _), Nat.zero_add]
  exact hleft m hm

theorem Within.discard (h : Within bound left l) (hb : Balanced Copy flying waiting l) :
    Within bound left'
      (l.enter (List.replicate (flying.toList ++ waiting).length (.settle .discarded))) := by
  have hend := hb.discard
  rw [Ledger.enter_discards] at hend ⊢
  have hall := hend.left
  rw [Option.toList_none, List.nil_append, List.drop_eq_nil_iff] at hall
  refine ⟨h.each, ?_⟩
  intro m hm
  rw [List.getElem?_eq_none hall] at hm
  cases hm

end

end FifoLedger
