import Mathlib.Data.Finset.Card
import Rfircd.KeyedTable

/-! A memory of keys that is bounded in size and in time.
A new key takes the place of the oldest one, so that a key stays until its time is over or enough
others came after it. -/
namespace TimedMemory

open KeyedTable

variable {κ : Type*} [DecidableEq κ] {t : Table κ ℕ} {key k : κ} {since now : ℕ} {others : Finset κ}

def expire (ttl now : ℕ) (t : Table κ ℕ) : Table κ ℕ :=
  t.filterMap fun _ time => if now - time < ttl then some time else none

/-- A full memory gives its oldest key up. -/
def makeRoom (cap : ℕ) (t : Table κ ℕ) : Table κ ℕ :=
  if cap ≤ t.size then
    match t.leastKey id with
    | some oldest => t.erase oldest
    | none => t
  else t

def remember (cap : ℕ) (t : Table κ ℕ) (key : κ) (now : ℕ) : Table κ ℕ :=
  (makeRoom cap t).set key now

def seen (ttl : ℕ) (t : Table κ ℕ) (key : κ) (now : ℕ) : Bool :=
  (t.get key).any fun time => decide (now - time < ttl)

/-- The key was remembered at a time, and only the others were remembered since. -/
structure Keeps (key : κ) (since : ℕ) (others : Finset κ) (t : Table κ ℕ) : Prop where
  held : t.get key = some since
  rest : ∀ k time, t.get k = some time → k ≠ key → time < since ∨ k ∈ others

theorem Keeps.seen {ttl : ℕ} (h : Keeps key since others t) (htime : now - since < ttl) :
    seen ttl t key now = true := by
  simp [TimedMemory.seen, h.held, htime]

/-! ### Time -/

theorem expire_get {ttl time : ℕ} (h : (expire ttl now t).get k = some time) :
    t.get k = some time := by
  rw [expire, Table.get_filterMap] at h
  obtain ⟨v, hv, h⟩ := Option.bind_eq_some_iff.mp h
  split_ifs at h
  rwa [← Option.some.inj h]

theorem expire_unseen {ttl : ℕ} (h : seen ttl t k now = false) : (expire ttl now t).get k = none := by
  rw [expire, Table.get_filterMap]
  cases hk : t.get k with
  | none => rfl
  | some time =>
    rw [seen, hk, Option.any_some, decide_eq_false_iff_not] at h
    exact if_neg h

theorem Keeps.expire {ttl : ℕ} (h : Keeps key since others t) (htime : now - since < ttl) :
    Keeps key since others (expire ttl now t) where
  held := by
    rw [TimedMemory.expire, Table.get_filterMap, h.held, Option.bind_some, if_pos htime]
  rest k time hk := h.rest k time (expire_get hk)

/-! ### Room -/

theorem makeRoom_get {cap time : ℕ} (h : (makeRoom cap t).get k = some time) :
    t.get k = some time := by
  unfold makeRoom at h
  split_ifs at h
  · split at h
    · rw [Table.get_erase] at h
      split_ifs at h
      exact h
    · exact h
  · exact h

/-- A key that is given up was outrun: there are too many others. -/
theorem keeps_size (h : Keeps key since others t) (hnew : t.get k = none)
    (hleast : t.leastKey id = some key) : t.size ≤ (insert k others).card := by
  -- every other key is later than the oldest, and the new one is none of them
  have hothers : ∀ j ∈ t.keys.toFinset.erase key, j ∈ others.erase k := by
    intro j hj
    obtain ⟨hne, hmem⟩ := Finset.mem_erase.mp hj
    obtain ⟨time, hj⟩ := Option.isSome_iff_exists.mp
      (Table.mem_keys_iff.mp (List.mem_toFinset.mp hmem))
    have hlater : since ≤ time := Table.leastKey_least hleast h.held hj
    have hjk : j ≠ k := by
      rintro rfl
      rw [hnew] at hj
      cases hj
    rcases h.rest j time hj hne with hbefore | hother
    · omega
    · exact Finset.mem_erase.mpr ⟨hjk, hother⟩
  have hkey : key ∈ t.keys.toFinset :=
    List.mem_toFinset.mpr (Table.mem_keys_iff.mpr (by rw [h.held]; rfl))
  have hcard : t.keys.toFinset.card = t.size :=
    (List.toFinset_card_of_nodup t.nodup).trans (List.length_map _)
  calc t.size = (t.keys.toFinset.erase key).card + 1 := by
        rw [← hcard, Finset.card_erase_add_one hkey]
    _ ≤ (others.erase k).card + 1 := Nat.add_le_add_right (Finset.card_le_card hothers) 1
    _ = (insert k others).card := by
        rw [← Finset.card_erase_add_one (Finset.mem_insert_self k others),
          Finset.erase_insert_eq_erase]

theorem Keeps.makeRoom {cap : ℕ} (h : Keeps key since others t) (hnew : t.get k = none)
    (hfew : (insert k others).card < cap) : Keeps key since others (makeRoom cap t) := by
  refine ⟨?_, fun j time hj => h.rest j time (makeRoom_get hj)⟩
  unfold TimedMemory.makeRoom
  split_ifs with hfull
  · split
    · rename_i oldest hleast
      rw [Table.get_erase, if_neg, h.held]
      rintro rfl
      have := keeps_size h hnew hleast
      omega
    · exact h.held
  · exact h.held

/-- A key stays when few others are remembered after it. -/
theorem Keeps.remember {cap : ℕ} (h : Keeps key since others t) (hnew : t.get k = none)
    (hfew : (insert k others).card < cap) : Keeps key since (insert k others) (remember cap t k now) := by
  have hroom := h.makeRoom hnew hfew
  have hne : key ≠ k := by
    rintro rfl
    cases hnew.symm.trans h.held
  refine ⟨?_, fun j time hj hjkey => ?_⟩
  · rw [TimedMemory.remember, Table.get_set, if_neg hne, hroom.held]
  · rw [TimedMemory.remember, Table.get_set] at hj
    split_ifs at hj with heq
    · exact .inr (heq ▸ Finset.mem_insert_self ..)
    · exact (hroom.rest j time hj hjkey).imp_right (Finset.mem_insert_of_mem ·)

/-- A key that was just remembered is the last. -/
theorem remember_keeps {cap : ℕ} (h : ∀ k time, t.get k = some time → time < now) :
    Keeps key now ∅ (remember cap t key now) := by
  refine ⟨Table.get_set_self .., fun j time hj hne => .inl ?_⟩
  rw [remember, Table.get_set, if_neg hne] at hj
  exact h j time (makeRoom_get hj)

end TimedMemory
