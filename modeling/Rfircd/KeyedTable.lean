import Mathlib.Algebra.GroupWithZero.Nat
import Mathlib.Data.List.Nodup
import Mathlib.Data.List.Dedup

/-! Finite tables with one entry for each key, in the order the keys came in. -/
namespace KeyedTable

structure Table (κ ν : Type*) where
  entries : List (κ × ν)
  nodup : (entries.map Prod.fst).Nodup

namespace Table

variable {κ ν : Type*} [DecidableEq κ]

def empty : Table κ ν := ⟨[], List.nodup_nil⟩

def keys (t : Table κ ν) : List κ := t.entries.map Prod.fst

def size (t : Table κ ν) : ℕ := t.entries.length

def get (t : Table κ ν) (k : κ) : Option ν := (t.entries.find? (·.1 = k)).map Prod.snd

/-- Replaces the value of a key in its place, or adds the key at the end. -/
def set (t : Table κ ν) (k : κ) (v : ν) : Table κ ν :=
  if h : k ∈ t.keys then
    ⟨t.entries.map fun e => if e.1 = k then (k, v) else e, by
      have : (t.entries.map fun e => if e.1 = k then (k, v) else e).map Prod.fst = t.keys := by
        rw [List.map_map]
        apply List.map_congr_left
        intro e _
        by_cases he : e.1 = k <;> simp [he]
      rw [this]
      exact t.nodup⟩
  else
    ⟨t.entries ++ [(k, v)], by
      rw [List.map_append, List.map_cons, List.map_nil]
      exact t.nodup.append (List.nodup_singleton k) (List.disjoint_singleton.mpr h)⟩

/-- Changes or removes every entry. -/
def filterMap (t : Table κ ν) (f : κ → ν → Option ν) : Table κ ν :=
  ⟨t.entries.filterMap fun e => (f e.1 e.2).map (e.1, ·), by
    have : ∀ l : List (κ × ν),
        ((l.filterMap fun e => (f e.1 e.2).map (e.1, ·)).map Prod.fst).Sublist (l.map Prod.fst) := by
      intro l
      induction l with
      | nil => exact .slnil
      | cons e l ih =>
        rw [List.filterMap_cons]
        cases f e.1 e.2 with
        | none => exact ih.cons _
        | some v => exact ih.cons_cons _
    exact t.nodup.sublist (this t.entries)⟩

def erase (t : Table κ ν) (k : κ) : Table κ ν :=
  t.filterMap fun j v => if j = k then none else some v

omit [DecidableEq κ] in
/-- The entry of least measure, the first of them when there are several. -/
def leastKey (t : Table κ ν) (measure : ν → ℕ) : Option κ :=
  (t.entries.foldl (fun best e => match best with
    | none => some e
    | some b => if measure e.2 < measure b.2 then some e else some b) none).map Prod.fst

theorem mem_entries_iff {t : Table κ ν} {k : κ} {v : ν} :
    (k, v) ∈ t.entries ↔ t.get k = some v := by
  rcases t with ⟨l, hl⟩
  unfold get
  induction l with
  | nil => simp
  | cons e l ih =>
    rw [List.map_cons, List.nodup_cons] at hl
    rcases e with ⟨j, w⟩
    rw [List.mem_cons, ih hl.2, List.find?_cons]
    by_cases hj : j = k
    · subst hj
      have : (l.find? (·.1 = j)).map Prod.snd = none := by
        rw [Option.map_eq_none_iff, List.find?_eq_none]
        intro e he hej
        exact hl.1 (List.mem_map.mpr ⟨e, he, by simpa using hej⟩)
      rw [this]
      simp [eq_comm (a := v)]
    · simp [hj, Ne.symm hj]

theorem mem_keys_iff {t : Table κ ν} {k : κ} : k ∈ t.keys ↔ (t.get k).isSome := by
  rw [Option.isSome_iff_exists, keys, List.mem_map]
  constructor
  · rintro ⟨⟨j, v⟩, he, rfl⟩
    exact ⟨v, mem_entries_iff.mp he⟩
  · rintro ⟨v, hv⟩
    exact ⟨(k, v), mem_entries_iff.mpr hv, rfl⟩

@[simp] theorem get_empty (k : κ) : (empty : Table κ ν).get k = none := rfl

theorem get_set (t : Table κ ν) (k : κ) (v : ν) (j : κ) :
    (t.set k v).get j = if j = k then some v else t.get j := by
  apply Option.ext
  intro w
  rw [← mem_entries_iff, set]
  by_cases h : k ∈ t.keys
  · rw [dif_pos h]
    simp only [List.mem_map]
    constructor
    · rintro ⟨⟨i, u⟩, he, heq⟩
      by_cases hi : i = k
      · rw [if_pos hi, Prod.mk.injEq] at heq
        rw [if_pos heq.1.symm, heq.2]
      · rw [if_neg hi, Prod.mk.injEq] at heq
        obtain ⟨rfl, rfl⟩ := heq
        rw [if_neg hi]
        exact mem_entries_iff.mp he
    · intro hw
      split_ifs at hw with hj
      · obtain rfl := Option.some.inj hw
        obtain ⟨e, he, rfl⟩ := List.mem_map.mp h
        exact ⟨e, he, by rw [if_pos rfl, hj]⟩
      · exact ⟨(j, w), mem_entries_iff.mpr hw, if_neg hj⟩
  · rw [dif_neg h]
    simp only [List.mem_append, List.mem_singleton, Prod.mk.injEq, mem_entries_iff]
    split_ifs with hj
    · subst hj
      have : t.get j = none := by
        rw [mem_keys_iff, Option.not_isSome_iff_eq_none] at h
        exact h
      simp [this, eq_comm]
    · simp [hj]

@[simp] theorem get_set_self (t : Table κ ν) (k : κ) (v : ν) : (t.set k v).get k = some v := by
  rw [get_set, if_pos rfl]

theorem get_set_ne (t : Table κ ν) {k j : κ} (h : j ≠ k) (v : ν) :
    (t.set k v).get j = t.get j := by
  rw [get_set, if_neg h]

/-- The last value of a key counts. -/
theorem set_set (t : Table κ ν) (k : κ) (v w : ν) : (t.set k v).set k w = t.set k w := by
  have hmem : k ∈ (t.set k v).keys := by
    rw [mem_keys_iff, get_set_self]
    rfl
  have hentries : ((t.set k v).set k w).entries =
      (t.set k v).entries.map fun e => if e.1 = k then (k, w) else e := by
    rw [set, dif_pos hmem]
  have hext : ∀ {a b : Table κ ν}, a.entries = b.entries → a = b := by
    rintro ⟨_, _⟩ ⟨_, _⟩ rfl
    rfl
  apply hext
  rw [hentries]
  by_cases hk : k ∈ t.keys
  · rw [set, dif_pos hk, set, dif_pos hk, List.map_map]
    apply List.map_congr_left
    intro e _
    by_cases he : e.1 = k <;> simp [he]
  · rw [set, dif_neg hk, set, dif_neg hk, List.map_append]
    have hold : t.entries.map (fun e => if e.1 = k then (k, w) else e) = t.entries := by
      rw [List.map_congr_left (g := id), List.map_id]
      intro e he
      rw [if_neg fun h => hk (List.mem_map.mpr ⟨e, he, h⟩)]
      rfl
    rw [hold]
    simp

theorem get_filterMap (t : Table κ ν) (f : κ → ν → Option ν) (k : κ) :
    (t.filterMap f).get k = (t.get k).bind (f k) := by
  apply Option.ext
  intro w
  rw [← mem_entries_iff, filterMap, Option.bind_eq_some_iff]
  simp only [List.mem_filterMap, Option.map_eq_some_iff, Prod.mk.injEq]
  constructor
  · rintro ⟨⟨j, v⟩, he, u, hu, rfl, rfl⟩
    exact ⟨v, mem_entries_iff.mp he, hu⟩
  · rintro ⟨v, hv, hw⟩
    exact ⟨(k, v), mem_entries_iff.mpr hv, w, hw, rfl, rfl⟩

theorem get_erase (t : Table κ ν) (k j : κ) :
    (t.erase k).get j = if j = k then none else t.get j := by
  rw [erase, get_filterMap]
  by_cases h : j = k
  · simp [h]
  · simp [h]

omit [DecidableEq κ] in
/-- The search ends at one of the entries, and none has a lesser measure. -/
theorem search_least (measure : ν → ℕ) (l : List (κ × ν)) (best : κ × ν) : ∃ e ∈ best :: l,
    l.foldl (fun best e => match best with
      | none => some e
      | some b => if measure e.2 < measure b.2 then some e else some b) (some best) = some e ∧
    ∀ x ∈ best :: l, measure e.2 ≤ measure x.2 := by
  induction l generalizing best with
  | nil => exact ⟨best, List.mem_cons_self, rfl, by simp⟩
  | cons x l ih =>
    rw [List.foldl_cons]
    dsimp only
    split_ifs with hx
    · obtain ⟨e, hmem, hr, hall⟩ := ih x
      refine ⟨e, List.mem_cons_of_mem _ hmem, hr, ?_⟩
      have hnew := hall x List.mem_cons_self
      exact List.forall_mem_cons.mpr ⟨by omega, hall⟩
    · obtain ⟨e, hmem, hr, hall⟩ := ih best
      have hold := hall best List.mem_cons_self
      refine ⟨e, ?_, hr, ?_⟩
      · rcases List.mem_cons.mp hmem with rfl | hmem
        · exact List.mem_cons_self
        · exact List.mem_cons_of_mem _ (List.mem_cons_of_mem _ hmem)
      · have hrest := fun y hy => hall y (List.mem_cons_of_mem _ hy)
        exact List.forall_mem_cons.mpr ⟨hold, List.forall_mem_cons.mpr ⟨by omega, hrest⟩⟩

omit [DecidableEq κ] in
/-- The entry that comes out of the search is one of the table, and there is one unless the table
is empty. -/
theorem leastKey_mem {t : Table κ ν} (measure : ν → ℕ) (h : t.entries ≠ []) :
    ∃ k ∈ t.keys, t.leastKey measure = some k := by
  obtain ⟨x, l, hl⟩ := List.exists_cons_of_ne_nil h
  obtain ⟨e, he, hr, -⟩ := search_least measure l x
  refine ⟨e.1, List.mem_map.mpr ⟨e, hl ▸ he, rfl⟩, ?_⟩
  rw [leastKey, hl, List.foldl_cons]
  exact congrArg (Option.map Prod.fst) hr

/-- No entry has a lesser measure than the one that is found. -/
theorem leastKey_least {t : Table κ ν} {measure : ν → ℕ} {k j : κ} {v w : ν}
    (hleast : t.leastKey measure = some k) (hk : t.get k = some v) (hj : t.get j = some w) :
    measure v ≤ measure w := by
  obtain ⟨e, he, rfl⟩ := Option.map_eq_some_iff.mp hleast
  cases hl : t.entries with
  | nil =>
    rw [hl] at he
    cases he
  | cons x l =>
    rw [hl, List.foldl_cons] at he
    obtain ⟨e', hmem, hr, hall⟩ := search_least measure l x
    obtain rfl := Option.some.inj (he.symm.trans hr)
    rw [← hl] at hmem hall
    have hv : t.get e.1 = some e.2 := mem_entries_iff.mp hmem
    obtain rfl := Option.some.inj (hk.symm.trans hv)
    exact hall (j, w) (mem_entries_iff.mpr hj)

theorem keys_erase (t : Table κ ν) (k : κ) : (t.erase k).keys = t.keys.filter (· ≠ k) := by
  rcases t with ⟨l, hl⟩
  simp only [erase, filterMap, keys]
  clear hl
  induction l with
  | nil => rfl
  | cons e l ih =>
    rcases e with ⟨j, v⟩
    by_cases hj : j = k <;> simp [hj, ih]

theorem size_erase {t : Table κ ν} {k : κ} (h : k ∈ t.keys) : (t.erase k).size + 1 = t.size := by
  have hkeys : (t.erase k).keys = t.keys.erase k := by
    have hnodup : t.keys.Nodup := t.nodup
    rw [keys_erase, hnodup.erase_eq_filter]
    exact List.filter_congr fun j _ => by by_cases hj : j = k <;> simp [hj]
  have hsize : ∀ s : Table κ ν, s.size = s.keys.length := fun s => (List.length_map _).symm
  have hpos := List.length_pos_of_mem h
  rw [hsize, hsize, hkeys, List.length_erase_of_mem h]
  omega

omit [DecidableEq κ] in
theorem size_filterMap_le (t : Table κ ν) (f : κ → ν → Option ν) :
    (t.filterMap f).size ≤ t.size :=
  List.length_filterMap_le _ _

theorem size_set (t : Table κ ν) (k : κ) (v : ν) :
    (t.set k v).size = if k ∈ t.keys then t.size else t.size + 1 := by
  unfold set
  by_cases h : k ∈ t.keys
  · rw [dif_pos h, if_pos h]
    exact List.length_map _
  · rw [dif_neg h, if_neg h]
    exact List.length_append

/-- An entry of a changed table is the changed one, or was there. -/
theorem mem_set {t : Table κ ν} {k : κ} {v : ν} {e : κ × ν}
    (h : e ∈ (t.set k v).entries) : e = (k, v) ∨ e ∈ t.entries := by
  obtain ⟨j, w⟩ := e
  rw [mem_entries_iff, get_set] at h
  split_ifs at h with hk
  · exact .inl (by rw [hk, Option.some.inj h])
  · exact .inr (mem_entries_iff.mpr h)

theorem mem_erase {t : Table κ ν} {k : κ} {e : κ × ν} (h : e ∈ (t.erase k).entries) :
    e ∈ t.entries := by
  obtain ⟨j, w⟩ := e
  rw [mem_entries_iff, get_erase] at h
  split_ifs at h
  exact mem_entries_iff.mpr h

omit [DecidableEq κ] in
/-- The weights of all values together. -/
def weight (w : ν → ℕ) (t : Table κ ν) : ℕ := (t.entries.map fun e => w e.2).sum

theorem weight_set (w : ν → ℕ) (t : Table κ ν) (k : κ) (v : ν) :
    (t.set k v).weight w + (t.get k).elim 0 w = t.weight w + w v := by
  have hsame : ∀ l : List (κ × ν), k ∉ l.map Prod.fst →
      (l.map fun e => if e.1 = k then (k, v) else e) = l := by
    intro l hl
    refine (List.map_congr_left fun e he => ?_).trans (List.map_id l)
    rw [id_eq, if_neg]
    rintro rfl
    exact hl (List.mem_map_of_mem he)
  have hreplaced : ∀ l : List (κ × ν), (l.map Prod.fst).Nodup → k ∈ l.map Prod.fst →
      ((l.map fun e => if e.1 = k then (k, v) else e).map fun e => w e.2).sum +
        ((l.find? (·.1 = k)).map Prod.snd).elim 0 w = (l.map fun e => w e.2).sum + w v := by
    intro l hl hk
    induction l with
    | nil => cases hk
    | cons e l ih =>
      obtain ⟨j, x⟩ := e
      obtain ⟨hj, hl⟩ := List.nodup_cons.mp hl
      by_cases hjk : j = k
      · subst hjk
        rw [List.map_cons, hsame l hj]
        simp
        omega
      · have hk : k ∈ l.map Prod.fst := (List.mem_cons.mp hk).resolve_left fun h => hjk h.symm
        have hrest := ih hl hk
        simp [hjk]
        simp at hrest
        omega
  by_cases h : k ∈ t.keys
  · simp only [set, dif_pos h, weight]
    exact hreplaced t.entries t.nodup h
  · have hnone : t.get k = none := by simpa using (mem_keys_iff (t := t) (k := k)).not.mp h
    rw [hnone]
    simp [set, dif_neg h, weight]

omit [DecidableEq κ] in
theorem weight_filterMap_le {w : ν → ℕ} {f : κ → ν → Option ν}
    (h : ∀ k v v', f k v = some v' → w v' ≤ w v) (t : Table κ ν) :
    (t.filterMap f).weight w ≤ t.weight w := by
  have hlist : ∀ l : List (κ × ν), ((l.filterMap fun e => (f e.1 e.2).map (e.1, ·)).map
      fun e => w e.2).sum ≤ (l.map fun e => w e.2).sum := by
    intro l
    induction l with
    | nil => exact Nat.le_refl 0
    | cons e l ih =>
      rw [List.filterMap_cons, List.map_cons, List.sum_cons]
      cases hf : f e.1 e.2 with
      | none => exact Nat.le_add_left_of_le ih
      | some v =>
        rw [Option.map_some, List.map_cons, List.sum_cons]
        exact Nat.add_le_add (h _ _ _ hf) ih
  exact hlist t.entries

end Table

end KeyedTable
