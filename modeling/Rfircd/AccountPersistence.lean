import Mathlib.Data.List.Perm.Subperm
import Rfircd.Accounts
import Rfircd.TransitionSystem

/-! The threads that write the account store while the server goes on.
A commit is seen at once, counts one generation up and spawns a thread with its snapshot; the threads
reach the lock in any order. -/
namespace AccountPersistence

open Basics Accounts TransitionSystem

/-- The snapshot of a commit and its generation. -/
structure SaveThread (τ : Type*) where
  gen : ℕ
  text : τ
  deriving DecidableEq

/-- Where the thread that holds the lock is. -/
inductive Place where
  | locked
  | current
  | leaving
  deriving DecidableEq

/-- `spawning` is a commit that has counted up and not spawned its thread yet. The history of the run
is `commits`, every snapshot in turn, and `written`, the generations and texts in the order the file
got them. -/
structure State (τ : Type*) where
  store : Store
  persistGen : ℕ
  persistLock : Option (SaveThread τ × Place)
  persistFail : ℕ
  file : Option τ
  spawning : Option (SaveThread τ)
  waiting : List (SaveThread τ)
  commits : List τ
  written : List (ℕ × τ)

inductive Event where
  | mutate (f : Store → Except AccountError Store)
  | spawn
  | lock (i : ℕ)
  | check
  | write (ok : Bool)
  | unlock

section

variable {τ : Type*}

def load (store : Store) (file : Option τ) : State τ := ⟨store, 0, none, 0, file, none, [], [], []⟩

/-- One atomic step may be taken. The server runs one command at a time, so a commit is over before
the next one begins. -/
def Enabled (s : State τ) : Event → Prop
  | .mutate _ => s.spawning = none
  | .spawn => s.spawning.isSome
  | .lock i => s.persistLock = none ∧ i < s.waiting.length
  | .check => s.persistLock.any (·.2 = .locked)
  | .write _ => s.persistLock.any (·.2 = .current)
  | .unlock => s.persistLock.any (·.2 = .leaving)

instance (s : State τ) : (e : Event) → Decidable (Enabled s e)
  | .mutate _ => inferInstanceAs (Decidable (s.spawning = none))
  | .spawn => inferInstanceAs (Decidable (s.spawning.isSome = true))
  | .lock i => inferInstanceAs (Decidable (s.persistLock = none ∧ i < s.waiting.length))
  | .check => inferInstanceAs (Decidable (s.persistLock.any (·.2 = .locked) = true))
  | .write _ => inferInstanceAs (Decidable (s.persistLock.any (·.2 = .current) = true))
  | .unlock => inferInstanceAs (Decidable (s.persistLock.any (·.2 = .leaving) = true))

variable (render : Store → Option τ)

/-- A store that cannot be rendered is not committed. -/
def commit (s : State τ) (next : Store) : State τ :=
  match render next with
  | none => s
  | some text =>
    { s with
      store := next
      -- 64 bits in the source, which no run exhausts
      persistGen := s.persistGen + 1
      spawning := some ⟨s.persistGen + 1, text⟩
      commits := s.commits ++ [text] }

def next (s : State τ) : Event → State τ
  | .mutate f =>
    match f s.store with
    | .error _ => s
    | .ok store => commit render s store
  | .spawn => { s with waiting := s.waiting ++ s.spawning.toList, spawning := none }
  | .lock i =>
    { s with
      persistLock := s.waiting[i]?.map fun t => (t, .locked)
      waiting := s.waiting.eraseIdx i }
  | .check =>
    { s with
      persistLock := s.persistLock.map fun (t, _) =>
        (t, if s.persistGen ≠ t.gen then .leaving else .current) }
  | .write ok =>
    match s.persistLock with
    | none => s
    | some (t, _) =>
      if ok then
        { s with
          persistLock := some (t, .leaving)
          file := some t.text
          written := s.written ++ [(t.gen, t.text)] }
      else { s with persistLock := some (t, .leaving), persistFail := s.persistFail + 1 }
  | .unlock => { s with persistLock := none }

def system (store : Store) (file : Option τ) : System (State τ) Event :=
  .ofNext (· = load store file) Enabled (next render)

end

/-! ### The invariant -/

section

variable {τ : Type*} {render : Store → Option τ} {file : Option τ} {s : State τ}

/-- The thread in the critical section, unless it is done. -/
def inside (s : State τ) : List (SaveThread τ) :=
  match s.persistLock with
  | none | some (_, .leaving) => []
  | some (t, _) => [t]

/-- The threads that may still write. -/
def ahead (s : State τ) : List (SaveThread τ) := s.spawning.toList ++ s.waiting ++ inside s

structure Coherent (render : Store → Option τ) (file : Option τ) (s : State τ) : Prop where
  counted : s.persistGen = s.commits.length
  store : s.commits ≠ [] → s.commits.getLast? = render s.store
  snapshot : ∀ t ∈ ahead s, s.commits[t.gen - 1]? = some t.text ∧ 0 < t.gen
  text : ∀ w ∈ s.written, s.commits[w.1 - 1]? = some w.2 ∧ 0 < w.1
  once : (s.written.map Prod.fst ++ (ahead s).map SaveThread.gen).Nodup
  order : s.written.Pairwise fun a b => a.1 < b.1
  current : ∀ t, s.persistLock = some (t, .current) → ∀ w ∈ s.written, w.1 < t.gen
  last : s.file = (s.written.getLast?.map Prod.snd).or file
  newest : 0 < s.persistGen →
    0 < s.persistFail ∨ s.persistGen ∈ s.written.map Prod.fst ++ (ahead s).map SaveThread.gen

theorem coherent_load (store : Store) : Coherent render file (load store file) where
  counted := rfl
  store hne := absurd rfl hne
  snapshot t ht := absurd ht List.not_mem_nil
  text w hw := absurd hw List.not_mem_nil
  once := List.nodup_nil
  order := .nil
  current t ht := by cases ht
  last := rfl
  newest h := absurd h (lt_irrefl 0)

/-- No generation is ahead of the counter. -/
theorem Coherent.gen_le (h : Coherent render file s) {g : ℕ}
    (hg : g ∈ s.written.map Prod.fst ++ (ahead s).map SaveThread.gen) : g ≤ s.persistGen := by
  have hbound : ∀ {text : τ}, s.commits[g - 1]? = some text → 0 < g → g ≤ s.persistGen := by
    intro text htext hpos
    have := (List.getElem?_eq_some_iff.mp htext).1
    rw [h.counted]
    omega
  rcases List.mem_append.mp hg with hg | hg
  · obtain ⟨w, hw, rfl⟩ := List.mem_map.mp hg
    exact hbound (h.text w hw).1 (h.text w hw).2
  · obtain ⟨t, ht, rfl⟩ := List.mem_map.mp hg
    exact hbound (h.snapshot t ht).1 (h.snapshot t ht).2

/-- A step that writes and commits nothing may let an outdated thread go. -/
theorem Coherent.same (h : Coherent render file s) {t : State τ}
    (hstore : t.store = s.store) (hgen : t.persistGen = s.persistGen)
    (hfail : t.persistFail = s.persistFail) (hfile : t.file = s.file)
    (hcommits : t.commits = s.commits) (hwritten : t.written = s.written)
    (hahead : List.Subperm (ahead t) (ahead s))
    (hnewest : ∀ u ∈ ahead s, u.gen = s.persistGen → u ∈ ahead t)
    (hcurrent : ∀ u, t.persistLock = some (u, .current) → ∀ w ∈ s.written, w.1 < u.gen) :
    Coherent render file t where
  counted := by rw [hgen, hcommits, h.counted]
  store := by
    rw [hcommits, hstore]
    exact h.store
  snapshot u hu := by
    rw [hcommits]
    exact h.snapshot u (List.Subperm.subset hahead hu)
  text := by
    rw [hwritten, hcommits]
    exact h.text
  once := by
    obtain ⟨l, hperm, hsub⟩ := hahead
    rw [hwritten, ← ((hperm.map SaveThread.gen).append_left _).nodup_iff]
    exact h.once.sublist ((hsub.map SaveThread.gen).append_left _)
  order := hwritten ▸ h.order
  current u hu := by
    rw [hwritten]
    exact hcurrent u hu
  last := by rw [hfile, hwritten, h.last]
  newest hpos := by
    rw [hgen] at hpos ⊢
    rw [hfail, hwritten]
    refine (h.newest hpos).imp_right fun hmem => ?_
    rcases List.mem_append.mp hmem with hmem | hmem
    · exact List.mem_append_left _ hmem
    · obtain ⟨u, hu, hgu⟩ := List.mem_map.mp hmem
      exact List.mem_append_right _ (List.mem_map.mpr ⟨u, hnewest u hu hgu, hgu⟩)

theorem Coherent.perm (h : Coherent render file s) {t : State τ}
    (hstore : t.store = s.store) (hgen : t.persistGen = s.persistGen)
    (hfail : t.persistFail = s.persistFail) (hfile : t.file = s.file)
    (hcommits : t.commits = s.commits) (hwritten : t.written = s.written)
    (hahead : List.Perm (ahead t) (ahead s))
    (hcurrent : ∀ u, t.persistLock = some (u, .current) → ∀ w ∈ s.written, w.1 < u.gen) :
    Coherent render file t :=
  h.same hstore hgen hfail hfile hcommits hwritten hahead.subperm
    (fun _ hu _ => hahead.mem_iff.mpr hu) hcurrent

theorem Coherent.commit (h : Coherent render file s) (hidle : s.spawning = none) (store : Store) :
    Coherent render file (commit render s store) := by
  unfold AccountPersistence.commit
  cases htext : render store with
  | none => exact h
  | some text =>
    have hkept : ∀ {g : ℕ} {text' : τ}, s.commits[g - 1]? = some text' →
        (s.commits ++ [text])[g - 1]? = some text' := by
      intro g text' hg
      rw [List.getElem?_append_left (List.getElem?_eq_some_iff.mp hg).1, hg]
    have hahead : ahead { s with
        store := store
        persistGen := s.persistGen + 1
        spawning := some ⟨s.persistGen + 1, text⟩
        commits := s.commits ++ [text] } = ⟨s.persistGen + 1, text⟩ :: ahead s := by
      simp only [ahead, inside, hidle, Option.toList_some, Option.toList_none, List.nil_append,
        List.cons_append]
    have hnew : s.persistGen + 1 ∉ s.written.map Prod.fst ++ (ahead s).map SaveThread.gen :=
      fun hmem => absurd (h.gen_le hmem) (Nat.not_succ_le_self _)
    refine ⟨?_, ?_, ?_, ?_, ?_, h.order, h.current, h.last, ?_⟩
    · simp only [List.length_append, List.length_singleton, h.counted]
    · intro _
      simp only [List.getLast?_append_of_ne_nil _ (List.cons_ne_nil _ _), List.getLast?_singleton,
        htext]
    · intro t ht
      rw [hahead] at ht
      rcases List.mem_cons.mp ht with rfl | ht
      · simp [h.counted]
      · exact ⟨hkept (h.snapshot t ht).1, (h.snapshot t ht).2⟩
    · intro w hw
      exact ⟨hkept (h.text w hw).1, (h.text w hw).2⟩
    · rw [hahead, List.map_cons, List.perm_middle.nodup_iff, List.nodup_cons]
      exact ⟨hnew, h.once⟩
    · intro _
      right
      rw [hahead]
      exact List.mem_append_right _ List.mem_cons_self

theorem Coherent.lock (h : Coherent render file s) {i : ℕ} (hfree : s.persistLock = none)
    (hi : i < s.waiting.length) : Coherent render file (next render s (.lock i)) := by
  have hlock : (next render s (.lock i)).persistLock = some (s.waiting[i], .locked) := by
    simp [next, List.getElem?_eq_getElem hi]
  refine h.perm rfl rfl rfl rfl rfl rfl ?_ ?_
  · have hinside : inside s = [] := by rw [inside, hfree]
    have hinside' : inside (next render s (.lock i)) = [s.waiting[i]] := by rw [inside, hlock]
    rw [ahead, ahead, hinside, hinside', List.append_nil]
    change (s.spawning.toList ++ s.waiting.eraseIdx i ++ [s.waiting[i]]).Perm _
    rw [List.append_assoc]
    apply List.Perm.append_left
    exact (List.perm_append_singleton _ _).trans (List.getElem_cons_eraseIdx_perm hi)
  · intro u hu
    rw [hlock] at hu
    cases hu

theorem held_of_any {place : Place} (h : s.persistLock.any (·.2 = place)) :
    ∃ t, s.persistLock = some (t, place) := by
  obtain ⟨⟨t, p⟩, hlock, hp⟩ := (Option.any_eq_true _ _).mp h
  obtain rfl : p = place := of_decide_eq_true hp
  exact ⟨t, hlock⟩

/-- A thread that finds a newer generation leaves; one that does not is the newest. -/
theorem Coherent.check (h : Coherent render file s) {t : SaveThread τ}
    (hlock : s.persistLock = some (t, .locked)) : Coherent render file (next render s .check) := by
  have hinside : inside s = [t] := by rw [inside, hlock]
  by_cases hnewer : s.persistGen ≠ t.gen
  · have hlock' : (next render s .check).persistLock = some (t, .leaving) := by
      simp [next, hlock, hnewer]
    have hahead : ahead (next render s .check) = s.spawning.toList ++ s.waiting := by
      have hinside' : inside (next render s .check) = [] := by rw [inside, hlock']
      rw [ahead, hinside', List.append_nil]
      rfl
    refine h.same rfl rfl rfl rfl rfl rfl ?_ ?_ ?_
    · rw [hahead, ahead, hinside]
      exact (List.sublist_append_left _ _).subperm
    · intro u hu hgen
      rw [ahead, hinside] at hu
      rw [hahead]
      rcases List.mem_append.mp hu with hu | hu
      · exact hu
      · obtain rfl := List.mem_singleton.mp hu
        exact absurd hgen.symm hnewer
    · intro u hu
      rw [hlock'] at hu
      cases hu
  · have hsame : s.persistGen = t.gen := not_not.mp hnewer
    have hlock' : (next render s .check).persistLock = some (t, .current) := by
      simp [next, hlock, hsame]
    refine h.perm rfl rfl rfl rfl rfl rfl ?_ ?_
    · have hinside' : inside (next render s .check) = [t] := by rw [inside, hlock']
      rw [ahead, ahead, hinside, hinside']
      exact .refl _
    · intro u hu w hw
      rw [hlock'] at hu
      obtain rfl : t = u := congrArg Prod.fst (Option.some.inj hu)
      have hle := h.gen_le (List.mem_append_left _ (List.mem_map_of_mem hw))
      have hne : w.1 ≠ t.gen := by
        refine (List.nodup_append.mp h.once).2.2 w.1 (List.mem_map_of_mem hw) t.gen ?_
        exact List.mem_map_of_mem (by rw [ahead, hinside]; simp)
      omega

section

variable {t : SaveThread τ}

theorem ahead_of_current (hlock : s.persistLock = some (t, .current)) :
    ahead s = s.spawning.toList ++ s.waiting ++ [t] := by
  rw [ahead, inside, hlock]

theorem Coherent.failed (h : Coherent render file s) (hlock : s.persistLock = some (t, .current)) :
    Coherent render file
      { s with persistLock := some (t, .leaving), persistFail := s.persistFail + 1 } := by
  have hsub : List.Sublist (s.spawning.toList ++ s.waiting ++ []) (ahead s) := by
    rw [ahead_of_current hlock, List.append_nil]
    exact List.sublist_append_left _ _
  refine ⟨h.counted, h.store, ?_, h.text, ?_, h.order, ?_, h.last, ?_⟩
  · exact fun u hu => h.snapshot u (hsub.subset hu)
  · exact h.once.sublist ((hsub.map SaveThread.gen).append_left _)
  · intro u hu
    cases hu
  · exact fun _ => .inl (Nat.succ_pos _)

/-- What is written is newer than everything in the file before. -/
theorem Coherent.wrote (h : Coherent render file s) (hlock : s.persistLock = some (t, .current)) :
    Coherent render file
      { s with
        persistLock := some (t, .leaving)
        file := some t.text
        written := s.written ++ [(t.gen, t.text)] } := by
  have hahead := ahead_of_current hlock
  have hmem : t ∈ ahead s := by
    rw [hahead]
    exact List.mem_append_right _ List.mem_cons_self
  have hsub : List.Sublist (s.spawning.toList ++ s.waiting ++ []) (ahead s) := by
    rw [hahead, List.append_nil]
    exact List.sublist_append_left _ _
  have hperm : List.Perm
      ((s.written ++ [(t.gen, t.text)]).map Prod.fst ++
        (s.spawning.toList ++ s.waiting ++ []).map SaveThread.gen)
      (s.written.map Prod.fst ++ (ahead s).map SaveThread.gen) := by
    rw [hahead, List.append_nil, List.map_append, @List.map_append _ _ _ (s.spawning.toList ++ _),
      List.append_assoc]
    exact List.perm_append_comm.append_left _
  refine ⟨h.counted, h.store, ?_, ?_, ?_, ?_, ?_, ?_, ?_⟩
  · exact fun u hu => h.snapshot u (hsub.subset hu)
  · intro w hw
    rcases List.mem_append.mp hw with hw | hw
    · exact h.text w hw
    · rw [List.mem_singleton.mp hw]
      exact h.snapshot t hmem
  · exact hperm.nodup_iff.mpr h.once
  · refine List.pairwise_append.mpr ⟨h.order, List.pairwise_singleton _ _, ?_⟩
    intro a ha b hb
    rw [List.mem_singleton.mp hb]
    exact h.current t hlock a ha
  · intro u hu
    cases hu
  · simp
  · intro hpos
    exact (h.newest hpos).imp_right hperm.mem_iff.mpr

theorem Coherent.write (h : Coherent render file s) (hlock : s.persistLock = some (t, .current))
    (ok : Bool) : Coherent render file (next render s (.write ok)) := by
  cases ok with
  | true =>
    have hwrote := h.wrote hlock
    simpa only [next, hlock, if_true] using hwrote
  | false =>
    have hfailed := h.failed hlock
    simpa only [next, hlock, Bool.false_eq_true, if_false] using hfailed

theorem Coherent.unlock (h : Coherent render file s)
    (hlock : s.persistLock = some (t, .leaving)) : Coherent render file (next render s .unlock) := by
  refine h.perm rfl rfl rfl rfl rfl rfl ?_ ?_
  · have hinside : inside s = [] := by rw [inside, hlock]
    rw [ahead, ahead, hinside]
    exact .refl _
  · intro u hu
    cases hu

theorem Coherent.spawn (h : Coherent render file s) : Coherent render file (next render s .spawn) := by
  refine h.perm rfl rfl rfl rfl rfl rfl ?_ h.current
  change ((s.waiting ++ s.spawning.toList) ++ inside s).Perm _
  exact List.perm_append_comm.append_right _

end

theorem Coherent.next (h : Coherent render file s) {e : Event} (he : Enabled s e) :
    Coherent render file (next render s e) := by
  cases e with
  | mutate f =>
    cases hf : f s.store with
    | error e => simpa only [AccountPersistence.next, hf] using h
    | ok store => simpa only [AccountPersistence.next, hf] using h.commit he store
  | spawn => exact h.spawn
  | lock i => exact h.lock he.1 he.2
  | check =>
    obtain ⟨t, hlock⟩ := held_of_any he
    exact h.check hlock
  | write ok =>
    obtain ⟨t, hlock⟩ := held_of_any he
    exact h.write hlock ok
  | unlock =>
    obtain ⟨t, hlock⟩ := held_of_any he
    exact h.unlock hlock

end

/-- The snapshots go into the file in the order of their commits, so none replaces a newer one. When
all threads have finished, the file holds the snapshot of the last commit, which is the store the
server works with, or a write that failed was counted. -/
theorem newest_store_wins {τ : Type*} (render : Store → Option τ) (store : Store)
    (file : Option τ) {s : State τ} (h : Reachable (system render store file) (fun _ _ => True) s) :
    (s.written.Pairwise fun a b => a.1 < b.1) ∧
    (∀ w ∈ s.written, 0 < w.1 ∧ s.commits[w.1 - 1]? = some w.2) ∧
    s.file = (s.written.getLast?.map Prod.snd).or file ∧
    (s.spawning = none → s.waiting = [] → s.persistLock = none → s.commits ≠ [] →
      s.commits.getLast? = render s.store ∧ (s.file = render s.store ∨ 0 < s.persistFail)) := by
  have hinv : Inductive (system render store file) (fun _ _ => True) (Coherent render file) := by
    refine .ofNext ?_ ?_
    · rintro s rfl
      exact coherent_load store
    · intro s e hs _ he
      exact hs.next he
  have hcoherent := hinv.reachable h
  refine ⟨hcoherent.order, fun w hw => (hcoherent.text w hw).symm, hcoherent.last, ?_⟩
  intro hspawning hwaiting hlock hne
  have hstore := hcoherent.store hne
  refine ⟨hstore, ?_⟩
  have hnone : ahead s = [] := by
    rw [ahead, inside, hspawning, hwaiting, hlock]
    rfl
  have hpos : 0 < s.persistGen := by
    rw [hcoherent.counted]
    exact List.length_pos_iff.mpr hne
  refine (hcoherent.newest hpos).symm.imp_left fun hmem => ?_
  rw [hnone, List.map_nil, List.append_nil] at hmem
  obtain ⟨w, hw, hgen⟩ := List.mem_map.mp hmem
  obtain ⟨before, v, hwritten⟩ := (List.eq_nil_or_concat s.written).resolve_left
    (List.ne_nil_of_mem hw)
  rw [List.concat_eq_append] at hwritten
  have hv : v ∈ s.written := by rw [hwritten]; simp
  have hle : v.1 ≤ s.persistGen := hcoherent.gen_le (List.mem_append_left _ (List.mem_map_of_mem hv))
  have hge : w.1 ≤ v.1 := by
    have horder := hcoherent.order
    rw [hwritten] at hw horder
    rcases List.mem_append.mp hw with hw | hw
    · exact ((List.pairwise_append.mp horder).2.2 w hw v List.mem_cons_self).le
    · exact (List.mem_singleton.mp hw) ▸ le_rfl
  have hlast : s.commits.getLast? = some v.2 := by
    have htext := (hcoherent.text v hv).1
    have hgenv : v.1 = s.commits.length := by
      rw [← hcoherent.counted]
      omega
    rw [List.getLast?_eq_getElem?, ← hgenv, htext]
  rw [hcoherent.last, hwritten, List.getLast?_append_of_ne_nil _ (List.cons_ne_nil _ _),
    List.getLast?_singleton, ← hstore, hlast]
  rfl

/-! ### Two bans, and the second thread comes first -/

/-- What a store without accounts looks like in the file, for hosts of plain characters. -/
def prettyBans (s : Store) : Option Text :=
  let hosts := s.ipBans.map fun host => "\"".toList ++ host ++ "\"".toList
  some ("\x7b\n  \"nicks\": \x7b\x7d,\n  \"ip_bans\": [\n    ".toList ++
    ",\n    ".toList.intercalate hosts ++ "\n  ]\n\x7d".toList)

def ban (host : String) : Event :=
  .mutate fun s => .ok { s with ipBans := s.ipBans ++ [host.toList] }

def overtaken : List Event :=
  [ban "10.0.0.1", .spawn, ban "10.0.0.2", .spawn, .lock 1, .check, .write true, .unlock,
    .lock 0, .check, .unlock]

theorem newest_store_wins_overtaken :
    let s := overtaken.foldl (next prettyBans) (load .empty none)
    s.commits.length = 2 ∧ s.written.map Prod.fst = [2] ∧ s.persistFail = 0 ∧
    (s.file = prettyBans s.store ∨ 0 < s.persistFail) := by
  have hinitial : Reachable (system prettyBans .empty none) (fun _ _ => True) (load .empty none) :=
    Reachable.initial rfl
  have hruns : Runs (fun _ _ => True) Enabled (next prettyBans) (load .empty none) overtaken := by
    decide +kernel
  obtain ⟨-, -, -, hend⟩ := newest_store_wins prettyBans .empty none (hinitial.run hruns)
  exact ⟨by decide +kernel, by decide +kernel, by decide +kernel,
    (hend (by decide +kernel) (by decide +kernel) (by decide +kernel) (by decide +kernel)).2⟩

end AccountPersistence
