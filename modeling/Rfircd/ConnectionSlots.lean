import Rfircd.SocketAdmission
import Rfircd.TransitionSystem

/-! Every slot that is counted is given back, in every order of the atomic steps. -/
namespace ConnectionSlots

open Basics KeyedTable TransitionSystem SocketAdmission

/-! ### What a call has counted -/

/-- It stands in the total. -/
def reserved : Call → Bool
  | .overfull _ => true
  | .counted _ countedTotal | .refused _ countedTotal => countedTotal
  | .live slot | .releasing slot => slot.countedTotal
  | _ => false

/-- It stands in the total and was not one too many. -/
def within : Call → Bool
  | .overfull _ => false
  | c => reserved c

/-- It stands in the table under the key. -/
def hosted (key : Text) : Call → Bool
  | .live slot | .releasing slot | .halfReleased slot => slot.countedHost && slot.hostKey = key
  | _ => false

def live : Call → Bool
  | .live _ => true
  | _ => false

def liveAt (key : Text) : Call → Bool
  | .live slot => slot.hostKey = key
  | _ => false

/-- No step of it is left: a slot is held, or everything is over. -/
def settled : Call → Bool
  | .denied .. | .live _ | .released _ => true
  | _ => false

/-- What it counts goes by the limits that are set. -/
def Flagged (a : Admission) : Call → Prop
  | .overfull _ => 0 < a.maxClients
  | .counted _ countedTotal | .refused _ countedTotal => countedTotal = decide (0 < a.maxClients)
  | .live slot | .releasing slot | .halfReleased slot =>
    slot.countedTotal = decide (0 < a.maxClients) ∧
      slot.countedHost = decide (0 < a.maxConnsPerHost)
  | _ => True

structure Conserved (s : State) : Prop where
  flagged : ∀ c ∈ s.calls, Flagged s.gate c
  total : s.gate.total = s.calls.countP reserved
  room : 0 < s.gate.maxClients → s.calls.countP within ≤ s.gate.maxClients
  hosts : ∀ key, s.gate.count key = s.calls.countP (hosted key)
  tight : ∀ key, s.gate.perHost.get key ≠ some 0
  cap : 0 < s.gate.maxConnsPerHost → ∀ key, s.gate.count key ≤ s.gate.maxConnsPerHost

/-! ### One step -/

theorem countP_step {l : List Call} {i : ℕ} {c : Call} (h : l[i]? = some c) (c' : Call)
    (p : Call → Bool) : (l.set i c').countP p + (p c).toNat = l.countP p + (p c').toNat := by
  obtain ⟨hi, rfl⟩ := List.getElem?_eq_some_iff.mp h
  have hle := List.boole_getElem_le_countP (p := p) hi
  rw [List.countP_set hi]
  cases hold : p l[i] <;> cases p c' <;>
    simp only [hold, if_true, Bool.false_eq_true, if_false, Bool.toNat_true, Bool.toNat_false]
      at hle ⊢ <;> omega

/-- What an atomic step does to the gate, read off what the call counts before and after. -/
structure Moved (a : Admission) (c : Call) (a' : Admission) (c' : Call) : Prop where
  maxClients : a'.maxClients = a.maxClients
  maxConnsPerHost : a'.maxConnsPerHost = a.maxConnsPerHost
  flagged : Flagged a c → Flagged a c'
  total : (reserved c).toNat ≤ a.total →
    a'.total + (reserved c).toNat = a.total + (reserved c').toNat
  room : (within c').toNat ≤ (within c).toNat ∨ a'.total ≤ a.maxClients
  hosts : (∀ key, (hosted key c).toNat ≤ a.count key) →
    ∀ key, a'.count key + (hosted key c).toNat = a.count key + (hosted key c').toNat
  tight : (∀ key, a.perHost.get key ≠ some 0) → ∀ key, a'.perHost.get key ≠ some 0
  cap : 0 < a.maxConnsPerHost →
    ∀ key, a'.count key ≤ a.count key ∨ a'.count key ≤ a.maxConnsPerHost

section

variable {a : Admission}

/-- A step that leaves the gate alone, and counts what was counted. -/
theorem Moved.still {c c' : Call} (hflagged : Flagged a c → Flagged a c')
    (hreserved : reserved c' = reserved c) (hwithin : within c' = within c)
    (hhosted : ∀ key, hosted key c' = hosted key c) : Moved a c a c' where
  maxClients := rfl
  maxConnsPerHost := rfl
  flagged := hflagged
  total _ := by rw [hreserved]
  room := .inl (by rw [hwithin])
  hosts _ key := by rw [hhosted]
  tight h := h
  cap _ key := .inl le_rfl

theorem count_set (key : Text) (n : ℕ) (j : Text) :
    { a with perHost := a.perHost.set key n }.count j = if j = key then n else a.count j := by
  rw [Admission.count, Table.get_set]
  split_ifs <;> rfl

theorem count_erase (key j : Text) :
    { a with perHost := a.perHost.erase key }.count j = if j = key then 0 else a.count j := by
  rw [Admission.count, Table.get_erase]
  split_ifs <;> rfl

/-- The total is given back. -/
theorem Moved.undo {c c' : Call} (hflagged : Flagged a c → Flagged a c')
    (hreserved : reserved c = true) (hreserved' : reserved c' = false) (hwithin : within c' = false)
    (hhosted : ∀ key, hosted key c' = hosted key c) :
    Moved a c { a with total := a.total - 1 } c' where
  maxClients := rfl
  maxConnsPerHost := rfl
  flagged := hflagged
  total h := by
    rw [hreserved, Bool.toNat_true] at h
    rw [hreserved, hreserved', Bool.toNat_true, Bool.toNat_false]
    exact Nat.sub_add_cancel h
  room := .inl (by rw [hwithin]; exact Nat.zero_le _)
  hosts _ key := by
    rw [hhosted]
    rfl
  tight h := h
  cap _ key := .inl le_rfl

theorem admitted_moved (a : Admission) (key : Text) :
    Moved a (.admitted key) (a.advance (.admitted key)).1 (a.advance (.admitted key)).2 := by
  simp only [Admission.advance]
  split_ifs with hlimit hfull
  · exact ⟨rfl, rfl, fun _ => hlimit, fun _ => rfl, .inl le_rfl, fun _ _ => rfl, fun h => h,
      fun _ _ => .inl le_rfl⟩
  · exact ⟨rfl, rfl, fun _ => (decide_eq_true hlimit).symm, fun _ => rfl, .inr (not_lt.mp hfull),
      fun _ _ => rfl, fun h => h, fun _ _ => .inl le_rfl⟩
  · exact .still (fun _ => (decide_eq_false hlimit).symm) rfl rfl fun _ => rfl

theorem counted_moved (a : Admission) (key : Text) (countedTotal : Bool) :
    Moved a (.counted key countedTotal) (a.advance (.counted key countedTotal)).1
      (a.advance (.counted key countedTotal)).2 := by
  simp only [Admission.advance]
  split_ifs with hlimit hfull
  · -- refused: the entry is written back as it was
    have hcount : ∀ j, { a with perHost := a.perHost.set key (a.count key) }.count j = a.count j := by
      intro j
      rw [count_set]
      split_ifs with hj
      · rw [hj]
      · rfl
    refine ⟨rfl, rfl, fun h => h, fun _ => rfl, .inl le_rfl, ?_, ?_, fun _ j => .inl (hcount j).le⟩
    · intro _ j
      exact congrArg (· + 0) (hcount j)
    · intro htight j
      rw [Table.get_set]
      split_ifs with hj
      · intro h0
        have := Option.some.inj h0
        omega
      · exact htight j
  · have hcount := @count_set a key (a.count key + 1)
    refine ⟨rfl, rfl, fun h => ⟨h, (decide_eq_true hlimit).symm⟩, fun _ => rfl, .inl le_rfl, ?_, ?_, ?_⟩
    · intro _ j
      rw [hcount]
      split_ifs with hj
      · simp [hosted, hj]
      · simp [hosted, Ne.symm hj]
    · intro htight j
      rw [Table.get_set]
      split_ifs with hj
      · intro h0
        have := Option.some.inj h0
        omega
      · exact htight j
    · intro _ j
      rw [hcount]
      split_ifs with hj
      · exact .inr (not_le.mp hfull)
      · exact .inl le_rfl
  · exact .still (fun h => ⟨h, (decide_eq_false hlimit).symm⟩) rfl rfl fun _ => by simp [hosted]

theorem halfReleased_moved (a : Admission) (slot : Slot) :
    Moved a (.halfReleased slot) (a.advance (.halfReleased slot)).1
      (a.advance (.halfReleased slot)).2 := by
  simp only [Admission.advance]
  split_ifs with hcounted
  · have hhosted : ∀ j, (hosted j (.halfReleased slot)).toNat = if j = slot.hostKey then 1 else 0 := by
      intro j
      rw [hosted, hcounted, Bool.true_and]
      split_ifs with hj
      · rw [hj, decide_eq_true rfl, Bool.toNat_true]
      · rw [decide_eq_false (Ne.symm hj), Bool.toNat_false]
    cases hget : a.perHost.get slot.hostKey with
    | none =>
      refine ⟨rfl, rfl, fun _ => trivial, fun _ => rfl, .inl le_rfl, ?_, fun h => h,
        fun _ _ => .inl le_rfl⟩
      intro hle j
      have hone := hle slot.hostKey
      rw [hhosted, if_pos rfl, Admission.count, hget] at hone
      exact absurd hone (by decide)
    | some n =>
      have hcount : a.count slot.hostKey = n := by rw [Admission.count, hget, Option.getD_some]
      simp only
      split_ifs with hlast
      · refine ⟨rfl, rfl, fun _ => trivial, fun _ => rfl, .inl le_rfl, ?_, ?_, ?_⟩
        · intro hle j
          have hone := hle slot.hostKey
          rw [hhosted, if_pos rfl] at hone
          rw [count_erase, hhosted]
          split_ifs with hj
          · rw [hj]
            change 0 + 1 = a.count slot.hostKey + 0
            omega
          · rfl
        · intro htight j
          rw [Table.get_erase]
          split_ifs
          · exact (Option.some_ne_none 0).symm
          · exact htight j
        · intro _ j
          rw [count_erase]
          split_ifs
          · exact .inl (Nat.zero_le _)
          · exact .inl le_rfl
      · refine ⟨rfl, rfl, fun _ => trivial, fun _ => rfl, .inl le_rfl, ?_, ?_, ?_⟩
        · intro _ j
          rw [count_set, hhosted]
          split_ifs with hj
          · rw [hj]
            change n - 1 + 1 = a.count slot.hostKey + 0
            omega
          · rfl
        · intro htight j
          rw [Table.get_set]
          split_ifs
          · exact fun h0 => hlast (Option.some.inj h0)
          · exact htight j
        · intro _ j
          rw [count_set]
          split_ifs with hj
          · rw [hj]
            exact .inl (by omega)
          · exact .inl le_rfl
  · exact .still (fun _ => trivial) rfl rfl fun _ => by
      simp [hosted, Bool.eq_false_of_not_eq_true hcounted]

/-- Every atomic step takes as much from the counts as its call gives up. -/
theorem advance_moved (a : Admission) (c : Call) : Moved a c (a.advance c).1 (a.advance c).2 := by
  cases c with
  | asked key =>
    rw [Admission.advance]
    split_ifs <;> exact .still (fun _ => trivial) rfl rfl fun _ => rfl
  | admitted key => exact admitted_moved a key
  | overfull key => exact .undo (fun _ => trivial) rfl rfl rfl fun _ => rfl
  | counted key countedTotal => exact counted_moved a key countedTotal
  | refused key countedTotal =>
    cases countedTotal with
    | true => exact .undo (fun _ => trivial) rfl rfl rfl fun _ => rfl
    | false => exact .still (fun _ => trivial) rfl rfl fun _ => rfl
  | releasing slot =>
    rw [Admission.advance]
    split_ifs with hcounted
    · exact .undo (fun h => h) hcounted rfl rfl fun _ => rfl
    · have hnot := Bool.eq_false_of_not_eq_true hcounted
      exact .still (fun h => h) hnot.symm hnot.symm fun _ => rfl
  | halfReleased slot => exact halfReleased_moved a slot
  | denied key why => exact .still (fun h => h) rfl rfl fun _ => rfl
  | live slot => exact .still (fun h => h) rfl rfl fun _ => rfl
  | released slot => exact .still (fun h => h) rfl rfl fun _ => rfl

end

/-! ### Runs -/

section

variable {s : State}

theorem flagged_congr {a a' : Admission} (hclients : a'.maxClients = a.maxClients)
    (hhost : a'.maxConnsPerHost = a.maxConnsPerHost) {c : Call} (h : Flagged a c) : Flagged a' c := by
  cases c <;> simp only [Flagged, hclients, hhost] at h ⊢ <;> exact h

theorem conserved_new (maxClients maxConnsPerHost : ℕ) :
    Conserved ⟨.new maxClients maxConnsPerHost, []⟩ where
  flagged _ hc := absurd hc List.not_mem_nil
  total := rfl
  room _ := Nat.zero_le _
  hosts _ := rfl
  tight _ := (Option.some_ne_none 0).symm
  cap _ _ := Nat.zero_le _

/-- The gate as it is, with other hosts banned. -/
theorem Conserved.bans (h : Conserved s) (bans : Finset Text) :
    Conserved { s with gate := { s.gate with bans := bans } } :=
  ⟨fun c hc => flagged_congr rfl rfl (h.flagged c hc), h.total, h.room, h.hosts, h.tight, h.cap⟩

theorem Conserved.accept (h : Conserved s) (key : Text) :
    Conserved { s with calls := s.calls ++ [.asked key] } := by
  have hcount : ∀ p : Call → Bool, p (.asked key) = false →
      (s.calls ++ [Call.asked key]).countP p = s.calls.countP p := by
    intro p hp
    rw [List.countP_append, List.countP_singleton, hp]
    rfl
  refine ⟨?_, ?_, ?_, ?_, h.tight, h.cap⟩
  · intro c hc
    rcases List.mem_append.mp hc with hc | hc
    · exact h.flagged c hc
    · rw [List.mem_singleton.mp hc]
      trivial
  · exact h.total.trans (hcount reserved rfl).symm
  · intro hlimit
    rw [hcount within rfl]
    exact h.room hlimit
  · exact fun j => (h.hosts j).trans (hcount (hosted j) rfl).symm

/-- A call takes an atomic step. -/
theorem Conserved.moved (h : Conserved s) {i : ℕ} {c c' : Call} {a : Admission}
    (hc : s.calls[i]? = some c) (hm : Moved s.gate c a c') :
    Conserved ⟨a, s.calls.set i c'⟩ := by
  have hmem : c ∈ s.calls := List.mem_of_getElem? hc
  have hcount := fun p => countP_step hc c' p
  have hone : ∀ p : Call → Bool, (p c).toNat ≤ s.calls.countP p := by
    intro p
    cases hp : p c with
    | false => exact Nat.zero_le _
    | true => exact List.countP_pos_iff.mpr ⟨c, hmem, hp⟩
  have htotal : a.total = (s.calls.set i c').countP reserved := by
    have hmoved := hm.total (by rw [h.total]; exact hone reserved)
    have := hcount reserved
    rw [h.total] at hmoved
    omega
  refine ⟨?_, htotal, ?_, ?_, hm.tight h.tight, ?_⟩
  · intro d hd
    refine flagged_congr hm.maxClients hm.maxConnsPerHost ?_
    rcases List.mem_or_eq_of_mem_set hd with hd | rfl
    · exact h.flagged d hd
    · exact hm.flagged (h.flagged c hmem)
  · intro hlimit
    rw [hm.maxClients] at hlimit ⊢
    rcases hm.room with hle | hle
    · have := hcount within
      have := h.room hlimit
      change (s.calls.set i c').countP within ≤ s.gate.maxClients
      omega
    · refine le_trans ?_ hle
      rw [htotal]
      apply List.countP_mono_left
      intro d _ hd
      cases d <;> simp_all [within]
  · intro key
    have hmoved := hm.hosts (fun j => by rw [h.hosts]; exact hone (hosted j)) key
    have := hcount (hosted key)
    rw [h.hosts] at hmoved
    change a.count key = (s.calls.set i c').countP (hosted key)
    omega
  · intro hlimit key
    rw [hm.maxConnsPerHost] at hlimit ⊢
    rcases hm.cap hlimit key with hle | hle
    · exact hle.trans (h.cap hlimit key)
    · exact hle

theorem Conserved.next (h : Conserved s) (e : Event) : Conserved (next s e) := by
  cases e with
  | accept host => exact h.accept _
  | step i =>
    rw [SocketAdmission.next]
    cases hc : s.calls[i]? with
    | none => exact h
    | some c => exact h.moved hc (advance_moved s.gate c)
  | drop i =>
    rw [SocketAdmission.next]
    split
    · rename_i slot hc
      exact h.moved hc (.still (fun hf => hf) rfl rfl fun _ => rfl)
    · exact h
  | ban host =>
    rw [SocketAdmission.next, Admission.ban]
    split_ifs
    · exact h
    · exact h.bans _
  | unban host => exact h.bans _
  | loadBans hosts => exact h.bans _

end

def system (maxClients maxConnsPerHost : ℕ) : System State Event :=
  .ofNext (· = ⟨.new maxClients maxConnsPerHost, []⟩) (fun _ _ => True) next

section

variable {s : State}

/-- The counts when no call is between two steps. -/
theorem Conserved.settled (h : Conserved s) (hsettled : ∀ c ∈ s.calls, settled c = true) :
    s.gate.total = (if 0 < s.gate.maxClients then s.calls.countP live else 0) ∧
    ∀ key, s.gate.count key =
      if 0 < s.gate.maxConnsPerHost then s.calls.countP (liveAt key) else 0 := by
  constructor
  · rw [h.total]
    split_ifs with hlimit
    · refine List.countP_congr fun c hc => ?_
      have hflagged := h.flagged c hc
      have hdone := hsettled c hc
      cases c <;> simp_all [reserved, live, Flagged, ConnectionSlots.settled]
    · refine List.countP_eq_zero.mpr fun c hc => ?_
      have hflagged := h.flagged c hc
      have hdone := hsettled c hc
      cases c <;> simp_all [reserved, Flagged, ConnectionSlots.settled]
  · intro key
    rw [h.hosts]
    split_ifs with hlimit
    · refine List.countP_congr fun c hc => ?_
      have hflagged := h.flagged c hc
      have hdone := hsettled c hc
      cases c <;> simp_all [hosted, liveAt, Flagged, ConnectionSlots.settled]
    · refine List.countP_eq_zero.mpr fun c hc => ?_
      have hflagged := h.flagged c hc
      have hdone := hsettled c hc
      cases c <;> simp_all [hosted, Flagged, ConnectionSlots.settled]

theorem Conserved.live_le (h : Conserved s) (hlimit : 0 < s.gate.maxClients) :
    s.calls.countP live ≤ s.gate.maxClients := by
  refine le_trans (List.countP_mono_left ?_) (h.room hlimit)
  intro c hc hlive
  have hflagged := h.flagged c hc
  cases c <;> simp_all [within, reserved, live, Flagged]

theorem Conserved.liveAt_le (h : Conserved s) (hlimit : 0 < s.gate.maxConnsPerHost) (key : Text) :
    s.calls.countP (liveAt key) ≤ s.gate.maxConnsPerHost := by
  have hcap := h.cap hlimit key
  rw [h.hosts] at hcap
  refine le_trans (List.countP_mono_left ?_) hcap
  intro c hc hlive
  have hflagged := h.flagged c hc
  cases c <;> simp_all [hosted, liveAt, Flagged]

end

theorem next_limits (s : State) (e : Event) :
    (next s e).gate.maxClients = s.gate.maxClients ∧
    (next s e).gate.maxConnsPerHost = s.gate.maxConnsPerHost := by
  cases e with
  | step i =>
    rw [next]
    cases hc : s.calls[i]? with
    | none => exact ⟨rfl, rfl⟩
    | some c => exact ⟨(advance_moved s.gate c).maxClients, (advance_moved s.gate c).maxConnsPerHost⟩
  | drop i =>
    rw [next]
    split <;> exact ⟨rfl, rfl⟩
  | ban host =>
    rw [next, Admission.ban]
    split_ifs <;> exact ⟨rfl, rfl⟩
  | _ => exact ⟨rfl, rfl⟩

/-- The slots that are held keep to the limits that are set, in every order of the steps. The total
and the table have exactly what the calls have counted and not given back, a refused call nothing;
when no call is under way they have the slots that are held, as far as there is a limit to count for,
and the table has no key without one. -/
theorem slots_conserved (maxClients maxConnsPerHost : ℕ) {s : State}
    (h : Reachable (system maxClients maxConnsPerHost) (fun _ _ => True) s) :
    (0 < maxClients → s.calls.countP live ≤ maxClients) ∧
    (0 < maxConnsPerHost → ∀ key, s.calls.countP (liveAt key) ≤ maxConnsPerHost) ∧
    s.gate.total = s.calls.countP reserved ∧
    (∀ key, s.gate.count key = s.calls.countP (hosted key)) ∧
    (∀ key why, reserved (.denied key why) = false ∧ ∀ j, hosted j (.denied key why) = false) ∧
    ((∀ c ∈ s.calls, settled c = true) →
      s.gate.total = (if 0 < maxClients then s.calls.countP live else 0) ∧
      (∀ key, s.gate.count key =
        if 0 < maxConnsPerHost then s.calls.countP (liveAt key) else 0) ∧
      ∀ key, key ∈ s.gate.perHost.keys → 0 < s.calls.countP (liveAt key)) := by
  have hinv : Inductive (system maxClients maxConnsPerHost) (fun _ _ => True) fun s =>
      s.gate.maxClients = maxClients ∧ s.gate.maxConnsPerHost = maxConnsPerHost ∧ Conserved s := by
    refine .ofNext ?_ ?_
    · rintro s rfl
      exact ⟨rfl, rfl, conserved_new maxClients maxConnsPerHost⟩
    · rintro s e ⟨rfl, rfl, hs⟩ _ _
      exact ⟨(next_limits s e).1, (next_limits s e).2, hs.next e⟩
  obtain ⟨rfl, rfl, hs⟩ := hinv.reachable h
  refine ⟨hs.live_le, hs.liveAt_le, hs.total, hs.hosts, fun _ _ => ⟨rfl, fun _ => rfl⟩, ?_⟩
  intro hsettled
  obtain ⟨htotal, hcounts⟩ := hs.settled hsettled
  refine ⟨htotal, hcounts, fun key hkey => ?_⟩
  obtain ⟨n, hn⟩ := Option.isSome_iff_exists.mp (Table.mem_keys_iff.mp hkey)
  have hcount := hcounts key
  have hne : n ≠ 0 := fun h0 => hs.tight key (h0 ▸ hn)
  rw [Admission.count, hn, Option.getD_some] at hcount
  split_ifs at hcount <;> omega

/-! ### Two sockets from one address, and a gate without limits -/

def address : Text := "10.0.0.1".toList

/-- Both are counted in the total before either is in the table; one is refused there. -/
def contended : List Event :=
  [.accept address, .accept address, .step 0, .step 1, .step 0, .step 1, .step 1, .step 0, .step 0,
    .drop 1, .step 1, .step 1]

theorem slots_conserved_contended :
    let s := contended.foldl next ⟨.new 2 1, []⟩
    s.calls = [.denied address .perHost, .released ⟨address, true, true⟩] ∧
    s.gate.total = 0 ∧ s.gate.perHost.keys = [] ∧ s.calls.countP live ≤ 2 := by
  have hinitial : Reachable (system 2 1) (fun _ _ => True) ⟨.new 2 1, []⟩ := Reachable.initial rfl
  have hruns : Runs (fun _ _ => True) (fun _ _ => True) next ⟨.new 2 1, []⟩ contended := by
    decide +kernel
  have hs := slots_conserved 2 1 (hinitial.run hruns)
  exact ⟨by decide +kernel, by decide +kernel, by decide +kernel, hs.1 (by decide)⟩

/-- A slot is held, no call is under way, and neither count has it. -/
theorem unlimited_uncounted :
    ∃ s, Reachable (system 0 0) (fun _ _ => True) s ∧ (∀ c ∈ s.calls, settled c = true) ∧
      s.calls.countP live = 1 ∧ s.gate.total = 0 ∧
      s.calls.countP (liveAt address) = 1 ∧ s.gate.count address = 0 := by
  have hinitial : Reachable (system 0 0) (fun _ _ => True) ⟨.new 0 0, []⟩ := Reachable.initial rfl
  have hruns : Runs (fun _ _ => True) (fun _ _ => True) next ⟨.new 0 0, []⟩
      [.accept address, .step 0, .step 0, .step 0] := by decide +kernel
  exact ⟨_, hinitial.run hruns, by decide +kernel, by decide +kernel, by decide +kernel,
    by decide +kernel, by decide +kernel⟩

end ConnectionSlots
