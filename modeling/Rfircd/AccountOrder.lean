import Rfircd.SchedulerRuns

/-! The frames of one account and class: in what order they go out.
The numbers popped, followed by those queued, stay in the order of the pushes as long as no
frame is paid for before an earlier one of its account. -/
namespace AccountOrder

open Basics TransmitScheduler TransitionSystem SchedulerRuns

variable {α : Type*}

/-- The numbers of the frames of one class and account. -/
def lane (c : TransmitScheduler.Class) (account : String) (l : List (Frame α)) : List ℕ :=
  (l.filter fun x => x.cls = c ∧ x.account = account).map number

/-- They go out for the last time in the order in which they came in. -/
def InOrder (r : Run α) : Prop := ∀ c account, (lane c account r.popped).Pairwise (· < ·)

def paid (s : Scheduler α) (now : ℕ) (x : Queued α) : Bool := s.funded x.account x.cost now

/-- The first frame of each class that is paid for has none of its own account before it. -/
def InTurn (s : Scheduler α) (now : ℕ) : Prop :=
  ∀ c ∈ Class.all, ∀ x ∈ (s.queues c).find? (paid s now),
    ∀ y ∈ (s.queues c).takeWhile (!paid s now ·), y.account ≠ x.account

instance (s : Scheduler α) (now : ℕ) : Decidable (InTurn s now) :=
  inferInstanceAs (Decidable (∀ c ∈ Class.all, ∀ x ∈ (s.queues c).find? (paid s now),
    ∀ y ∈ (s.queues c).takeWhile (!paid s now ·), y.account ≠ x.account))

/-- A frame is put back as long as no later one of its class and account is out. -/
def Orderly (r : Run α) : Event α → Prop
  | .call (.pop now) => InTurn r.scheduler now
  | .call (.requeue x _ _) =>
    ∀ y ∈ r.popped, y.cls = x.cls → y.account = x.account → number y ≤ number x
  | _ => True

instance (r : Run α) (e : Event α) : Decidable (Orderly r e) := by
  rcases e with (_ | _ | _ | _ | _ | _ | _ | _ | _ | _) | _ <;> simp only [Orderly] <;>
    infer_instance

/-! ### Lanes -/

variable {c : TransmitScheduler.Class} {account : String} {l m : List (Frame α)} {x : Frame α}

theorem mem_lane {n : ℕ} :
    n ∈ lane c account l ↔ ∃ x ∈ l, (x.cls = c ∧ x.account = account) ∧ number x = n := by
  simp only [lane, List.mem_map, List.mem_filter, decide_eq_true_eq, and_assoc]

@[simp] theorem lane_append : lane c account (l ++ m) = lane c account l ++ lane c account m := by
  rw [lane, List.filter_append, List.map_append]
  rfl

theorem lane_cons (hx : x.cls = c ∧ x.account = account) :
    lane c account (x :: l) = number x :: lane c account l := by
  rw [lane, List.filter_cons_of_pos (by simpa using hx)]
  rfl

theorem lane_cons_other (hx : ¬ (x.cls = c ∧ x.account = account)) :
    lane c account (x :: l) = lane c account l := by
  rw [lane, List.filter_cons_of_neg (by simpa using hx)]
  rfl

theorem lane_sublist (h : l.Sublist m) : (lane c account l).Sublist (lane c account m) :=
  (h.filter _).map _

theorem lane_without : lane c account (without x l) = (lane c account l).filter (· ≠ number x) := by
  rw [lane, lane, without, List.filter_map, List.filter_comm]
  rfl

/-- The greatest number of an ordered list comes last. -/
theorem filter_last {l : List ℕ} {n : ℕ} (h : l.Pairwise (· < ·)) (hn : n ∈ l)
    (hmax : ∀ k ∈ l, k ≤ n) : l.filter (· ≠ n) ++ [n] = l := by
  induction l with
  | nil => exact absurd hn List.not_mem_nil
  | cons k l ih =>
    obtain ⟨hk, hl⟩ := List.pairwise_cons.mp h
    rcases List.mem_cons.mp hn with rfl | hn
    · have hnil : l = [] := by
        refine List.eq_nil_iff_forall_not_mem.mpr fun j hj => ?_
        have hlt := hk j hj
        have hle := hmax j (List.mem_cons_of_mem _ hj)
        omega
      simp [hnil]
    · have hne : k ≠ n := (hk n hn).ne
      rw [List.filter_cons_of_pos (by simpa using hne), List.cons_append,
        ih hl hn fun j hj => hmax j (List.mem_cons_of_mem _ hj)]

/-! ### One step -/

/-- What has gone out and what is to go out. -/
def line (r : Run α) (c : TransmitScheduler.Class) (account : String) : List ℕ :=
  lane c account r.popped ++ lane c account (r.scheduler.queues c)

variable {r : Run α}

theorem line_lt (h : Accounted r) {n : ℕ} (hn : n ∈ line r c account) : n < r.accepted.length := by
  rcases List.mem_append.mp hn with hn | hn <;> obtain ⟨x, hx, -, rfl⟩ := mem_lane.mp hn
  · exact h.lt_accepted (by simp [hx])
  · have hwaits : x ∈ r.scheduler.waiting := Scheduler.mem_waiting.mpr ⟨c, hx⟩
    exact h.lt_accepted (by simp [hwaits])

/-- The frame at the candidate's place has none of its account before it. -/
theorem candidate_first {s : Scheduler α} {now : ℕ} {x : Queued α} (h : InTurn s now)
    (hx : (s.queues c)[s.candidate c now]? = some x) :
    ∀ y ∈ (s.queues c).take (s.candidate c now), y.account ≠ x.account := by
  unfold Scheduler.candidate at hx ⊢
  cases hi : (s.queues c).findIdx? fun i => s.funded i.account i.cost now with
  | none => simp
  | some i =>
    rw [hi, Option.getD_some] at hx
    obtain ⟨hlt, hidx⟩ := List.findIdx?_eq_some_iff_findIdx_eq.mp hi
    have htake : (s.queues c).takeWhile (!paid s now ·) = (s.queues c).take i := by
      rw [List.takeWhile_eq_take_findIdx_not, ← hidx]
      simp [paid]
    have hfind : (s.queues c).find? (paid s now) = some x := by
      obtain ⟨hlt, hpaid, hbefore⟩ := List.findIdx?_eq_some_iff_getElem.mp hi
      refine List.find?_eq_some_iff_getElem.mpr ⟨?_, i, hlt, ?_, ?_⟩
      · rw [← (List.getElem?_eq_some_iff.mp hx).2]
        exact hpaid
      · exact (List.getElem?_eq_some_iff.mp hx).2
      · simpa [paid] using hbefore
    intro y hy
    exact h c c.mem_all x hfind y (by rwa [htake])

theorem lane_eraseIdx {i : ℕ} (hx : l[i]? = some x) (hcls : x.cls = c)
    (hfirst : ∀ y ∈ l.take i, y.account ≠ x.account) :
    lane c x.account l = number x :: lane c x.account (l.eraseIdx i) := by
  obtain ⟨hlt, hget⟩ := List.getElem?_eq_some_iff.mp hx
  have hbefore : lane c x.account (l.take i) = [] := by
    refine List.eq_nil_iff_forall_not_mem.mpr fun n hn => ?_
    obtain ⟨y, hy, ⟨-, haccount⟩, -⟩ := mem_lane.mp hn
    exact hfirst y hy haccount
  have hsplit : l = l.take i ++ x :: l.drop (i + 1) := by
    rw [← hget, List.getElem_cons_drop, List.take_append_drop]
  rw [List.eraseIdx_eq_take_drop_succ, lane_append, hbefore]
  conv_lhs => rw [hsplit, lane_append, hbefore, lane_cons ⟨hcls, rfl⟩]
  rfl

/-- A pop moves the first frame of a lane to the end of those that went out. -/
theorem pop_line (h : Accounted r) {now : ℕ} (hturn : InTurn r.scheduler now)
    (c : TransmitScheduler.Class) (account : String) :
    line (r.next (.call (.pop now))) c account = line r c account := by
  simp only [line, Run.next_pop]
  rcases hpop : r.scheduler.pop now with ⟨- | x, s⟩
  · rw [Scheduler.pop_none hpop]
  · obtain ⟨d, hx, rfl, -⟩ := Scheduler.pop_best hpop
    have hcls : x.cls = d := h.classified d x (List.mem_of_getElem? hx)
    have hfirst := candidate_first hturn hx
    simp only [lane_append, List.append_assoc]
    congr 1
    by_cases hc : c = d
    · subst hc
      rw [Function.update_self]
      by_cases haccount : x.account = account
      · subst haccount
        rw [lane_eraseIdx hx hcls hfirst, lane_cons ⟨hcls, rfl⟩]
        rfl
      · obtain ⟨hlt, hget⟩ := List.getElem?_eq_some_iff.mp hx
        have hother : ¬ (x.cls = c ∧ x.account = account) := fun hboth => haccount hboth.2
        rw [lane_cons_other hother, List.eraseIdx_eq_take_drop_succ]
        conv_rhs => rw [← List.take_append_drop (r.scheduler.candidate c now)
          (r.scheduler.queues c), ← List.getElem_cons_drop hlt, hget]
        rw [lane_append, lane_append, lane_cons_other hother]
        rfl
    · have hother : ¬ (x.cls = c ∧ x.account = account) := fun hboth => hc (hboth.1.symm.trans hcls)
      rw [Function.update_of_ne hc, lane_cons_other hother]
      rfl

/-- A frame that is put back is the last of its lane that went out. -/
theorem requeue_line (h : Accounted r) (hr : (lane c account r.popped).Pairwise (· < ·))
    {x : Frame α} {now delay : ℕ} (hx : x ∈ r.held)
    (hlast : ∀ y ∈ r.popped, y.cls = x.cls → y.account = x.account → number y ≤ number x) :
    line (r.next (.call (.requeue x now delay))) c account = line r c account := by
  have hpopped : x ∈ r.popped := h.held.subset hx
  simp only [line, Run.next_requeue, Scheduler.requeue, lane_without]
  by_cases hlane : x.cls = c ∧ x.account = account
  · obtain ⟨rfl, rfl⟩ := hlane
    have hmem : number x ∈ lane x.cls x.account r.popped := mem_lane.mpr ⟨x, hpopped, ⟨rfl, rfl⟩, rfl⟩
    have hmax : ∀ k ∈ lane x.cls x.account r.popped, k ≤ number x := by
      intro k hk
      obtain ⟨y, hy, ⟨hcls, haccount⟩, rfl⟩ := mem_lane.mp hk
      exact hlast y hy hcls haccount
    rw [Function.update_self, lane_cons ⟨rfl, rfl⟩, ← List.singleton_append, ← List.append_assoc,
      filter_last hr hmem hmax]
  · have hsame : (lane c account r.popped).filter (· ≠ number x) = lane c account r.popped := by
      refine List.filter_eq_self.mpr fun n hn => ?_
      obtain ⟨y, hy, hin, rfl⟩ := mem_lane.mp hn
      have hne : number y ≠ number x := by
        intro heq
        have hyx : y = x := List.inj_on_of_nodup_map h.popped_distinct hy hpopped heq
        exact hlane (hyx ▸ hin)
      simpa using hne
    rw [hsame]
    by_cases hc : c = x.cls
    · subst hc
      rw [Function.update_self, lane_cons_other hlane]
    · rw [Function.update_of_ne hc]

theorem push_line (h : Accounted r) {item : Frame α} (hnumber : number item = r.accepted.length)
    (hr : (line r c account).Pairwise (· < ·)) :
    (line (r.next (.call (.push item))) c account).Pairwise (· < ·) := by
  simp only [line, Run.next_push]
  unfold Scheduler.push
  split_ifs
  · exact hr
  · change (lane c account r.popped ++ lane c account (Function.update r.scheduler.queues item.cls
      (r.scheduler.queues item.cls ++ [item]) c)).Pairwise (· < ·)
    by_cases hc : c = item.cls
    · subst hc
      rw [Function.update_self, lane_append, ← List.append_assoc]
      refine List.pairwise_append.mpr ⟨hr, ?_, fun n hn k hk => ?_⟩
      · exact List.Pairwise.map _ (fun _ _ hlt => hlt) ((List.pairwise_singleton _ _).filter _)
      · obtain ⟨y, hy, -, rfl⟩ := mem_lane.mp hk
        rw [List.mem_singleton.mp hy, hnumber]
        exact line_lt h hn
    · rw [Function.update_of_ne hc]
      exact hr

/-- Of every lane, what went out and what waits are in the order of the pushes. -/
def Lined (r : Run α) : Prop := ∀ c account, (line r c account).Pairwise (· < ·)

/-- Dropping frames keeps the order of the others. -/
theorem Lined.fewer {t : Run α} (h : Lined r) (hpopped : t.popped = r.popped)
    (hqueues : ∀ c, (t.scheduler.queues c).Sublist (r.scheduler.queues c)) : Lined t := by
  intro c account
  refine (h c account).sublist ?_
  rw [line, line, hpopped]
  exact (List.Sublist.refl _).append (lane_sublist (hqueues c))

theorem next_lined {e : Event α} (h : Accounted r) (hr : Lined r) (hg : Orderly r e)
    (he : Enabled r e) : Lined (r.next e) := by
  cases e with
  | settle x => exact hr
  | call op =>
    cases op with
    | push item => exact fun c account => push_line h he (hr c account)
    | pop now => exact fun c account => pop_line h hg c account ▸ hr c account
    | requeue x now delay =>
      intro c account
      rw [requeue_line h (List.pairwise_append.mp (hr c account)).1 he hg]
      exact hr c account
    | expire now =>
      refine hr.fewer rfl fun c => ?_
      simp only [Run.next_expire, Scheduler.expire]
      split_ifs
      · exact List.filter_sublist
      · exact .refl _
    | drain => exact hr.fewer rfl fun c => List.nil_sublist _
    | drainExcept keep =>
      refine hr.fewer rfl fun c => ?_
      simp only [Run.next_drainExcept, Scheduler.drainExcept]
      split_ifs
      · exact .refl _
      · exact List.nil_sublist _
    | _ => exact hr

theorem lined_inductive : Inductive (system α) Orderly fun r => Accounted r ∧ Lined r := by
  refine .ofNext ?_ fun r e h hg he => ⟨next_accounted h.1 he, next_lined h.1 h.2 hg he⟩
  rintro _ ⟨cfg, rfl⟩
  exact ⟨start_accounted cfg, fun c account => .nil⟩

/-- No frame goes out before an earlier one of its class and account. -/
theorem accounts_in_order (h : Reachable (system α) Orderly r) : InOrder r := fun c account =>
  (List.pairwise_append.mp ((lined_inductive.reachable h).2 c account)).1

/-! ### A message of two fragments -/

/-- Six seconds have been spent. Of twelve, six are left: enough for the second fragment only. -/
def fragments : List (Event Unit) :=
  [.call (.onKeyed 0 "SM0ABC-7" (secs 6) false), .call (.push (chatFrame 0 "SM0ABC-7" 8 0)),
    .call (.push (chatFrame 1 "SM0ABC-7" 2 0)), .call (.pop (secs 8)),
    .settle (chatFrame 1 "SM0ABC-7" 2 0), .call (.pop (secs 12))]

theorem second_fragment_first :
    Reachable (system Unit) everyStep (fragments.foldl Run.next (.start .default)) ∧
      ¬ InOrder (fragments.foldl Run.next (.start .default)) := by
  refine ⟨Reachable.run (.initial ⟨_, rfl⟩) (by decide +kernel), fun h => ?_⟩
  have hlane : lane .chat "SM0ABC-7" (fragments.foldl Run.next (.start .default)).popped = [1, 0] := by
    decide +kernel
  have := h .chat "SM0ABC-7"
  rw [hlane] at this
  exact absurd this (by decide)

/-- The first one is paid for, too. -/
def shortFragments : List (Event Unit) :=
  [.call (.push (chatFrame 0 "SM0ABC-7" 8 0)), .call (.push (chatFrame 1 "SM0ABC-7" 2 0)),
    .call (.pop (secs 8)), .call (.requeue (chatFrame 0 "SM0ABC-7" 8 0) (secs 8) (secs 1)),
    .call (.pop (secs 9)), .settle (chatFrame 0 "SM0ABC-7" 8 0), .call (.pop (secs 20))]

theorem short_fragments_in_order : InOrder (shortFragments.foldl Run.next (.start .default)) :=
  accounts_in_order (Reachable.run (.initial ⟨_, rfl⟩) (by decide +kernel))

end AccountOrder
