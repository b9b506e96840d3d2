import Rfircd.ClientConnection
import Rfircd.TransitionSystem
import Mathlib.Logic.Function.Basic

/-! Connection tasks, the event queue and the server's part of every connection.
What the commands do to connections is left open: any user may be made to quit and any link
dropped while an event is handled, and at any other time. -/
namespace ConnectionCleanup

open ClientConnection TransitionSystem

inductive Event where
  | connected (id : ℕ) (host : String)
  | line (id : ℕ) (text : List UInt8)
  | disconnected (id : ℕ) (reason : String)
  deriving DecidableEq

def Event.sentBy (id : ℕ) : Sent → Event
  | .line text => .line id text
  | .disconnected reason => .disconnected id reason

structure User where
  id : ℕ
  host : String
  deriving DecidableEq

/-- Zero is no limit. -/
structure ListenConfig where
  maxClients : ℕ
  maxConnsPerHost : ℕ

/-- `links` are the clients that can be written to, `fired` those whose hangup was fired. -/
structure Server where
  users : List User
  links : List ℕ
  fired : List ℕ
  bans : List String
  deriving DecidableEq

namespace Server

def present (v : Server) (id : ℕ) : Bool := v.users.any (·.id == id)

def ipCountFromHost (v : Server) (host : String) : ℕ := v.users.countP (·.host = host)

def refuses (cfg : ListenConfig) (v : Server) (host : String) : Bool :=
  host ∈ v.bans ∨ (0 < cfg.maxClients ∧ cfg.maxClients ≤ v.users.length) ∨
    (0 < cfg.maxConnsPerHost ∧ cfg.maxConnsPerHost ≤ v.ipCountFromHost host)

/-- `Clients::disconnect`: only a client that still has a link is hung up. -/
def disconnect (v : Server) (id : ℕ) : Server :=
  if id ∈ v.links then { v with links := v.links.erase id, fired := id :: v.fired } else v

def quitUser (v : Server) (id : ℕ) : Server :=
  if v.present id then { v with users := v.users.filter (·.id ≠ id) }.disconnect id else v

def handle (cfg : ListenConfig) (v : Server) : Event → Server
  | .connected id host =>
    if v.refuses cfg host then { v with fired := id :: v.fired }
    else { v with users := ⟨id, host⟩ :: v.users.filter (·.id ≠ id)
                  links := id :: v.links.filter (· ≠ id) }
  | .line _ _ => v
  | .disconnected id _ => v.quitUser id

end Server

/-- What the rest of the server may do to connections. -/
inductive Effect where
  | quit (id : ℕ)
  | drop (id : ℕ)
  | ban (host : String)
  | unban (host : String)
  deriving DecidableEq

def Server.apply (v : Server) : Effect → Server
  | .quit id => v.quitUser id
  | .drop id => v.disconnect id
  | .ban host => { v with bans := host :: v.bans }
  | .unban host => { v with bans := v.bans.filter (· ≠ host) }

/-- `queue` is oldest first. -/
structure Network where
  server : Server
  queue : List Event
  task : ℕ → Option Task
  nextId : ℕ

inductive Action where
  | accept (host : String) (socket : List Read) (pingEnabled : Bool)
  | task (id : ℕ) (i : Input)
  | handle (effects : List Effect)
  | other (effects : List Effect)
  deriving DecidableEq

def Enabled (s : Network) : Action → Prop
  | .accept _ _ _ => True
  | .task id i => (s.task id).isSome ∧ i ≠ .pass false ∧ (i = .hangup → id ∈ s.server.fired)
  | .handle _ => s.queue ≠ []
  | .other _ => True

instance (s : Network) (a : Action) : Decidable (Enabled s a) := by
  cases a <;> simp only [Enabled] <;> infer_instance

def next (cfg : ListenConfig) (s : Network) : Action → Network
  | .accept host socket pingEnabled =>
    { s with queue := s.queue ++ [.connected s.nextId host]
             task := Function.update s.task s.nextId (some (.new socket pingEnabled))
             nextId := s.nextId + 1 }
  | .task id i =>
    match s.task id with
    | none => s
    | some t =>
      { s with queue := s.queue ++ (t.step i).2.map (Event.sentBy id)
               task := Function.update s.task id (some (t.step i).1) }
  | .handle effects =>
    match s.queue with
    | [] => s
    | e :: queue =>
      { s with server := effects.foldl Server.apply (s.server.handle cfg e), queue := queue }
  | .other effects => { s with server := effects.foldl Server.apply s.server }

def initial : Network := ⟨⟨[], [], [], []⟩, [], fun _ => none, 0⟩

def system (cfg : ListenConfig) : System Network Action :=
  .ofNext (· = initial) Enabled (next cfg)

/-- No read fails while the user of the connection is in the state, and no connection is
accepted whose read has failed by then. -/
def NoReadErrorOfUser (cfg : ListenConfig) (s : Network) : Action → Prop
  | .task id (.pass _) => (∀ t ∈ s.task id, ¬t.Failing) ∨ s.server.present id = false
  | .handle _ =>
    match s.queue with
    | .connected id host :: _ =>
      s.server.refuses cfg host = true ∨ ∀ t ∈ s.task id, t.exit ≠ some .error
    | _ => True
  | _ => True

instance (cfg : ListenConfig) (s : Network) (a : Action) :
    Decidable (NoReadErrorOfUser cfg s a) := by
  unfold NoReadErrorOfUser
  split <;> try split
  all_goals infer_instance

/-! ### The server's side -/

@[simp] theorem disconnect_present (v : Server) (id j : ℕ) :
    (v.disconnect id).present j = v.present j := by
  unfold Server.disconnect
  split_ifs <;> rfl

theorem present_filter (users : List User) (id j : ℕ) :
    (users.filter (·.id ≠ id)).any (·.id == j) = (users.any (·.id == j) && decide (j ≠ id)) := by
  rw [Bool.eq_iff_iff]
  simp only [List.any_eq_true, List.mem_filter, Bool.and_eq_true, decide_eq_true_eq, beq_iff_eq]
  constructor
  · rintro ⟨u, ⟨hu, hne⟩, rfl⟩
    exact ⟨⟨u, hu, rfl⟩, hne⟩
  · rintro ⟨⟨u, hu, rfl⟩, hne⟩
    exact ⟨u, ⟨hu, hne⟩, rfl⟩

theorem quitUser_present (v : Server) (id j : ℕ) :
    (v.quitUser id).present j = (v.present j && decide (j ≠ id)) := by
  unfold Server.quitUser
  split_ifs with h
  · rw [disconnect_present]
    exact present_filter v.users id j
  · by_cases hj : j = id
    · simp [hj, h]
    · simp [hj]

theorem apply_present {v : Server} {effects : List Effect} {j : ℕ}
    (h : (effects.foldl Server.apply v).present j = true) : v.present j = true := by
  induction effects generalizing v with
  | nil => exact h
  | cons effect effects ih =>
    have h := ih h
    cases effect with
    | quit id =>
      rw [Server.apply, quitUser_present, Bool.and_eq_true] at h
      exact h.1
    | drop id => simpa [Server.apply] using h
    | ban host => exact h
    | unban host => exact h

/-- Whether a user is in the state after an event that nothing refuses. -/
def remainsAfter (id : ℕ) (present : Bool) : Event → Bool
  | .connected j _ => j == id || present
  | .line _ _ => present
  | .disconnected j _ => j != id && present

/-- Whether a user is in the state once a queue is handled and nothing else removes it. -/
def remains (id : ℕ) (present : Bool) (queue : List Event) : Bool :=
  queue.foldl (remainsAfter id) present

theorem handle_present {cfg : ListenConfig} {v : Server} {e : Event} {j : ℕ}
    (h : (v.handle cfg e).present j = true) : remainsAfter j (v.present j) e = true := by
  cases e with
  | connected id host =>
    by_cases hr : v.refuses cfg host = true
    · rw [Server.handle, if_pos hr] at h
      change v.present j = true at h
      simp [remainsAfter, h]
    · rw [Server.handle, if_neg hr] at h
      change (id == j || (v.users.filter (·.id ≠ id)).any (·.id == j)) = true at h
      rw [present_filter, Bool.or_eq_true, Bool.and_eq_true] at h
      rw [remainsAfter, Bool.or_eq_true]
      exact h.imp_right And.left
  | line id text => exact h
  | disconnected id reason =>
    rw [Server.handle, quitUser_present, Bool.and_eq_true, decide_eq_true_eq] at h
    simp [remainsAfter, h.1, Ne.symm h.2]

theorem handle_refused {cfg : ListenConfig} {v : Server} {id : ℕ} {host : String}
    (h : v.refuses cfg host = true) (j : ℕ) :
    (v.handle cfg (.connected id host)).present j = v.present j := by
  rw [Server.handle, if_pos h]
  rfl

theorem remains_mono {id : ℕ} {queue : List Event} {p q : Bool} (hpq : p = true → q = true)
    (h : remains id p queue = true) : remains id q queue = true := by
  induction queue generalizing p q with
  | nil => exact hpq h
  | cons e queue ih =>
    refine ih ?_ h
    cases e <;> simp only [remainsAfter, Bool.or_eq_true, Bool.and_eq_true]
    · exact Or.imp_right hpq
    · exact hpq
    · exact And.imp_right hpq

theorem remains_append (id : ℕ) (p : Bool) (a b : List Event) :
    remains id p (a ++ b) = remains id (remains id p a) b :=
  List.foldl_append

theorem remains_other {id j : ℕ} (h : j ≠ id) (p : Bool) (sent : List Sent) :
    remains id p (sent.map (Event.sentBy j)) = p := by
  induction sent with
  | nil => rfl
  | cons e sent ih =>
    have : remainsAfter id p (Event.sentBy j e) = p := by
      cases e <;> simp [Event.sentBy, remainsAfter, h]
    rw [List.map_cons, remains, List.foldl_cons, this]
    exact ih

theorem disconnected_of_remains {id : ℕ} {queue : List Event}
    (h : remains id true queue = false) : ∃ reason, .disconnected id reason ∈ queue := by
  induction queue with
  | nil => simp [remains] at h
  | cons e queue ih =>
    rw [remains, List.foldl_cons] at h
    by_cases he : remainsAfter id true e = true
    · obtain ⟨reason, hr⟩ := ih (by rw [he] at h; exact h)
      exact ⟨reason, .tail _ hr⟩
    · cases e with
      | connected j host => simp [remainsAfter] at he
      | line j text => simp [remainsAfter] at he
      | disconnected j reason =>
        obtain rfl : j = id := by simpa [remainsAfter] using he
        exact ⟨reason, .head _⟩

/-! ### Runs -/

/-- A task that said so is cleaned up by the queue; one whose read failed has no user. -/
structure Cleaned (s : Network) : Prop where
  told : ∀ id, ∀ t ∈ s.task id, ∀ reason, t.exit = some (.disconnect reason) →
    remains id (s.server.present id) s.queue = false
  failed : ∀ id, ∀ t ∈ s.task id, t.exit = some .error → s.server.present id = false

theorem cleaned_initial : Cleaned initial := by
  constructor <;> simp [initial]

theorem cleaned_step {cfg : ListenConfig} {s : Network} {a : Action} (h : Cleaned s)
    (hg : NoReadErrorOfUser cfg s a) (he : Enabled s a) : Cleaned (next cfg s a) := by
  cases a with
  | accept host socket pingEnabled =>
    have old : ∀ id t, t ∈ (next cfg s (.accept host socket pingEnabled)).task id →
        t.exit ≠ none → id ≠ s.nextId ∧ t ∈ s.task id := by
      intro id t ht hexit
      by_cases hid : id = s.nextId
      · subst hid
        simp only [next, Function.update_self, Option.mem_some_iff] at ht
        exact absurd (ht ▸ rfl) hexit
      · exact ⟨hid, by simpa [next, hid] using ht⟩
    constructor
    · intro id t ht reason hexit
      obtain ⟨hid, ht⟩ := old id t ht (by simp [hexit])
      have := h.told id t ht reason hexit
      simp only [next, remains_append, this]
      simp [remains, remainsAfter, Ne.symm hid]
    · intro id t ht hexit
      exact h.failed id t (old id t ht (by simp [hexit])).2 hexit
  | task id i =>
    obtain ⟨t, ht⟩ := Option.isSome_iff_exists.mp he.1
    have hqueue : (next cfg s (.task id i)).queue = s.queue ++ (t.step i).2.map (Event.sentBy id) := by
      simp [next, ht]
    have hserver : (next cfg s (.task id i)).server = s.server := by simp [next, ht]
    have htask : (next cfg s (.task id i)).task = Function.update s.task id (some (t.step i).1) := by
      simp [next, ht]
    constructor
    · intro j u hu reason hexit
      rw [htask] at hu
      rw [hqueue, hserver, remains_append]
      by_cases hj : j = id
      · subst hj
        simp only [Function.update_self, Option.mem_some_iff] at hu
        subst hu
        by_cases hopen : t.exit = none
        · rcases Task.step_ends hopen he.2.1 with hn | ⟨r, -, hsent⟩ | ⟨herr, -⟩
          · simp [hn] at hexit
          · simp [hsent, remains, Event.sentBy, remainsAfter]
          · simp [herr] at hexit
        · rw [Task.step_ended hopen] at hexit ⊢
          simpa [remains] using h.told j t ht reason hexit
      · rw [remains_other (Ne.symm hj)]
        exact h.told j u (by simpa [hj] using hu) reason hexit
    · intro j u hu hexit
      rw [htask] at hu
      rw [hserver]
      by_cases hj : j = id
      · subst hj
        simp only [Function.update_self, Option.mem_some_iff] at hu
        subst hu
        by_cases hopen : t.exit = none
        · rcases Task.step_ends hopen he.2.1 with hn | ⟨r, hr, -⟩ | ⟨-, hfail, up, rfl⟩
          · simp [hn] at hexit
          · simp [hr] at hexit
          · exact hg.resolve_left fun hn => hn t ht hfail
        · rw [Task.step_ended hopen] at hexit
          exact h.failed j t ht hexit
      · exact h.failed j u (by simpa [hj] using hu) hexit
  | handle effects =>
    rcases hq : s.queue with - | ⟨e, queue⟩
    · exact absurd hq he
    simp only [next, hq]
    constructor
    · intro id t ht reason hexit
      have := h.told id t ht reason hexit
      rw [hq, remains, List.foldl_cons] at this
      refine Bool.eq_false_iff.mpr fun hrem => ?_
      have := Bool.eq_false_iff.mp this
      exact this (remains_mono (fun hp => handle_present (apply_present hp)) hrem)
    · intro id t ht hexit
      have habsent := h.failed id t ht hexit
      refine Bool.eq_false_iff.mpr fun hp => ?_
      have hp := apply_present hp
      have hafter := handle_present hp
      rw [habsent] at hafter
      cases e with
      | connected j host =>
        obtain rfl : j = id := by simpa [remainsAfter] using hafter
        simp only [NoReadErrorOfUser, hq] at hg
        rcases hg with hr | hg
        · rw [handle_refused hr, habsent] at hp
          exact absurd hp (by simp)
        · exact hg t ht hexit
      | line j text => simp [remainsAfter] at hafter
      | disconnected j reason => simp [remainsAfter] at hafter
  | other effects =>
    constructor
    · intro id t ht reason hexit
      refine Bool.eq_false_iff.mpr fun hrem => ?_
      exact Bool.eq_false_iff.mp (h.told id t ht reason hexit) (remains_mono apply_present hrem)
    · intro id t ht hexit
      refine Bool.eq_false_iff.mpr fun hp => ?_
      exact Bool.eq_false_iff.mp (h.failed id t ht hexit) (apply_present hp)

/-- A user whose task has ended is about to be removed by an event that is under way. -/
theorem ended_user_disconnected (cfg : ListenConfig) {s : Network}
    (h : Reachable (system cfg) (NoReadErrorOfUser cfg) s) (id : ℕ) (t : Task)
    (ht : s.task id = some t) (hended : t.exit ≠ none) :
    (s.server.present id = true → ∃ reason, .disconnected id reason ∈ s.queue) ∧
    (s.queue = [] → s.server.present id = false) := by
  have hs : Cleaned s := by
    refine (Inductive.ofNext ?_ ?_).reachable h
    · rintro s rfl
      exact cleaned_initial
    · intro s a hs hg he
      exact cleaned_step hs hg he
  obtain ⟨exit, hexit⟩ := Option.ne_none_iff_exists'.mp hended
  cases exit with
  | disconnect reason =>
    have hrem := hs.told id t ht reason hexit
    constructor
    · intro hp
      rw [hp] at hrem
      exact disconnected_of_remains hrem
    · intro hq
      simpa [hq, remains] using hrem
  | error =>
    have habsent := hs.failed id t ht hexit
    simp [habsent]

def oneConnection (socket : List Read) : List Action :=
  [.accept "203.0.113.5" socket true, .handle [], .task 0 (.pass true)]

/-- The stream ends after the connection was accepted. -/
theorem ended_user_disconnected_eof :
    ∃ reason, .disconnected 0 reason ∈
      ((oneConnection [.data []]).foldl (next ⟨0, 0⟩) initial).queue := by
  have h : Reachable (system ⟨0, 0⟩) (NoReadErrorOfUser ⟨0, 0⟩)
      ((oneConnection [.data []]).foldl (next ⟨0, 0⟩) initial) :=
    (Reachable.initial rfl).run (by decide)
  exact (ended_user_disconnected ⟨0, 0⟩ h 0 _ rfl (by decide)).1 (by decide)

/-- A read error ends the task of a user, and every event has been handled. -/
theorem ghost_user_after_read_error :
    ∃ s t, Reachable (system ⟨0, 0⟩) (fun _ _ => True) s ∧ s.queue = [] ∧ s.task 0 = some t ∧
      t.exit ≠ none ∧ s.server.present 0 = true :=
  ⟨(oneConnection [.error]).foldl (next ⟨0, 0⟩) initial, _,
    (Reachable.initial rfl).run (by decide), by decide, rfl, by decide, by decide⟩

end ConnectionCleanup
