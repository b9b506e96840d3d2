import Rfircd.SessionTable
import Mathlib.Logic.Function.Basic

/-! When a quiet station is forgotten, and which one makes way for another.
One time stamp serves what is heard of a station and what is sent to it. -/
namespace QuietStations

open Basics Airc AircSession KeyedTable TransitionSystem SessionTable

/-! ### What is heard and what is sent -/

/-- `heard` is when the station was last heard, or when its record was made if it never was;
`sent` is when it was last written to since then. -/
structure Contact where
  heard : ℕ
  sent : Option ℕ
  deriving DecidableEq

def Contact.latest (k : Contact) : ℕ := k.sent.getD k.heard

/-- The time at which an operation is about the station. -/
def contactAt (c : Callsign) : Operation → Option ℕ
  | .touch call now | .receive call _ now _ | .forceTouch call now | .enqueue call _ _ _ now =>
    if call = c then some now else none
  | _ => none

/-- A station is heard when something is received; a message of ours only writes to it, unless
it makes its record. -/
def Contact.after (c : Callsign) (s : Sessions) (k : Contact) (e : Operation) : Contact :=
  match contactAt c e with
  | none => k
  | some now =>
    match e with
    | .enqueue .. | .forceTouch .. =>
      if (s.peer c).isSome then { k with sent := some now } else ⟨now, none⟩
    | _ => ⟨now, none⟩

structure Run where
  sessions : Sessions
  contacts : Callsign → Contact

def Run.next (r : Run) (e : Operation) : Run :=
  ⟨apply r.sessions e, fun c => (r.contacts c).after c r.sessions e⟩

def system (cfg : SessionConfig) : System Run Operation :=
  .ofNext (· = ⟨.new cfg, fun _ => ⟨0, none⟩⟩) (fun r e => Enabled r.sessions e) Run.next

/-! ### The time stamp of a record -/

section

variable {cfg : SessionConfig} {p : Peer}

theorem releasePending_lastHeard (p : Peer) : (releasePending p).1.lastHeard = p.lastHeard := by
  unfold releasePending startPending
  cases p.queue <;> rfl

theorem applyAck_lastHeard (p : Peer) (seq : UInt16) (bitmap : Option (List UInt8)) :
    (applyAck p seq bitmap).1.lastHeard = p.lastHeard := by
  obtain ⟨h, -⟩ | ⟨pd, bits, -, -, -, -, -, h⟩ | ⟨pd, -, -, -, h⟩ := applyAck_cases p seq bitmap
  · rw [h]
  · rw [h]
  · rw [h]
    exact releasePending_lastHeard p

theorem piggybacked_lastHeard (p : Peer) (f : AircFrame) :
    (p.piggybacked f).lastHeard = p.lastHeard := by
  have hreset : (helloReset p.noteAirc f).lastHeard = p.lastHeard := by
    unfold helloReset
    split_ifs <;> rfl
  unfold Peer.piggybacked applyPiggyback
  cases f.piggybackSeq with
  | none => exact hreset
  | some seq => exact (applyAck_lastHeard _ seq none).trans hreset

theorem receiveMessage_lastHeard (p : Peer) (f : AircFrame) (now : ℕ) (addressedToUs : Bool) :
    (receiveMessage cfg p f now addressedToUs).1.lastHeard = p.lastHeard := by
  have hfragment : ∀ q : Peer, (receiveFragment cfg q f now addressedToUs).1.lastHeard =
      q.lastHeard := by
    intro q
    simp only [receiveFragment, keepParts, finishParts]
    split_ifs <;> rfl
  unfold receiveMessage
  simp only
  split_ifs
  all_goals first | rfl | exact hfragment p

theorem receive_lastHeard (p : Peer) (f : AircFrame) (now : ℕ) (addressedToUs : Bool) :
    (p.receive cfg f now addressedToUs).1.lastHeard = p.lastHeard := by
  have hpiggy := piggybacked_lastHeard p f
  by_cases hk : f.kind = .ack
  · rw [receive_of_ack hk]
    cases parseAckPayload f.payload with
    | none => exact hpiggy
    | some ack => exact (applyAck_lastHeard _ ack.1 ack.2).trans hpiggy
  · rw [receive_of_message hk]
    exact (receiveMessage_lastHeard _ f now addressedToUs).trans hpiggy

theorem enqueue_lastHeard (p : Peer) (seq : UInt16) (kind : Kind) (payload : List UInt8)
    (reliable : Bool) : (p.enqueue cfg seq kind payload reliable).1.lastHeard = p.lastHeard := by
  unfold Peer.enqueue
  obtain h | ⟨acked, -, -, -, h⟩ := takePiggyback_cases cfg p reliable
  all_goals
    simp only [h, restorePiggyback]
    split_ifs <;> rfl

theorem onKeyed_lastHeard (p : Peer) (seq : UInt16) (now : ℕ) :
    (p.onKeyed cfg seq now).lastHeard = p.lastHeard := by
  unfold Peer.onKeyed
  cases p.pending with
  | none => rfl
  | some pd =>
    simp only
    split_ifs <;> rfl

theorem tick_lastHeard (p : Peer) (now : ℕ) (retry : Bool) :
    (p.tick cfg now retry).1.lastHeard = p.lastHeard := by
  have hexpire : (expireReasm cfg p now).1.lastHeard = p.lastHeard := rfl
  simp only [Peer.tick]
  split_ifs
  · exact hexpire
  · exact hexpire
  · cases (expireReasm cfg p now).1.pending with
    | none => exact hexpire
    | some pd =>
      simp only
      split_ifs <;> exact hexpire

theorem ticked_lastHeard {s : Sessions} {p q : Peer} {now : ℕ} {retry : Bool}
    (h : (s.ticked now retry p).1 = some q) : q.lastHeard = p.lastHeard := by
  have htick := @tick_lastHeard s.config p now retry
  unfold Sessions.ticked at h
  rcases hk : p.tick s.config now retry with ⟨r, frames, - | - | -⟩
  · rw [hk] at h htick
    obtain rfl := Option.some.inj h
    exact htick
  · rw [hk] at h
    cases h
  · rw [hk] at h htick
    unfold Peer.abandon at h
    cases hq : r.queue with
    | nil => simp [hq] at h
    | cons next rest =>
      simp only [hq, Option.some.injEq] at h
      rw [← h]
      exact htick

end

theorem touched_lastHeard {s : Sessions} {call : Callsign} {now : ℕ} {p : Peer}
    (h : s.touched call now = some p) : p.lastHeard = now := by
  unfold Sessions.touched at h
  cases hp : s.peers.get call with
  | some old =>
    rw [hp] at h
    rw [← Option.some.inj h]
  | none =>
    simp only [hp] at h
    split_ifs at h
    rw [← Option.some.inj h]
    rfl

theorem touched_none {s : Sessions} {call : Callsign} {now : ℕ} (h : s.touched call now = none) :
    s.peer call = none := by
  unfold Sessions.touched at h
  rw [Sessions.peer]
  cases hp : s.peers.get call with
  | some old => simp [hp] at h
  | none => rfl

/-- A touched station has the time of the touch, if it has a record. -/
theorem touch_lastHeard {s : Sessions} {call : Callsign} {now : ℕ} {q : Peer}
    (h : (touch s call now).peer call = some q) : q.lastHeard = now := by
  unfold touch at h
  cases ht : s.touched call now with
  | none =>
    rw [ht] at h
    rw [touched_none ht] at h
    cases h
  | some p =>
    rw [ht] at h
    simp only [Sessions.peer_store, if_true, Option.some.injEq] at h
    exact h ▸ touched_lastHeard ht

theorem touch_other {s : Sessions} {call c : Callsign} (hc : call ≠ c) (now : ℕ) :
    (touch s call now).peer c = s.peer c := by
  unfold touch
  cases s.touched call now with
  | none => rfl
  | some p => rw [Sessions.peer_store, if_neg (Ne.symm hc)]

theorem evictPeer_some {s : Sessions} {call c : Callsign} {q : Peer}
    (h : (s.evictPeer call).peer c = some q) : s.peer c = some q := by
  rcases s.evictPeer_peer call c with hp | ⟨-, hp⟩
  · rwa [hp] at h
  · rw [hp] at h
    cases h

/-- An operation that is about the station leaves its time in the record, every other one leaves
the record's time alone. -/
theorem apply_lastHeard {s : Sessions} (hgood : Good s) {c : Callsign} {e : Operation} {q : Peer}
    (h : (apply s e).peer c = some q) :
    match contactAt c e with
    | some now => q.lastHeard = now
    | none => ∃ p, s.peer c = some p ∧ q.lastHeard = p.lastHeard := by
  cases e with
  | touch call now =>
    by_cases hc : call = c
    · subst hc
      simp only [contactAt, if_true]
      exact touch_lastHeard h
    · rw [apply, touch_other hc] at h
      simp only [contactAt, if_neg hc]
      exact ⟨q, h, rfl⟩
  | forceTouch call now =>
    simp only [apply, forceTouch] at h
    by_cases hc : call = c
    · subst hc
      simp only [contactAt, if_true]
      split_ifs at h with hzero
      · have hroom := hgood.room
        rw [hzero, Nat.le_zero, Table.size, List.length_eq_zero_iff] at hroom
        have hmem := Table.mem_entries_iff.mpr h
        rw [hroom] at hmem
        cases hmem
      · exact touch_lastHeard h
    · simp only [contactAt, if_neg hc]
      split_ifs at h
      · exact ⟨q, h, rfl⟩
      · rw [touch_other hc] at h
        exact ⟨q, evictPeer_some h, rfl⟩
  | receive src f now addressedToUs =>
    by_cases hc : src = c
    · subst hc
      simp only [contactAt, if_true]
      obtain ⟨ht, hr⟩ | ⟨p, ht, hr⟩ := s.onReceive_cases src f now addressedToUs
      · rw [apply, hr, touched_none ht] at h
        cases h
      · rw [apply, hr, Sessions.peer_store, if_pos rfl] at h
        rw [← Option.some.inj h, receive_lastHeard, touched_lastHeard ht]
    · rw [apply, s.onReceive_peer (Ne.symm hc)] at h
      simp only [contactAt, if_neg hc]
      exact ⟨q, h, rfl⟩
  | enqueue dst kind payload reliable now =>
    simp only [apply, Sessions.enqueue] at h
    by_cases hc : dst = c
    · subst hc
      simp only [contactAt, if_true]
      split_ifs at h with hzero
      · have hroom := hgood.room
        rw [show s.config.maxPeers = 0 from hzero, Nat.le_zero, Table.size,
          List.length_eq_zero_iff] at hroom
        have hmem := Table.mem_entries_iff.mpr (show s.peers.get dst = some q from h)
        rw [hroom] at hmem
        cases hmem
      · cases ht : (s.drawSeq.2.evictPeer dst).touched dst now with
        | none =>
          simp only [ht, touched_none ht] at h
          cases h
        | some p =>
          simp only [ht, Sessions.peer_store, if_true, Option.some.injEq] at h
          rw [← h, enqueue_lastHeard, touched_lastHeard ht]
    · simp only [contactAt, if_neg hc]
      have hkept : ∀ q, (s.drawSeq.2.evictPeer dst).peer c = some q → s.peer c = some q :=
        fun q hq => evictPeer_some (s := s.drawSeq.2) hq
      split_ifs at h
      · exact ⟨q, h, rfl⟩
      · cases ht : (s.drawSeq.2.evictPeer dst).touched dst now with
        | none =>
          simp only [ht] at h
          exact ⟨q, hkept q h, rfl⟩
        | some p =>
          simp only [ht, Sessions.peer_store, if_neg (Ne.symm hc)] at h
          exact ⟨q, hkept q h, rfl⟩
  | tick now retry =>
    rw [apply, Sessions.tickRetries_peer, Option.bind_eq_some_iff] at h
    obtain ⟨p, hp, hq⟩ := h
    exact ⟨p, hp, ticked_lastHeard hq⟩
  | keyed dest seq now =>
    rw [apply, Sessions.onKeyed_peer] at h
    split_ifs at h
    · obtain ⟨p, hp, rfl⟩ := Option.map_eq_some_iff.mp h
      exact ⟨p, hp, onKeyed_lastHeard p seq now⟩
    · exact ⟨q, h, rfl⟩
  | drainAcks =>
    rw [apply, Sessions.drainAcks_peer] at h
    obtain ⟨p, hp, rfl⟩ := Option.map_eq_some_iff.mp h
    exact ⟨p, hp, rfl⟩
  | forget call =>
    rw [apply, Sessions.forget, Sessions.peer, Table.get_erase] at h
    split_ifs at h
    exact ⟨q, h, rfl⟩
  | markKicked call channel =>
    rw [apply, markKicked] at h
    cases hp : s.peer call with
    | none =>
      rw [hp] at h
      exact ⟨q, h, rfl⟩
    | some p =>
      rw [hp] at h
      simp only [Sessions.peer_store] at h
      split_ifs at h with hc
      · obtain rfl := Option.some.inj h
        exact ⟨p, hc ▸ hp, rfl⟩
      · exact ⟨q, h, rfl⟩
  | nextSeq => exact ⟨q, h, rfl⟩

/-! ### What the time stamp stands for -/

theorem latest_after {c : Callsign} {e : Operation} {now : ℕ} (h : contactAt c e = some now)
    (s : Sessions) (k : Contact) : (k.after c s e).latest = now := by
  unfold Contact.after
  rw [h]
  cases e with
  | enqueue dst kind payload reliable t =>
    simp only
    split_ifs <;> rfl
  | forceTouch call t =>
    simp only
    split_ifs <;> rfl
  | _ => rfl

theorem after_none {c : Callsign} {e : Operation} (h : contactAt c e = none) (s : Sessions)
    (k : Contact) : k.after c s e = k := by
  unfold Contact.after
  rw [h]

/-- Every record has the time at which its station was last heard or written to. -/
structure Stamped (r : Run) : Prop where
  good : Good r.sessions
  latest : ∀ c p, r.sessions.peer c = some p → p.lastHeard = (r.contacts c).latest

theorem stamped_next {r : Run} (h : Stamped r) (e : Operation) : Stamped (r.next e) where
  good := apply_good h.good e
  latest c q hq := by
    have hstamp := apply_lastHeard h.good hq
    change q.lastHeard = ((r.contacts c).after c r.sessions e).latest
    cases hc : contactAt c e with
    | none =>
      simp only [hc] at hstamp
      obtain ⟨p, hp, hsame⟩ := hstamp
      rw [after_none hc, hsame, h.latest c p hp]
    | some now =>
      simp only [hc] at hstamp
      rw [latest_after hc, hstamp]

theorem stamped_reachable {cfg : SessionConfig} {r : Run}
    (h : Reachable (system cfg) (fun _ _ => True) r) : r.sessions.config = cfg ∧ Stamped r := by
  have hinv : Inductive (system cfg) (fun _ _ => True) fun r =>
      r.sessions.config = cfg ∧ Stamped r := by
    refine .ofNext ?_ ?_
    · rintro r rfl
      refine ⟨rfl, good_new cfg, ?_⟩
      intro c p hp
      cases hp
    · rintro r e ⟨rfl, hs⟩ _ _
      exact ⟨apply_config r.sessions e, stamped_next hs e⟩
  exact hinv.reachable h

/-! ### Expiry -/

/-- The station did not acknowledge the last message that there is for it. -/
def GivesUp (cfg : SessionConfig) (p : Peer) (now : ℕ) (retry : Bool) : Prop :=
  retry = true ∧ p.queue = [] ∧
    ∃ pd, p.pending = some pd ∧ pd.due now = true ∧ cfg.maxRetries ≤ pd.attempts

theorem ticked_none_iff (s : Sessions) (p : Peer) (now : ℕ) (retry : Bool) :
    (s.ticked now retry p).1 = none ↔
      s.config.peerIdleTimeout < now - p.lastHeard ∨ GivesUp s.config p now retry := by
  have hheard : (expireReasm s.config p now).1.lastHeard = p.lastHeard := rfl
  have hpending : (expireReasm s.config p now).1.pending = p.pending := rfl
  have hqueue : (expireReasm s.config p now).1.queue = p.queue := rfl
  unfold Sessions.ticked GivesUp
  simp only [Peer.tick, hheard, hpending]
  by_cases hidle : s.config.peerIdleTimeout < now - p.lastHeard
  · simp [hidle]
  cases retry with
  | false => simp [hidle]
  | true =>
    cases hp : p.pending with
    | none => simp [hidle]
    | some pd =>
      by_cases hdue : pd.due now = true
      · by_cases htries : s.config.maxRetries ≤ pd.attempts
        · cases hq : p.queue <;> simp [hidle, hdue, htries, Peer.abandon, hqueue, hq]
        · simp [hidle, hdue, htries]
      · simp [hidle, hdue]

theorem mem_lost_iff {s : Sessions} {c : Callsign} {p : Peer} (hp : s.peer c = some p) (now : ℕ)
    (retry : Bool) :
    c ∈ (s.tickRetries now retry).2.lost ↔ (s.ticked now retry p).1 = none := by
  have hgone : c ∈ (s.tickRetries now retry).2.lost ↔
      ∃ e ∈ s.peers.entries, (s.ticked now retry e.2).1 = none ∧ e.1 = c := by
    simp only [Sessions.tickRetries, List.mem_map, List.mem_append, List.mem_filter,
      Option.isNone_iff_eq_none, decide_eq_true_eq]
    constructor
    · rintro ⟨e, ⟨⟨he, hnone⟩, -⟩ | ⟨⟨he, hnone⟩, -⟩, rfl⟩ <;> exact ⟨e, he, hnone, rfl⟩
    · rintro ⟨e, he, hnone, rfl⟩
      by_cases hfate : (e.2.tick s.config now retry).2.2 = .lost
      · exact ⟨e, .inl ⟨⟨he, hnone⟩, hfate⟩, rfl⟩
      · exact ⟨e, .inr ⟨⟨he, hnone⟩, hfate⟩, rfl⟩
  rw [hgone]
  constructor
  · rintro ⟨⟨d, q⟩, he, hnone, rfl⟩
    have hq : s.peer d = some q := Table.mem_entries_iff.mp he
    obtain rfl := Option.some.inj (hp.symm.trans hq)
    exact hnone
  · exact fun hnone => ⟨(c, p), Table.mem_entries_iff.mpr hp, hnone, rfl⟩

/-! ### Eviction -/

/-- The stations that may have to make way: none has an earlier time stamp. The source leaves it
open which one it is when there are several. -/
def Quietest (s : Sessions) (x : Callsign) : Prop :=
  ∃ p, s.peer x = some p ∧ ∀ y q, s.peer y = some q → p.lastHeard ≤ q.lastHeard

def LeastHeard (r : Run) (x : Callsign) : Prop :=
  (r.sessions.peer x).isSome = true ∧
    ∀ y, (r.sessions.peer y).isSome = true → (r.contacts x).heard ≤ (r.contacts y).heard

theorem evictPeer_quietest {s : Sessions} {call : Callsign} (hnew : s.peer call = none)
    (hfull : s.config.maxPeers ≤ s.peers.size) (hsome : 0 < s.peers.size) :
    ∃ x, Quietest s x ∧ s.evictPeer call =
      { s with peers := s.peers.erase x, evicted := s.evicted ++ [x] } := by
  have hne : s.peers.entries ≠ [] := List.ne_nil_of_length_pos hsome
  obtain ⟨x, hx, hleast⟩ := Table.leastKey_mem Peer.lastHeard hne
  obtain ⟨p, hp⟩ := Option.isSome_iff_exists.mp (Table.mem_keys_iff.mp hx)
  have hkey : call ∉ s.peers.keys := by
    rw [Table.mem_keys_iff, Option.not_isSome_iff_eq_none]
    exact hnew
  refine ⟨x, ⟨p, hp, fun y q hq => Table.leastKey_least hleast hp hq⟩, ?_⟩
  rw [Sessions.evictPeer, if_pos ⟨hkey, hfull⟩, hleast]

theorem Stamped.quietest_iff {r : Run} (h : Stamped r) (x : Callsign) :
    Quietest r.sessions x ↔ (r.sessions.peer x).isSome = true ∧
      ∀ y, (r.sessions.peer y).isSome = true → (r.contacts x).latest ≤ (r.contacts y).latest := by
  constructor
  · rintro ⟨p, hp, hleast⟩
    refine ⟨by rw [hp]; rfl, fun y hy => ?_⟩
    obtain ⟨q, hq⟩ := Option.isSome_iff_exists.mp hy
    rw [← h.latest x p hp, ← h.latest y q hq]
    exact hleast y q hq
  · rintro ⟨hx, hleast⟩
    obtain ⟨p, hp⟩ := Option.isSome_iff_exists.mp hx
    refine ⟨p, hp, fun y q hq => ?_⟩
    rw [h.latest x p hp, h.latest y q hq]
    exact hleast y (by rw [hq]; rfl)

theorem exists_quietest {s : Sessions} (hsome : 0 < s.peers.size) : ∃ x, Quietest s x := by
  have hne : s.peers.entries ≠ [] := List.ne_nil_of_length_pos hsome
  obtain ⟨x, hx, hleast⟩ := Table.leastKey_mem Peer.lastHeard hne
  obtain ⟨p, hp⟩ := Option.isSome_iff_exists.mp (Table.mem_keys_iff.mp hx)
  exact ⟨x, p, hp, fun y q hq => Table.leastKey_least hleast hp hq⟩

/-- A station that nothing was heard of for too long is lost at the next tick exactly when it was
not written to in that time, or is given up. And one of those heard least recently makes way,
whichever of the quietest does, exactly when one of them was last written to before any other
station was heard or written to. -/
theorem idle_by_contact (cfg : SessionConfig) {r : Run}
    (h : Reachable (system cfg) (fun _ _ => True) r) :
    (∀ c p now retry, r.sessions.peer c = some p →
      cfg.peerIdleTimeout < now - (r.contacts c).heard →
      (c ∈ (r.sessions.tickRetries now retry).2.lost ↔
        (∀ t, (r.contacts c).sent = some t → cfg.peerIdleTimeout < now - t) ∨
          GivesUp cfg p now retry)) ∧
    ∀ call, r.sessions.peer call = none → cfg.maxPeers ≤ r.sessions.peers.size →
      0 < r.sessions.peers.size →
      (∃ x, Quietest r.sessions x ∧ r.sessions.evictPeer call =
        { r.sessions with
          peers := r.sessions.peers.erase x, evicted := r.sessions.evicted ++ [x] }) ∧
      ((∀ x, Quietest r.sessions x → LeastHeard r x) ↔
        ∃ m, LeastHeard r m ∧ ∀ y, (r.sessions.peer y).isSome = true → ¬ LeastHeard r y →
          (r.contacts m).latest < (r.contacts y).latest) := by
  obtain ⟨rfl, hstamped⟩ := stamped_reachable h
  constructor
  · intro c p now retry hp hsilent
    rw [mem_lost_iff hp, ticked_none_iff, hstamped.latest c p hp, Contact.latest]
    cases hsent : (r.contacts c).sent with
    | none => simp [hsilent]
    | some t => simp
  · intro call hnew hfull hsome
    refine ⟨evictPeer_quietest hnew hfull hsome, ?_⟩
    constructor
    · intro hall
      obtain ⟨m, hm⟩ := exists_quietest hsome
      refine ⟨m, hall m hm, fun y hy hmore => ?_⟩
      obtain ⟨-, hleast⟩ := (hstamped.quietest_iff m).mp hm
      by_contra hle
      refine hmore (hall y ((hstamped.quietest_iff y).mpr ⟨hy, fun z hz => ?_⟩))
      exact (Nat.le_of_not_lt hle).trans (hleast z hz)
    · rintro ⟨m, hm, hlater⟩ x hx
      obtain ⟨hknown, hleast⟩ := (hstamped.quietest_iff x).mp hx
      by_contra hmore
      have hlt := hlater x hknown hmore
      have hle := hleast m hm.1
      omega

/-! ### Two stations in a full table -/

def later : Callsign := ⟨"SM0DEF", 0⟩

/-- Both are heard, and the first is written to before the second is heard. -/
def pair : Run :=
  [.touch asker 0, .enqueue asker .notice [104] false 3, .touch later 5].foldl Run.next
    ⟨.new narrow, fun _ => ⟨0, none⟩⟩

theorem idle_by_contact_pair :
    asker ∈ (pair.sessions.tickRetries (secs 1801) true).2.lost ∧
    ∀ x, Quietest pair.sessions x → LeastHeard pair x := by
  have h : Reachable (system narrow) (fun _ _ => True) pair :=
    (Reachable.initial rfl).run (by decide +kernel)
  obtain ⟨hlost, hevicted⟩ := idle_by_contact narrow h
  have hkeys : pair.sessions.peers.keys = [asker, later] := by decide +kernel
  have hcontacts : pair.contacts asker = ⟨0, some 3⟩ ∧ pair.contacts later = ⟨5, none⟩ := by
    decide +kernel
  have hknown : ∀ y, (pair.sessions.peer y).isSome = true → y = asker ∨ y = later := by
    intro y hy
    have hmem := Table.mem_keys_iff.mpr hy
    rw [hkeys] at hmem
    simpa using hmem
  constructor
  · have hsome : (pair.sessions.peer asker).isSome = true := by decide +kernel
    obtain ⟨p, hp⟩ := Option.isSome_iff_exists.mp hsome
    refine (hlost asker p _ true hp (by rw [hcontacts.1]; decide)).mpr (.inl ?_)
    intro t ht
    rw [hcontacts.1] at ht
    obtain rfl := Option.some.inj ht
    decide
  · have hnew : pair.sessions.peer ⟨"SM0GHI", 0⟩ = none :=
      Option.not_isSome_iff_eq_none.mp (by decide +kernel)
    refine (hevicted _ hnew (by decide +kernel) (by decide +kernel)).2.mpr ⟨asker, ⟨by decide +kernel, ?_⟩, ?_⟩
    · intro y _
      rw [hcontacts.1]
      exact Nat.zero_le _
    · intro y hy hmore
      rcases hknown y hy with rfl | rfl
      · refine absurd ⟨hy, fun z _ => ?_⟩ hmore
        rw [hcontacts.1]
        exact Nat.zero_le _
      · rw [hcontacts.1, hcontacts.2]
        decide

/-- A silent station is kept by what is sent to it, and another one makes way in its place. -/
theorem kept_by_writing :
    (∃ r : Run, Reachable (system narrow) (fun _ _ => True) r ∧ ∃ now,
      (r.sessions.peer asker).isSome = true ∧
      narrow.peerIdleTimeout < now - (r.contacts asker).heard ∧
      asker ∉ (r.sessions.tickRetries now true).2.lost) ∧
    ∃ r : Run, Reachable (system narrow) (fun _ _ => True) r ∧ ∃ call,
      r.sessions.peer call = none ∧ (r.sessions.evictPeer call).evicted = [later] ∧
      (r.contacts asker).heard < (r.contacts later).heard ∧
      (r.sessions.peer asker).isSome = true := by
  have hwritten : Reachable (system narrow) (fun _ _ => True)
      ([.touch asker 0, .enqueue asker .notice [104] false 3].foldl Run.next
        ⟨.new narrow, fun _ => ⟨0, none⟩⟩) := (Reachable.initial rfl).run (by decide +kernel)
  have hovertaken : Reachable (system narrow) (fun _ _ => True)
      ([.touch asker 0, .touch later 5, .enqueue asker .notice [104] false 10].foldl Run.next
        ⟨.new narrow, fun _ => ⟨0, none⟩⟩) := (Reachable.initial rfl).run (by decide +kernel)
  refine ⟨⟨_, hwritten, narrow.peerIdleTimeout + 1, by decide +kernel, by decide +kernel,
    by decide +kernel⟩, _, hovertaken, ⟨"SM0GHI", 0⟩, ?_, by decide +kernel, by decide +kernel,
    by decide +kernel⟩
  exact Option.not_isSome_iff_eq_none.mp (by decide +kernel)

end QuietStations
