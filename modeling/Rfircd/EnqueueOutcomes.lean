import Rfircd.FragmentSizes
import Rfircd.SessionTable

/-! Whether a message of ours is taken, and what a refusal leaves behind.
A record counts every refusal and notes the time of it. -/
namespace EnqueueOutcomes

open Basics Airc AircSession AircSession.Sessions KeyedTable TransitionSystem SessionTable
open FragmentSizes

variable {cfg : SessionConfig} {s t : Sessions} {dst : Callsign} {kind : Kind} {seq : UInt16}
  {payload : List UInt8} {reliable : Bool} {now : ℕ} {p q : Peer}

/-! ### Room -/

/-- Without an acknowledgement to carry, a message never needs more frames. -/
theorem parts_le_carrying (cfg : SessionConfig) (p : Peer) (payload : List UInt8) (reliable : Bool) :
    (p.parts cfg payload reliable).length ≤ (chunkPayload payload cfg.maxPayload true).length := by
  have hpos : 0 < cfg.maxPayload := Nat.lt_of_lt_of_le Nat.zero_lt_one (Nat.le_max_right _ 1)
  unfold Peer.parts
  cases (takePiggyback cfg p reliable).1.isSome with
  | true => exact le_rfl
  | false =>
    rw [(chunkPayload_length hpos payload false).2 rfl]
    exact (chunkPayload_length hpos payload true).1

/-- In a table within its limit there is a record for every station, or room for one. -/
theorem hasRecordFor_of_room (h : s.peers.size ≤ s.config.maxPeers) (hpeers : 1 ≤ s.config.maxPeers)
    (dst : Callsign) : s.hasRecordFor dst = true := by
  unfold hasRecordFor
  rw [decide_eq_true (Nat.lt_of_succ_le hpeers), decide_eq_true h, Bool.or_true, Bool.and_true]

/-- What is said beforehand is what the record says. -/
theorem canAccept_record (s : Sessions) (dst : Callsign) : s.canAccept dst =
    ((s.record dst).pending.isNone || decide ((s.record dst).queue.length < s.config.maxQueue)) := by
  unfold canAccept record peer
  cases s.peers.get dst with
  | none => rfl
  | some p =>
    dsimp only [Option.getD_some]
    cases p.pending with
    | none => rfl
    | some pending => rfl

theorem reachable_config (cfg : SessionConfig) (h : Reachable (system cfg) (fun _ _ => True) s) :
    s.config = cfg := by
  have hkept : Inductive (system cfg) (fun _ _ => True) fun s => s.config = cfg := by
    refine .ofNext ?_ ?_
    · rintro s rfl
      rfl
    · intro s e hconfig _ _
      exact (apply_config s e).trans hconfig
  exact hkept.reachable h

/-- What is said beforehand is what is done. -/
theorem room_prediction_exact (cfg : SessionConfig) (hpeers : 1 ≤ cfg.maxPeers) {s : Sessions}
    (h : Reachable (system cfg) (fun _ _ => True) s) (dst : Callsign) (kind : Kind)
    (payload : List UInt8) (now : ℕ)
    (hparts : (chunkPayload payload cfg.maxPayload true).length ≤ 255) :
    s.canAccept dst = true ↔ (s.enqueue dst kind payload true now).2.accepted = true := by
  have hconfig : s.config = cfg := reachable_config cfg h
  have hroom := (table_invariant cfg h).1
  rw [← hconfig] at hpeers hparts hroom
  have hfew : ((s.record dst).parts s.config payload true).length ≤ 255 :=
    (parts_le_carrying ..).trans hparts
  rw [enqueue_accepted, accepts, hasRecordFor_of_room hroom hpeers, Bool.true_and, Peer.accepts,
    decide_eq_true hfew, canAccept_record]
  rfl

/-- The station asked for has one message in flight and one waiting. -/
theorem room_prediction_exact_crowded :
    crowded.canAccept asker = true ↔ (crowded.enqueue asker .notice [106] true 3).2.accepted = true :=
  room_prediction_exact narrow (by decide)
    ((Reachable.initial rfl).run (show Runs _ _ apply (Sessions.new narrow)
      [.enqueue asker .notice [104] true 0, .enqueue asker .notice [105] true 0,
        .receive asker (lastPart 8) 1 true, .receive asker (lastPart 9) 1 true,
        .touch ⟨"SM0DEF", 0⟩ 0, .forceTouch ⟨"SM0GHI", 0⟩ 2] by decide +kernel))
    asker .notice [106] 3 (by decide +kernel)

/-! ### Refusals -/

/-- A record is as before, but for the count of what was dropped. -/
def SameButDropped (p q : Peer) : Prop := q = { p with dropped := q.dropped }

/-- The same stations are known, and all that is known of them is as before, but for the count of
what was dropped. -/
structure Untouched (s t : Sessions) : Prop where
  config : t.config = s.config
  banned : t.radioKicked = s.radioKicked
  evicted : t.evicted = s.evicted
  known : ∀ call, (t.peer call).isSome = (s.peer call).isSome
  same : ∀ call p q, s.peer call = some p → t.peer call = some q → SameButDropped p q

/-- The acknowledgement that a refused message would have carried is put back. -/
theorem restore_take (cfg : SessionConfig) (p : Peer) (reliable : Bool) :
    restorePiggyback (takePiggyback cfg p reliable).2 (takePiggyback cfg p reliable).1 = p := by
  rcases takePiggyback_cases cfg p reliable with htake | ⟨acked, howed, -, -, htake⟩
  · rw [htake]
    rfl
  · rw [htake]
    have hback : { p with owedAck := some ⟨acked, none⟩ } = p := by rw [← howed]
    exact hback

/-- A refusal is counted in the record of the station, and nothing else of it changes. -/
theorem enqueue_refused (h : (p.enqueue cfg seq kind payload reliable).2.accepted = false) :
    (p.enqueue cfg seq kind payload reliable).1 = { p with dropped := p.dropped + 1 } := by
  have hback := restore_take cfg p reliable
  have hdropped : (takePiggyback cfg p reliable).2.dropped = p.dropped := by
    rcases takePiggyback_cases cfg p reliable with htake | ⟨acked, -, -, -, htake⟩ <;> rw [htake]
  unfold Peer.enqueue at h ⊢
  rcases htake : takePiggyback cfg p reliable with ⟨piggy, r⟩
  rw [htake] at hback hdropped h
  dsimp only at hback hdropped h ⊢
  split_ifs at h ⊢
  · rw [hback, hdropped]
  · rw [hback]

/-- Nobody makes way for a station that is known. -/
theorem evictPeer_known (h : s.peer dst = some p) : s.evictPeer dst = s := by
  have hknown : dst ∈ s.peers.keys := Table.mem_keys_iff.mpr (by rw [show s.peers.get dst = some p from h]; rfl)
  rw [evictPeer, if_neg fun hnew => hnew.1 hknown]

theorem touched_known (h : s.peer dst = some p) (now : ℕ) :
    s.touched dst now = some { p with lastHeard := now } := by
  rw [touched, show s.peers.get dst = some p from h]

/-- In a table that is full somebody has made way. -/
theorem evicted_of_full (h : s.peer dst = none) (hpeers : s.config.maxPeers ≠ 0)
    (hfull : (s.evictPeer dst).touched dst now = none) :
    ∃ call, (s.peer call).isSome = true ∧ (s.evictPeer dst).peer call = none := by
  have hnew : dst ∉ s.peers.keys := fun hmem => by
    rw [Table.mem_keys_iff, show s.peers.get dst = none from h] at hmem
    cases hmem
  have hsize : s.config.maxPeers ≤ s.peers.size := by
    by_contra hless
    have hkept : s.evictPeer dst = s := by rw [evictPeer, if_neg fun hroom => hless hroom.2]
    rw [hkept, touched, show s.peers.get dst = none from h, if_neg hless] at hfull
    cases hfull
  have hsome : s.peers.entries ≠ [] := by
    intro hnil
    rw [Table.size, hnil, List.length_nil] at hsize
    omega
  obtain ⟨oldest, hmem, hleast⟩ := Table.leastKey_mem Peer.lastHeard hsome
  refine ⟨oldest, Table.mem_keys_iff.mp hmem, ?_⟩
  rw [evictPeer, if_pos ⟨hnew, hsize⟩, hleast, peer, Table.get_erase, if_pos rfl]

/-- What a refusal does: nothing where no station is kept at all; the record of a known station is
stamped; for an unknown one a record is made, or somebody has made way for it. -/
theorem refused_cases (h : (s.enqueue dst kind payload reliable now).2.accepted = false) :
    (s.config.maxPeers = 0 ∧ (s.enqueue dst kind payload reliable now).1 = s.drawSeq.2) ∨
    (∃ p, s.peer dst = some p ∧ s.config.maxPeers ≠ 0 ∧
      (s.enqueue dst kind payload reliable now).1 =
        s.drawSeq.2.store dst { p with lastHeard := now, dropped := p.dropped + 1 }) ∨
    (s.peer dst = none ∧ s.config.maxPeers ≠ 0 ∧
      (((s.enqueue dst kind payload reliable now).1.peer dst).isSome = true ∨
        ∃ call, (s.peer call).isSome = true ∧
          (s.enqueue dst kind payload reliable now).1.peer call = none)) := by
  by_cases hzero : s.config.maxPeers = 0
  · have hdrawn : s.drawSeq.2.config.maxPeers = 0 := hzero
    refine .inl ⟨hzero, ?_⟩
    simp only [enqueue, if_pos hdrawn]
  have hdrawn : s.drawSeq.2.config.maxPeers ≠ 0 := hzero
  have hconfig : (s.drawSeq.2.evictPeer dst).config = s.config := evictPeer_config s.drawSeq.2 dst
  unfold enqueue at h ⊢
  dsimp only at h ⊢
  rw [if_neg hdrawn] at h ⊢
  cases hpeer : s.peer dst with
  | some p =>
    have hknown : s.drawSeq.2.peer dst = some p := hpeer
    rw [evictPeer_known hknown, touched_known hknown] at h ⊢
    dsimp only at h ⊢
    refine .inr (.inl ⟨p, rfl, hzero, ?_⟩)
    rw [enqueue_refused h]
  | none =>
    have hunknown : s.drawSeq.2.peer dst = none := hpeer
    refine .inr (.inr ⟨rfl, hzero, ?_⟩)
    cases htouched : (s.drawSeq.2.evictPeer dst).touched dst now with
    | none =>
      obtain ⟨call, hcall, hgone⟩ := evicted_of_full hunknown hdrawn htouched
      exact .inr ⟨call, hcall, hgone⟩
    | some p =>
      refine .inl ?_
      dsimp only
      rw [peer_store, if_pos rfl]
      rfl

/-- A refusal leaves all stations as they are exactly if none are kept, or the station is known and
was heard at that very moment. -/
theorem refusal_changes_nothing
    (h : (s.enqueue dst kind payload reliable now).2.accepted = false) :
    Untouched s (s.enqueue dst kind payload reliable now).1 ↔
      s.config.maxPeers = 0 ∨ ∃ p, s.peer dst = some p ∧ p.lastHeard = now := by
  rcases refused_cases h with ⟨hzero, heq⟩ | ⟨p, hp, hpeers, heq⟩ | ⟨hnone, hpeers, hmade | hgone⟩
  · rw [heq]
    refine iff_of_true ⟨rfl, rfl, rfl, fun _ => rfl, fun call p q hp hq => ?_⟩ (.inl hzero)
    obtain rfl : p = q := Option.some.inj (hp.symm.trans hq)
    rfl
  · rw [heq]
    constructor
    · intro hsame
      refine .inr ⟨p, hp, ?_⟩
      have hstored : (s.drawSeq.2.store dst
          { p with lastHeard := now, dropped := p.dropped + 1 }).peer dst =
          some { p with lastHeard := now, dropped := p.dropped + 1 } := by
        rw [peer_store, if_pos rfl]
      have hstamp := congrArg Peer.lastHeard (hsame.same dst p _ hp hstored)
      exact hstamp.symm
    · rintro (hzero | ⟨p', hp', hheard⟩)
      · exact absurd hzero hpeers
      · obtain rfl : p = p' := Option.some.inj (hp.symm.trans hp')
        refine ⟨rfl, rfl, rfl, fun call => ?_, fun call r q hr hq => ?_⟩
        · rw [peer_store]
          split_ifs with hcall
          · rw [hcall, hp]
            rfl
          · rfl
        · rw [peer_store] at hq
          split_ifs at hq with hcall
          · subst hcall
            obtain rfl : p = r := Option.some.inj (hp.symm.trans hr)
            obtain rfl := Option.some.inj hq
            rw [SameButDropped, ← hheard]
          · obtain rfl : r = q := Option.some.inj (hr.symm.trans hq)
            rfl
  · refine iff_of_false (fun hsame => ?_) ?_
    · rw [hsame.known dst, hnone] at hmade
      cases hmade
    · rintro (hzero | ⟨p, hp, -⟩)
      · exact hpeers hzero
      · cases hnone.symm.trans hp
  · obtain ⟨call, hcall, hgone⟩ := hgone
    refine iff_of_false (fun hsame => ?_) ?_
    · rw [← hsame.known call, hgone] at hcall
      cases hcall
    · rintro (hzero | ⟨p, hp, -⟩)
      · exact hpeers hzero
      · cases hnone.symm.trans hp

/-! ### A table with room for one -/

def tight : SessionConfig := { SessionConfig.default with paclen := 9, maxQueue := 0, maxPeers := 1 }

/-- A message to the station is in flight, and none may wait behind it. -/
def busy : Sessions := apply (Sessions.new tight) (.enqueue asker .notice [104] true 0)

theorem busy_reachable : Reachable (system tight) (fun _ _ => True) busy :=
  (Reachable.initial rfl).run (show Runs _ _ apply (Sessions.new tight)
    [.enqueue asker .notice [104] true 0] by decide +kernel)

/-- Refused at the moment the station was heard. -/
theorem refusal_changes_nothing_busy : (busy.enqueue asker .notice [105] true 0).2.accepted = false ∧
    Untouched busy (busy.enqueue asker .notice [105] true 0).1 := by
  have hrefused : (busy.enqueue asker .notice [105] true 0).2.accepted = false := by decide +kernel
  have hheard : (busy.record asker).lastHeard = 0 := by decide +kernel
  have hsome : (busy.peer asker).isSome = true := by decide +kernel
  obtain ⟨p, hp⟩ := Option.isSome_iff_exists.mp hsome
  rw [record, hp, Option.getD_some] at hheard
  exact ⟨hrefused, (refusal_changes_nothing hrefused).mpr (.inr ⟨p, hp, hheard⟩)⟩

/-- A message for a full queue counts as heard from the station, and one that is too long drives the
station out for another that nothing is sent to. -/
theorem refusal_evicts : ∃ s, Reachable (system tight) (fun _ _ => True) s ∧
    (s.enqueue asker .notice [105] true 7).2.accepted = false ∧
    ((s.enqueue asker .notice [105] true 7).1.record asker).lastHeard ≠ (s.record asker).lastHeard ∧
    (s.enqueue ⟨"SM0DEF", 0⟩ .notice (List.replicate 256 104) true 7).2.accepted = false ∧
    ¬ Untouched s (s.enqueue ⟨"SM0DEF", 0⟩ .notice (List.replicate 256 104) true 7).1 := by
  refine ⟨busy, busy_reachable, by decide +kernel, by decide +kernel, by decide +kernel, fun h => ?_⟩
  have hknown := h.known asker
  have hbefore : (busy.peer asker).isSome = true := by decide +kernel
  have hafter : ((busy.enqueue ⟨"SM0DEF", 0⟩ .notice (List.replicate 256 104) true 7).1.peer
      asker).isSome = false := by decide +kernel
  rw [hbefore, hafter] at hknown
  cases hknown

end EnqueueOutcomes
