import Rfircd.StopAndWait

/-! What an acknowledgement does to our messages when the frame that carries it was sent to
somebody else. -/
namespace OverheardAcks

open Basics Airc AircSession KeyedTable SessionTable

/-- The acknowledgement is for the message in flight, and completes it or reports a part that was
not reported before. -/
def Acts (p : Peer) (seq : UInt16) (bitmap : Option (List UInt8)) : Prop :=
  ∃ pd, p.pending = some pd ∧ pd.seq? = some seq ∧
    (pd.completedBy bitmap = true ∨ ∃ bits, bitmap = some bits ∧ (pd.mark bits).acked ≠ pd.acked)

/-- The frame carries such an acknowledgement, on the way or as its payload. -/
def Reports (p : Peer) (f : AircFrame) : Prop :=
  (∃ seq, f.piggybackSeq = some seq ∧ Acts p seq none) ∨
    f.kind = .ack ∧ ∃ seq bitmap, parseAckPayload f.payload = some (seq, bitmap) ∧
      Acts p seq bitmap

/-- The record of the station the messages of which are counted: what a restart of it leaves. -/
def before (s : Sessions) (src : Callsign) (f : AircFrame) (c : Callsign) : Peer :=
  if c = src then helloReset (s.record c) f else s.record c

/-- No message of ours is completed, marked or started, no timer is set, nothing goes out. -/
def Unmoved (s : Sessions) (src : Callsign) (f : AircFrame) (r : Sessions × RxOutcome) : Prop :=
  r.2.transmit = [] ∧ ∀ c, SameOutbox (before s src f c) (r.1.record c)

section

variable {p : Peer} {seq : UInt16} {bitmap : Option (List UInt8)}

theorem applyAck_of_not_acts (h : ¬ Acts p seq bitmap) : applyAck p seq bitmap = (p, []) := by
  unfold applyAck
  cases hp : p.pending with
  | none => rfl
  | some pd =>
    simp only
    split_ifs with hseq hdone hmark
    · rfl
    · exact absurd ⟨pd, hp, not_not.mp hseq, .inl hdone⟩ h
    · rfl
    · cases bitmap with
      | none => exact absurd rfl hdone
      | some bits => exact absurd ⟨pd, hp, not_not.mp hseq, .inr ⟨bits, rfl, hmark⟩⟩ h

theorem applyAck_of_completed {pd : Pending} (hp : p.pending = some pd)
    (hseq : pd.seq? = some seq) (hdone : pd.completedBy bitmap = true) :
    applyAck p seq bitmap = releasePending p ∧
    (applyAck p seq bitmap).1.outbox.length < p.outbox.length := by
  have hrelease : applyAck p seq bitmap = releasePending p := by
    unfold applyAck
    simp only [hp, hseq, ne_eq, not_true_eq_false, if_false, hdone, if_true]
  refine ⟨hrelease, ?_⟩
  rw [hrelease, (AircSession.releasePending_outbox p).1, Peer.outbox, hp, List.length_append]
  exact Nat.lt_add_of_pos_left Nat.zero_lt_one

theorem length_applyAck_le (p : Peer) (seq : UInt16) (bitmap : Option (List UInt8)) :
    (applyAck p seq bitmap).1.outbox.length ≤ p.outbox.length := by
  obtain ⟨hr, -⟩ | ⟨pd, bits, hp, -, -, -, -, hr⟩ | ⟨pd, hp, hseq, hdone, -⟩ :=
    applyAck_cases p seq bitmap
  · rw [hr]
  · rw [hr]
    simp [Peer.outbox, hp]
  · exact (applyAck_of_completed hp hseq hdone).2.le

theorem applyAck_of_acts (h : Acts p seq bitmap) : ¬ SameOutbox p (applyAck p seq bitmap).1 := by
  obtain ⟨pd, hp, hseq, hacts⟩ := h
  intro hsame
  by_cases hdone : pd.completedBy bitmap = true
  · have hless := (applyAck_of_completed hp hseq hdone).2
    rw [hsame.outbox] at hless
    exact hless.false
  · obtain ⟨bits, rfl, hmark⟩ := hacts.resolve_left hdone
    have hpending := hsame.pending
    rw [hp] at hpending
    unfold applyAck at hpending
    simp only [hp, hseq, ne_eq, not_true_eq_false, if_false, hdone, Bool.false_eq_true,
      Option.getD_some, if_neg hmark] at hpending
    have hmarked := congrArg Pending.acked (Option.some.inj hpending)
    exact hmark hmarked

/-- An acknowledgement leaves the messages alone exactly when it does not act. -/
theorem applyAck_same_iff : SameOutbox p (applyAck p seq bitmap).1 ∧ (applyAck p seq bitmap).2 = [] ↔
    ¬ Acts p seq bitmap := by
  constructor
  · exact fun h hacts => applyAck_of_acts hacts h.1
  · intro h
    rw [applyAck_of_not_acts h]
    exact ⟨⟨rfl, rfl⟩, rfl⟩

end

/-- What a frame carries on the way does nothing, or completes the message in flight. -/
theorem applyPiggyback_cases (p : Peer) (f : AircFrame) :
    applyPiggyback p f = (p, []) ∧ (∀ seq, f.piggybackSeq = some seq → ¬ Acts p seq none) ∨
    (applyPiggyback p f).1.outbox.length < p.outbox.length ∧
      ∃ seq, f.piggybackSeq = some seq ∧ Acts p seq none := by
  unfold applyPiggyback
  cases hf : f.piggybackSeq with
  | none => exact .inl ⟨rfl, fun seq hseq => absurd hseq (Option.some_ne_none seq).symm⟩
  | some seq =>
    by_cases hacts : Acts p seq none
    · obtain ⟨pd, hp, hseq, -⟩ := id hacts
      exact .inr ⟨(applyAck_of_completed hp hseq rfl).2, seq, rfl, hacts⟩
    · refine .inl ⟨applyAck_of_not_acts hacts, ?_⟩
      rintro seq' hseq
      exact Option.some.inj hseq ▸ hacts

/-- What is left of the messages after a frame is what its acknowledgements leave. -/
theorem receive_unmoved_iff (cfg : SessionConfig) (p : Peer) (f : AircFrame) (now : ℕ)
    (addressedToUs : Bool) :
    SameOutbox (helloReset p.noteAirc f) (p.receive cfg f now addressedToUs).1 ∧
      (p.receive cfg f now addressedToUs).2.transmit = [] ↔
    ¬ Reports (helloReset p.noteAirc f) f := by
  have hmessage := fun hk : f.kind ≠ .ack =>
    @receive_of_message cfg p f now addressedToUs hk
  have hack := fun hk : f.kind = .ack => @receive_of_ack cfg p f now addressedToUs hk
  rw [Peer.piggybacked] at hmessage hack
  generalize helloReset p.noteAirc f = q at hmessage hack ⊢
  rcases applyPiggyback_cases q f with ⟨hq, hquiet⟩ | ⟨hless, hcarried⟩
  · rw [hq] at hmessage hack
    by_cases hk : f.kind = .ack
    · rw [hack hk]
      cases hparse : parseAckPayload f.payload with
      | none =>
        refine ⟨?_, fun _ => ⟨⟨rfl, rfl⟩, rfl⟩⟩
        rintro - (⟨seq, hseq, hacts⟩ | ⟨-, seq, bitmap, hsome, -⟩)
        · exact hquiet seq hseq hacts
        · rw [hparse] at hsome
          cases hsome
      | some ack =>
        obtain ⟨seq, bitmap⟩ := ack
        simp only [List.nil_append]
        rw [applyAck_same_iff]
        refine not_congr ⟨fun hacts => .inr ⟨hk, seq, bitmap, hparse, hacts⟩, ?_⟩
        rintro (⟨seq', hseq, hacts⟩ | ⟨-, seq', bitmap', hsome, hacts⟩)
        · exact absurd hacts (hquiet seq' hseq)
        · obtain ⟨rfl, rfl⟩ := Prod.mk.inj (Option.some.inj (hparse.symm.trans hsome))
          exact hacts
    · rw [hmessage hk]
      refine ⟨?_, fun _ => ⟨receiveMessage_outbox cfg q f now addressedToUs, rfl⟩⟩
      rintro - (⟨seq, hseq, hacts⟩ | ⟨hk', -⟩)
      · exact hquiet seq hseq hacts
      · exact hk hk'
  · refine iff_of_false ?_ (not_not.mpr (.inl hcarried))
    rintro ⟨hsame, -⟩
    have hle : (p.receive cfg f now addressedToUs).1.outbox.length ≤
        (applyPiggyback q f).1.outbox.length := by
      by_cases hk : f.kind = .ack
      · rw [hack hk]
        cases parseAckPayload f.payload with
        | none => exact le_rfl
        | some ack => exact length_applyAck_le _ ack.1 ack.2
      · rw [hmessage hk, (receiveMessage_outbox cfg _ f now addressedToUs).outbox]
    rw [hsame.outbox] at hle
    omega

theorem reports_congr {p q : Peer} (h : SameOutbox p q) (f : AircFrame) :
    Reports q f ↔ Reports p f := by
  unfold Reports Acts
  rw [h.pending]

theorem helloReset_same {p q : Peer} (h : SameOutbox p q) (he : q.epoch = p.epoch)
    (f : AircFrame) : SameOutbox (helloReset p f) (helloReset q.noteAirc f) := by
  have hnote : q.noteAirc.epoch = p.epoch := he
  rw [helloReset, helloReset, hnote]
  split_ifs
  · exact ⟨rfl, rfl⟩
  · exact ⟨h.pending, h.queue⟩

end OverheardAcks
