import Rfircd.StopAndWait

/-! A message that only ever came as a broadcast is never acknowledged. -/
namespace BroadcastAcks

open Basics Airc AircSession KeyedTable TransitionSystem SessionTable StopAndWait

/-- The frame tells its reader that the message with that number arrived, or parts of it. -/
def Acknowledges (f : AircFrame) (seq : UInt16) : Prop :=
  f.piggybackSeq = some seq ∨
    f.kind = .ack ∧ ∃ bitmap, parseAckPayload f.payload = some (seq, bitmap)

/-- Frames of that message of the station are received, but none that is addressed to us. -/
def Overheard (src : Callsign) (seq : UInt16) (_ : Sessions) : Operation → Prop
  | .receive call f _ addressedToUs =>
    call = src → f.kind ≠ .ack → f.seq = seq → addressedToUs = false
  | _ => True

/-- The record of a station that will not acknowledge the message. -/
structure Silent (seq : UInt16) (p : Peer) : Prop where
  owed : ∀ o, p.owedAck = some o → o.seq ≠ seq
  buffer : ∀ r, p.reasm.get seq = some r → r.wantAck = false
  outbox : ∀ frames ∈ p.outbox, ∀ f ∈ frames, f.piggybackSeq = none

/-! ### Receiving -/

section

variable {cfg : SessionConfig} {seq : UInt16} {p q : Peer} {f : AircFrame} {now : ℕ}
variable {addressedToUs : Bool}

theorem silent_blank (seq : UInt16) (now : ℕ) : Silent seq (Peer.new now) where
  owed o ho := by cases ho
  buffer r hr := by simp [Peer.new] at hr
  outbox frames hf := absurd hf List.not_mem_nil

theorem Silent.same (h : Silent seq p) (hin : SameInbox p q)
    (hout : ∀ frames ∈ q.outbox, frames ∈ p.outbox) : Silent seq q where
  owed := hin.owedAck ▸ h.owed
  buffer := hin.reasm ▸ h.buffer
  outbox frames hf := h.outbox frames (hout frames hf)

theorem Silent.helloReset (h : Silent seq p) (f : AircFrame) :
    Silent seq (helloReset p.noteAirc f) := by
  unfold AircSession.helloReset
  split_ifs
  · exact (silent_blank seq 0).same ⟨rfl, rfl, rfl⟩ fun _ hf => hf
  · exact h.same ⟨rfl, rfl, rfl⟩ fun _ hf => hf

/-- A frame of another message changes nothing for this one. -/
theorem Silent.receiveMessage_ne (h : Silent seq p) (hne : f.seq ≠ seq) :
    Silent seq (receiveMessage cfg p f now addressedToUs).1 := by
  have hbranch := Incarnations.receiveMessage_branch cfg p f now addressedToUs
  have hsame := receiveMessage_outbox cfg p f now addressedToUs
  generalize (receiveMessage cfg p f now addressedToUs).1 = q at hbranch hsame
  generalize (receiveMessage cfg p f now addressedToUs).2.1 = deliver at hbranch
  have howed : ∀ (b : Bool) bitmap,
      q.owedAck = (if b then some ⟨f.seq, bitmap⟩ else p.owedAck) →
      ∀ o, q.owedAck = some o → o.seq ≠ seq := by
    intro b bitmap hq o ho
    rw [hq] at ho
    split_ifs at ho
    · exact Option.some.inj ho ▸ hne
    · exact h.owed o ho
  have hbox : ∀ frames ∈ q.outbox, ∀ g ∈ frames, g.piggybackSeq = none := hsame.outbox ▸ h.outbox
  cases hbranch with
  | known _ _ _ _ hreasm _ ho => exact ⟨howed _ _ ho, hreasm ▸ h.buffer, hbox⟩
  | single _ _ _ _ hreasm ho => exact ⟨howed _ _ ho, hreasm ▸ h.buffer, hbox⟩
  | dropped _ _ => exact h
  | kept _ _ _ _ _ _ hreasm ho =>
    refine ⟨howed _ _ ho, ?_, hbox⟩
    intro r hr
    rw [hreasm, Table.get_set_ne _ (Ne.symm hne)] at hr
    exact h.buffer r (get_evictReasm hr)
  | finished _ _ _ _ _ _ hreasm ho =>
    refine ⟨howed _ _ ho, ?_, hbox⟩
    intro r hr
    rw [hreasm, Table.get_erase, if_neg (Ne.symm hne)] at hr
    exact h.buffer r (get_evictReasm hr)

/-- The buffer of a fragment that is not addressed to us wants what it wanted before. -/
theorem stored_wantAck (hbuffer : ∀ r, p.reasm.get f.seq = some r → r.wantAck = false) :
    (stored cfg p f now false).wantAck = false := by
  have hfor : (bufferFor (evictReasm p f.seq cfg.maxReasm) f now (false && f.wantsAck)).wantAck =
      false := by
    unfold bufferFor
    rw [get_evictReasm_self]
    cases hr : p.reasm.get f.seq with
    | none => rfl
    | some r =>
      simp only
      split_ifs
      · rfl
      · exact hbuffer r hr
  simp only [stored, storePart, hfor]
  rfl

theorem Silent.receiveFragment (h : Silent f.seq p) :
    Silent f.seq (receiveFragment cfg p f now false).1 := by
  have hwant := @stored_wantAck cfg p f now h.buffer
  have hsame := receiveFragment_outbox cfg p f now false
  refine ⟨?_, ?_, hsame.outbox ▸ h.outbox⟩
  all_goals
    obtain hr | ⟨-, hr⟩ | ⟨-, hr⟩ := receiveFragment_cases cfg p f now false
    all_goals rw [hr]
  · exact h.owed
  · exact h.owed
  · simp only [finishParts, hwant]
    exact h.owed
  · exact h.buffer
  · intro r hget
    rw [keepParts_reasm, Table.get_set_self] at hget
    exact Option.some.inj hget ▸ hwant
  · intro r hget
    rw [finishParts_reasm, Table.get_erase, if_pos rfl] at hget
    cases hget

theorem Silent.receiveMessage (h : Silent seq p) (ha : f.seq = seq → addressedToUs = false) :
    Silent seq (receiveMessage cfg p f now addressedToUs).1 := by
  by_cases hseq : f.seq = seq
  · subst hseq
    obtain rfl := ha rfl
    simp only [AircSession.receiveMessage, Bool.false_and, Bool.false_eq_true, if_false]
    split_ifs with hseen hhello htotal
    · exact h
    · exact h
    · exact ⟨h.owed, h.buffer, h.outbox⟩
    · exact h.receiveFragment
  · exact h.receiveMessage_ne hseq

theorem Silent.receive (h : Silent seq p)
    (ha : f.kind ≠ .ack → f.seq = seq → addressedToUs = false) :
    Silent seq (p.receive cfg f now addressedToUs).1 := by
  have hpiggy : Silent seq (p.piggybacked f) :=
    (h.helloReset f).same (applyPiggyback_inbox _ f) (AircSession.applyPiggyback_outbox _ f).1
  by_cases hk : f.kind = .ack
  · rw [receive_of_ack hk]
    cases parseAckPayload f.payload with
    | none => exact hpiggy
    | some ack => exact hpiggy.same (applyAck_inbox ..) (AircSession.applyAck_outbox _ ack.1 ack.2).1
  · rw [receive_of_message hk]
    exact hpiggy.receiveMessage (ha hk)

end

/-! ### Sending and timers -/

section

variable {cfg : SessionConfig} {seq : UInt16} {p q : Peer}

theorem piggybackSeq_fragments {kind : Kind} {number : UInt16} {reliable : Bool}
    {parts : List (List UInt8)} {f : AircFrame} (hf : f ∈ fragments kind number reliable parts) :
    f.piggybackSeq = none := by
  obtain ⟨i, hi, rfl⟩ := List.mem_mapIdx.mp hf
  rfl

/-- A new message takes along only an acknowledgement that was owed. -/
theorem Silent.enqueue (h : Silent seq p) (number : UInt16) (kind : Kind) (payload : List UInt8)
    (reliable : Bool) :
    Silent seq (p.enqueue cfg number kind payload reliable).1 ∧
    ∀ f ∈ (p.enqueue cfg number kind payload reliable).2.frames, f.piggybackSeq ≠ some seq := by
  obtain ⟨hseen, hreasm, howed, hpiggy⟩ :=
    ReliableDelivery.enqueue_inbox cfg p number kind payload reliable
  refine ⟨⟨?_, hreasm ▸ h.buffer, ?_⟩, ?_⟩
  · intro o ho
    rcases howed with hq | hq
    · exact h.owed o (hq ▸ ho)
    · rw [hq] at ho
      cases ho
  · intro frames hf
    have hnew : ∀ m ∈ fragments kind number reliable (p.parts cfg payload reliable),
        m.piggybackSeq = none := fun m hm => piggybackSeq_fragments hm
    obtain ⟨q, hr, -, hsame⟩ | ⟨-, ⟨-, hr⟩ | ⟨-, -, -, hr⟩ | ⟨-, -, hr⟩ | ⟨acked, -, -, -, hr⟩⟩ :=
      enqueue_cases cfg p number kind payload reliable
    · rw [hr, hsame.outbox] at hf
      exact h.outbox frames hf
    · rw [hr] at hf
      exact h.outbox frames hf
    · rw [hr] at hf
      simp only [Peer.outbox, List.mem_append, List.mem_singleton] at hf
      rcases hf with hf | hf | rfl
      · exact h.outbox frames (List.mem_append_left _ hf)
      · exact h.outbox frames (List.mem_append_right _ hf)
      · exact hnew
    all_goals
      rw [hr] at hf
      rcases List.mem_cons.mp hf with rfl | hf
      · exact hnew
      · exact h.outbox frames (List.mem_append_right _ hf)
  · intro f hf hs
    exact h.owed _ (hpiggy f hf seq hs) rfl

theorem Silent.afterTick {now : ℕ} (h : Silent seq p) (ht : AfterTick cfg now p q) :
    Silent seq q where
  owed := ht.owedAck ▸ h.owed
  buffer r hr := by
    rw [ht.reasm, expireReasm, Table.get_filterMap, Option.bind_eq_some_iff] at hr
    obtain ⟨r', hget, hkept⟩ := hr
    split_ifs at hkept
    exact Option.some.inj hkept ▸ h.buffer r' hget
  outbox frames hf := h.outbox frames (ht.advances.outbox frames hf)

theorem Silent.onKeyed (h : Silent seq p) (number : UInt16) (now : ℕ) :
    Silent seq (p.onKeyed cfg number now) :=
  h.same (onKeyed_inbox ..) (onKeyed_advances cfg p number now).outbox

/-- A frame of the outbox carries no acknowledgement of what was received. -/
theorem Silent.piggyback {f : AircFrame} (h : Silent seq p) (hf : FromOutbox p.outbox f) :
    f.piggybackSeq = none := by
  obtain ⟨frames, hm, g, hg, rfl | rfl⟩ := hf
  · exact h.outbox frames hm f hg
  · exact h.outbox frames hm g hg

theorem parseAckPayload_seq (seq : UInt16) (bits : List UInt8) :
    ∃ bitmap, parseAckPayload (toBeBytes seq ++ bits) = some (seq, bitmap) := by
  cases bits with
  | nil =>
    refine ⟨none, ?_⟩
    simp only [toBeBytes, List.append_nil, parseAckPayload, fromBeBytes_toBeBytes]
  | cons b bits =>
    refine ⟨some (b :: bits), ?_⟩
    simp only [toBeBytes, List.cons_append, List.nil_append, parseAckPayload, fromBeBytes_toBeBytes]

theorem not_acknowledges {f : AircFrame} {number : UInt16} {bits : List UInt8}
    (hf : f = ackWithBitmap number bits) (hne : number ≠ seq) : ¬ Acknowledges f seq := by
  subst hf
  rintro (hpiggy | ⟨-, bitmap, hparse⟩)
  · cases hpiggy
  · obtain ⟨bitmap', hparse'⟩ := parseAckPayload_seq number bits
    change parseAckPayload (toBeBytes number ++ bits) = _ at hparse
    rw [hparse'] at hparse
    exact hne (Prod.mk.inj (Option.some.inj hparse)).1

/-- What is owed is for another message. -/
theorem Silent.toFrame (h : Silent seq p) {o : OwedAck} (ho : p.owedAck = some o) :
    ¬ Acknowledges o.toFrame seq := by
  have hne := h.owed o ho
  unfold OwedAck.toFrame
  cases o.bitmap with
  | none =>
    have hempty : ackFor o.seq = ackWithBitmap o.seq [] := by simp [ackFor, ackWithBitmap]
    exact not_acknowledges hempty hne
  | some bits => exact not_acknowledges rfl hne

/-- Nothing is reported of a buffer that wants no acknowledgement. -/
theorem Silent.expired {now : ℕ} (h : Silent seq p) {f : AircFrame}
    (hf : f ∈ (expireReasm cfg p now).2) : ¬ Acknowledges f seq := by
  obtain ⟨⟨number, r⟩, he, rfl⟩ := List.mem_map.mp hf
  obtain ⟨hmem, hwant⟩ := List.mem_filter.mp he
  refine not_acknowledges rfl ?_
  rintro rfl
  have := h.buffer r (Table.mem_entries_iff.mp hmem)
  simp [this] at hwant

end

/-! ### All stations -/

section

variable {s : Sessions} {src : Callsign} {seq : UInt16}

theorem silent_of_peer {t : Sessions} (h : Silent seq (s.record src))
    (ht : t.peer src = s.peer src ∨ t.peer src = none) : Silent seq (t.record src) := by
  rcases ht with ht | ht
  · rw [Sessions.record_of_peer ht]
    exact h
  · rw [Sessions.record, ht]
    exact silent_blank seq 0

theorem silent_store {call : Callsign} {p : Peer} (h : Silent seq (s.record src))
    (hp : call = src → Silent seq p) : Silent seq ((s.store call p).record src) := by
  by_cases hc : src = call
  · subst hc
    rw [Sessions.record_store_self]
    exact hp rfl
  · rw [Sessions.record_store_ne _ hc]
    exact h

theorem silent_touched {call : Callsign} {now : ℕ} {p : Peer} (h : Silent seq (s.record src))
    (ht : s.touched call now = some p) (hc : call = src) : Silent seq p := by
  subst hc
  obtain ⟨hin, hout, -⟩ := Sessions.touched_same ht
  exact h.same hin fun frames hf => hout.outbox ▸ hf

theorem silent_touch (h : Silent seq (s.record src)) (call : Callsign) (now : ℕ) :
    Silent seq ((touch s call now).record src) := by
  unfold touch
  cases ht : s.touched call now with
  | none => exact h
  | some p => exact silent_store h fun hc => silent_touched h ht hc

theorem silent_evictPeer (h : Silent seq (s.record src)) (call : Callsign) :
    Silent seq ((s.evictPeer call).record src) :=
  silent_of_peer h ((s.evictPeer_peer call src).imp_right And.right)

theorem silent_apply (h : Silent seq (s.record src)) {e : Operation} (he : Overheard src seq s e) :
    Silent seq ((apply s e).record src) := by
  cases e with
  | touch call now => exact silent_touch h call now
  | forceTouch call now =>
    rw [apply, forceTouch]
    split_ifs
    · exact h
    · exact silent_touch (silent_evictPeer h call) call now
  | receive call f now addressedToUs =>
    obtain ⟨-, hr⟩ | ⟨p, ht, hr⟩ := s.onReceive_cases call f now addressedToUs
    · rw [apply, hr]
      exact h
    · rw [apply, hr]
      exact silent_store h fun hc => (silent_touched h ht hc).receive (he hc)
  | enqueue dst kind payload reliable now =>
    obtain ⟨t, -, hpeers, hr⟩ := s.enqueue_cases dst kind payload reliable now
    have ht := silent_of_peer h ((hpeers src).imp_right And.right)
    rcases hr with hr | ⟨p, hin, hout, hr⟩
    · rw [apply, hr]
      exact ht
    · rw [apply, hr]
      refine silent_store ht ?_
      rintro rfl
      have hp : Silent seq p := h.same hin fun frames hf => hout.outbox ▸ hf
      exact (hp.enqueue s.nextSeq kind payload reliable).1
  | tick now retry =>
    rw [apply, Sessions.record, Sessions.tickRetries_peer]
    rw [Sessions.record] at h
    cases hp : s.peer src with
    | none => exact silent_blank seq 0
    | some p =>
      rw [hp] at h
      rw [Option.bind_some]
      cases ht : (s.ticked now retry p).1 with
      | none => exact silent_blank seq 0
      | some q => exact Silent.afterTick h (ticked_after ht)
  | keyed dest number now =>
    rw [apply, Sessions.record, Sessions.onKeyed_peer]
    rw [Sessions.record] at h
    split_ifs
    · cases hp : s.peer src with
      | none => exact silent_blank seq 0
      | some p =>
        rw [hp] at h
        exact Silent.onKeyed h number now
    · exact h
  | drainAcks =>
    rw [apply, Sessions.record, Sessions.drainAcks_peer]
    rw [Sessions.record] at h
    cases hp : s.peer src with
    | none => exact silent_blank seq 0
    | some p =>
      rw [hp] at h
      exact ⟨fun o ho => absurd ho (Option.some_ne_none o).symm, h.buffer, h.outbox⟩
  | forget call =>
    refine silent_of_peer h ?_
    simp only [apply, Sessions.forget, Sessions.peer, Table.get_erase]
    split_ifs
    · exact .inr rfl
    · exact .inl rfl
  | markKicked call channel =>
    rw [apply, SessionTable.markKicked]
    cases hp : s.peer call with
    | none => exact h
    | some p =>
      refine silent_store h ?_
      rintro rfl
      rw [Sessions.record, hp] at h
      exact ⟨h.owed, h.buffer, h.outbox⟩
  | nextSeq => exact h

/-- Whatever goes out to the station carries no piggybacked acknowledgement of the message. -/
theorem handed_piggyback (h : Silent seq (s.record src)) (e : Operation) :
    ∀ f ∈ handed src s e, f.piggybackSeq ≠ some seq := by
  intro f hf
  cases e with
  | receive call g now addressedToUs =>
    simp only [handed] at hf
    split_ifs at hf with hc
    · obtain ⟨-, hr⟩ | ⟨p, ht, hr⟩ := s.onReceive_cases call g now addressedToUs
      · rw [hr] at hf
        exact absurd hf List.not_mem_nil
      · rw [hr] at hf
        have hp := silent_touched h ht hc
        rw [hp.piggyback ((AircSession.receive_outbox s.config p g now addressedToUs).2 f hf)]
        exact (Option.some_ne_none seq).symm
    · exact absurd hf List.not_mem_nil
  | enqueue dst kind payload reliable now =>
    simp only [handed] at hf
    split_ifs at hf with hc
    · subst hc
      obtain ⟨t, -, -, hr | ⟨p, hin, hout, hr⟩⟩ := s.enqueue_cases dst kind payload reliable now
      · rw [hr] at hf
        exact absurd hf List.not_mem_nil
      · rw [hr] at hf
        have hp : Silent seq p := h.same hin fun frames hm => hout.outbox ▸ hm
        exact (hp.enqueue s.nextSeq kind payload reliable).2 f hf
    · exact absurd hf List.not_mem_nil
  | tick now retry =>
    obtain ⟨p, hp, hfrom⟩ := Sessions.mem_tickRetries (mem_framesTo.mp hf)
    rw [Sessions.record, hp] at h
    rcases hfrom with hfrom | hreport
    · rw [Silent.piggyback h hfrom]
      exact (Option.some_ne_none seq).symm
    · exact fun hs => h.expired hreport (.inl hs)
  | drainAcks =>
    obtain ⟨p, o, hp, ho, rfl⟩ := Sessions.mem_drainAcks (mem_framesTo.mp hf)
    rw [Sessions.record, hp] at h
    exact fun hs => Silent.toFrame h ho (.inl hs)
  | _ => exact absurd hf List.not_mem_nil

end

/-- A message of a station of which no frame was addressed to us is acknowledged neither by what
is owed, nor on a message of ours, nor by a report about its parts. -/
theorem broadcasts_not_acknowledged (cfg : SessionConfig) (src : Callsign) (seq : UInt16)
    {s : Sessions} (h : Reachable (system cfg) (Overheard src seq) s) :
    (∀ f, (src, f) ∈ s.drainAcks.2 → ¬ Acknowledges f seq) ∧
    (∀ e, ∀ f ∈ handed src s e, f.piggybackSeq ≠ some seq) ∧
    ∀ now retry f, (src, f) ∈ (s.tickRetries now retry).2.transmit →
      FromOutbox (s.record src).outbox f ∨ ¬ Acknowledges f seq := by
  have hinv : Inductive (system cfg) (Overheard src seq) fun s => Silent seq (s.record src) := by
    refine .ofNext ?_ ?_
    · rintro s rfl
      exact silent_blank seq 0
    · intro s e hs he _
      exact silent_apply hs he
  have hsilent := hinv.reachable h
  refine ⟨?_, handed_piggyback hsilent, ?_⟩
  · intro f hf
    obtain ⟨p, o, hp, ho, rfl⟩ := Sessions.mem_drainAcks hf
    rw [Sessions.record, hp] at hsilent
    exact Silent.toFrame hsilent ho
  · intro now retry f hf
    obtain ⟨p, hp, hfrom⟩ := Sessions.mem_tickRetries hf
    rw [Sessions.record, hp] at hsilent ⊢
    exact hfrom.imp_right fun hreport => Silent.expired hsilent hreport

/-! ### A broadcast in two parts between two questions -/

instance (src : Callsign) (seq : UInt16) : ∀ (s : Sessions) (e : Operation),
    Decidable (Overheard src seq s e)
  | _, .receive call f _ addressedToUs => inferInstanceAs
    (Decidable (call = src → f.kind ≠ .ack → f.seq = seq → addressedToUs = false))
  | _, .touch .. | _, .forceTouch .. | _, .enqueue .. | _, .tick .. | _, .keyed .. | _, .drainAcks
  | _, .forget .. | _, .markKicked .. | _, .nextSeq => inferInstanceAs (Decidable True)

def wanted (f : AircFrame) : AircFrame := f.withFlags (Flags.ackReq ||| Flags.retry)

/-- Message 9 is broadcast and asks for an acknowledgement, message 8 is for us. -/
def conversation : List Operation :=
  [.receive asker (wanted (lastPart 9)) 0 false, .receive asker (wanted (lastPart 8)) 1 true,
    .receive asker (wanted (lastPart 9)) 2 false]

def overheard : Sessions := conversation.foldl apply (Sessions.new .default)

theorem broadcasts_not_acknowledged_overheard :
    (overheard.drainAcks.2.map Prod.snd).length = 1 ∧
    ((overheard.tickRetries (secs 61) true).2.transmit.map Prod.snd).length = 1 ∧
    (∀ f, (asker, f) ∈ overheard.drainAcks.2 → ¬ Acknowledges f 9) ∧
    ∀ f, (asker, f) ∈ (overheard.tickRetries (secs 61) true).2.transmit →
      FromOutbox (overheard.record asker).outbox f ∨ ¬ Acknowledges f 9 := by
  have hinitial : Reachable (system .default) (Overheard asker 9) (.new .default) :=
    Reachable.initial rfl
  have hruns : Runs (Overheard asker 9) Enabled apply (.new .default) conversation := by
    decide +kernel
  obtain ⟨hdrain, -, htick⟩ := broadcasts_not_acknowledged .default asker 9 (hinitial.run hruns)
  exact ⟨by decide +kernel, by decide +kernel, hdrain, htick (secs 61) true⟩

end BroadcastAcks
