import Rfircd.AtMostOnce
import Rfircd.OutletSteps
import Rfircd.RadioSteps

/-! What the operations on the radio do to the table of stations.
Each is a sequence of the changes below, so what they keep, every operation keeps. -/
namespace RadioSessions

open Basics Ax25 Airc AircSession KeyedTable RadioGateway RadioGateway.Gateway AirTrace AtMostOnce
open ServerOutput

/-- What the licence has to say about a change of the records. -/
def Allowed (A : OutletLicence) : Other → Prop
  | .heard src f _ _ => A.received src f
  | .tick _ _ => A.sweeps
  | .forget _ => False
  | _ => True

/-- A change of the records, under the licence of the operation that makes it. -/
inductive Entry (A : OutletLicence) : Sessions → Sessions → Prop where
  | drew {s t} : Drew s t → Entry A s t
  | other {s} {e : Other} : Allowed A e → Entry A s (e.apply s)
  /-- A station is noted to be there, or something about it. -/
  | note {s call p} : p.reasm = (s.record call).reasm → Entry A s (s.store call p)
  | taken {s} : A.sweeps → Entry A s { s with evicted := [] }

abbrev Entries (A : OutletLicence) : Sessions → Sessions → Prop := Relation.ReflTransGen (Entry A)

/-- A change of the table. -/
inductive Change (A : OutletLicence) : Sessions → Sessions → Prop where
  | entry {s t} : Entry A s t → Change A s t
  | ban {s call} : Change A s (s.ban call)
  | liftBan {s call} : A.station call → Change A s (s.liftBan call)
  | forget {s call} : Change A s (s.forget call)

abbrev Changes (A : OutletLicence) : Sessions → Sessions → Prop := Relation.ReflTransGen (Change A)

variable {A : OutletLicence} {s t : Sessions}

/-! ### Operations -/

theorem queuing_entries {g g' : Gateway} (h : Queuing g g') :
    Entries A g.radio.sessions g'.radio.sessions := by
  obtain ⟨added, h⟩ := h
  exact .single (.drew h.sessions)

theorem identifies_entries {g g' : Gateway} (h : Identifies g g' ∨ Queues 0 g g') :
    Entries A g.radio.sessions g'.radio.sessions :=
  .single (.drew (h.elim (·.sessions) (·.sessions)))

theorem record_of_some {call : Callsign} {p : Peer} (h : s.peer call = some p) : s.record call = p := by
  rw [Sessions.record, h]
  rfl

theorem noteAirc_entries (s : Sessions) (dst : Callsign) : Entries A s (noteAirc s dst) := by
  unfold noteAirc
  split
  · exact .refl
  · rename_i p hp
    refine .single (.note ?_)
    rw [record_of_some hp]
    rfl

theorem unicast_entries (g : Gateway) (dst : Callsign) (m : Addressed) (now : ℕ) :
    Entries A g.radio.sessions (AirTrace.perform g (.unicast dst m now)).radio.sessions := by
  have hsent : Entry A g.radio.sessions
      (g.radio.sessions.enqueue dst m.kind (m.payload dst) m.reliable now).1 :=
    .other (e := .enqueue dst m.kind (m.payload dst) m.reliable now) trivial
  simp only [AirTrace.perform]
  rcases g.unicastFlagged_cases dst m.kind (m.payload dst) m.reliable m.cls m.flags now with
    ⟨g', hg, hsame⟩ | ⟨-, -, -, -, ⟨-, hg⟩ | ⟨-, hg⟩⟩
  · rw [hg]
    exact .single (.drew hsame.sessions)
  · rw [hg]
    exact .single hsent
  · rw [hg, transmitAll_sessions]
    exact (Relation.ReflTransGen.single hsent).trans (noteAirc_entries ..)

theorem drainKeyed_entries (keyed : List Keyed) (s : Sessions) (now : ℕ) :
    Entries A s (keyed.foldl (fun s k => s.onKeyed k.dest k.seq now) s) := by
  induction keyed generalizing s with
  | nil => exact .refl
  | cons k keyed ih =>
    have hone : Entry A s (s.onKeyed k.dest k.seq now) :=
      .other (e := .keyed k.dest k.seq now) trivial
    exact (Relation.ReflTransGen.single hone).trans (ih _)

theorem note_reasm (p : Peer) (n : PeerNote) : (n.apply p).reasm = p.reasm := by
  cases n with
  | aprs =>
    rw [PeerNote.apply, Peer.noteAprs]
    split_ifs <;> rfl
  | _ => rfl

/-- Only the control operator removes a station, and only the station itself comes back. -/
theorem perform_entries {op : RadioOp} (h : A.MayPerform op) (g : Gateway)
    (hban : ∀ call, op ≠ .ban call) (hlift : ∀ call, op ≠ .liftBan call) :
    Entries A g.radio.sessions (AirTrace.perform g op).radio.sessions := by
  cases op with
  | broadcast b => exact queuing_entries (g.broadcastFlagged_queuing ..)
  | unicast dst m now => exact unicast_entries g dst m now
  | aprsChat dst body channel now => exact queuing_entries (g.enqueueAprsChat_queuing ..)
  | aprsAck dst msgid => exact queuing_entries (g.enqueueUi_queuing ..)
  | aprsRej dst msgid => exact queuing_entries (g.enqueueUi_queuing ..)
  | aprsReply dst text => exact queuing_entries (g.enqueueUi_queuing ..)
  | receive src f now forUs =>
    simp only [AirTrace.perform, Gateway.onReceive]
    rw [transmitAll_sessions]
    exact .single (.other (e := .heard src f now forUs) h)
  | drainAcks =>
    simp only [AirTrace.perform, Gateway.drainAcks]
    rw [transmitAll_sessions]
    exact .single (.other (e := .drainAcks) trivial)
  | aprsAnswered src id now => exact queuing_entries (g.onAprsAck_queuing ..)
  | touch call now =>
    simp only [AirTrace.perform]
    split
    · exact .refl
    · rename_i p hp
      exact .single (.note (Sessions.touched_same hp).1.reasm)
  | note call n =>
    simp only [AirTrace.perform]
    split
    · exact .refl
    · rename_i p hp
      refine .single (.note ?_)
      rw [record_of_some hp]
      exact note_reasm p n
  | ban call => exact absurd rfl (hban call)
  | liftBan call => exact absurd rfl (hlift call)
  | forget call => exact h.elim
  | takeEvicted => exact .single (.taken h)
  | refuse => exact .refl
  | drainKeyed now => exact drainKeyed_entries g.keyed g.radio.sessions now
  | tickSessions now =>
    simp only [AirTrace.perform, Gateway.tickSessions]
    rw [transmitAll_sessions]
    exact .single (.other (e := .tick now _) h)
  | tickAprs now => exact queuing_entries (g.tickAprs_queuing now)
  | maybeIdentify now => exact identifies_entries (g.maybeIdentify_cases now)
  | idIfNeeded now => exact identifies_entries (g.idIfNeeded_cases now)
  | identifyNow now => exact identifies_entries (g.identifyNow_cases now)
  | radioOff now => exact identifies_entries (g.radioOff_cases now)
  | radioOn => exact queuing_entries ⟨0, g.radioOn_queues⟩
  | limitDuty percent =>
    simp only [AirTrace.perform, overrideWith]
    split_ifs <;> exact .refl
  | limitPacing ms =>
    simp only [AirTrace.perform, overrideWith]
    split_ifs <;> exact .refl
  | pump e => exact .refl

theorem perform_changes {op : RadioOp} (h : A.MayPerform op) (g : Gateway) :
    Changes A g.radio.sessions (AirTrace.perform g op).radio.sessions := by
  by_cases hban : ∃ call, op = .ban call
  · obtain ⟨call, rfl⟩ := hban
    exact .single .ban
  by_cases hlift : ∃ call, op = .liftBan call
  · obtain ⟨call, rfl⟩ := hlift
    exact .single (.liftBan h)
  have hentries := perform_entries h g (fun call heq => hban ⟨call, heq⟩)
    fun call heq => hlift ⟨call, heq⟩
  exact Relation.ReflTransGen.mono (fun _ _ => Change.entry) _ _ hentries

/-! ### What they keep -/

theorem other_radioKicked (s : Sessions) (e : Other) : (e.apply s).radioKicked = s.radioKicked := by
  have hevict : ∀ (s : Sessions) call, (s.evictPeer call).radioKicked = s.radioKicked := by
    intro s call
    unfold Sessions.evictPeer
    split_ifs
    · split <;> rfl
    · rfl
  cases e with
  | heard call f now addressedToUs =>
    obtain ⟨-, h⟩ | ⟨p, -, h⟩ := Sessions.onReceive_cases s call f now addressedToUs
    · rw [Other.apply, h]
    · rw [Other.apply, h]
      rfl
  | heardAprs call now =>
    rw [Other.apply]
    split <;> rfl
  | enqueue dst kind payload reliable now =>
    simp only [Other.apply, Sessions.enqueue]
    split_ifs
    · rfl
    · split <;> exact hevict s.drawSeq.2 dst
  | drainAcks => rfl
  | tick now retry => rfl
  | keyed dest seq now =>
    rw [Other.apply, Sessions.onKeyed]
    split <;> rfl
  | forget call => rfl

theorem Entry.radioKicked (h : Entry A s t) : t.radioKicked = s.radioKicked := by
  cases h with
  | drew hdrew => exact hdrew.radioKicked
  | other _ => exact other_radioKicked ..
  | note _ => rfl
  | taken _ => rfl

theorem perform_radioKicked {op : RadioOp} (g : Gateway) (hban : ∀ call, op ≠ .ban call)
    (hlift : ∀ call, op ≠ .liftBan call) :
    (AirTrace.perform g op).radio.sessions.radioKicked = g.radio.sessions.radioKicked := by
  let anything : OutletLicence := .free
  have hkept : ∀ {s t : Sessions}, Entries anything s t → t.radioKicked = s.radioKicked := by
    intro s t hentries
    induction hentries with
    | refl => rfl
    | tail _ hentry ih => exact hentry.radioKicked.trans ih
  by_cases hforget : ∃ call, op = .forget call
  · obtain ⟨call, rfl⟩ := hforget
    rfl
  · have hmay : anything.MayPerform op := by
      cases op with
      | forget call => exact absurd ⟨call, rfl⟩ hforget
      | note call n => cases n <;> trivial
      | _ => trivial
    exact hkept (perform_entries hmay g hban hlift)

/-! ### Who has a record -/

/-- Operations that let go of no record, and leave the bans and the marks of kicks alone. -/
def Attends : RadioOp → Prop
  | .note _ (.joined _) => False
  | .receive .. | .touch .. | .note .. | .aprsAck .. | .aprsRej .. => True
  | _ => False

theorem store_present {call other : Callsign} (p : Peer) (h : (s.peer call).isSome = true) :
    ((s.store other p).peer call).isSome = true := by
  rw [Sessions.peer_store]
  split_ifs
  · rfl
  · exact h

theorem perform_present {op : RadioOp} (hop : Attends op) {g : Gateway} {call : Callsign}
    (h : (g.radio.sessions.peer call).isSome = true) :
    ((AirTrace.perform g op).radio.sessions.peer call).isSome = true := by
  cases op with
  | receive src f now forUs =>
    simp only [AirTrace.perform, Gateway.onReceive]
    rw [transmitAll_sessions]
    obtain ⟨-, heq⟩ | ⟨p, -, heq⟩ := Sessions.onReceive_cases g.radio.sessions src f now forUs
    · rwa [heq]
    · rw [heq]
      exact store_present _ h
  | touch other now =>
    simp only [AirTrace.perform]
    split
    · exact h
    · exact store_present _ h
  | note other n =>
    simp only [AirTrace.perform]
    split
    · exact h
    · exact store_present _ h
  | aprsAck dst msgid =>
    rw [AirTrace.perform, Gateway.transmitUi, enqueueUi_sessions]
    exact h
  | aprsRej dst msgid =>
    rw [AirTrace.perform, Gateway.transmitUi, enqueueUi_sessions]
    exact h
  | _ => exact hop.elim

/-- Who had a record has one, or was evicted. -/
structure Retains (s t : Sessions) : Prop where
  peer : ∀ call, (s.peer call).isSome = true → (t.peer call).isSome = true ∨ call ∈ t.evicted
  evicted : ∀ call ∈ s.evicted, call ∈ t.evicted

theorem Retains.refl (s : Sessions) : Retains s s := ⟨fun _ => .inl, fun _ => id⟩

theorem Retains.trans {r : Sessions} (h : Retains s t) (h' : Retains t r) : Retains s r where
  peer call hs := (h.peer call hs).elim (h'.peer call) fun ht => .inr (h'.evicted call ht)
  evicted call hs := h'.evicted call (h.evicted call hs)

theorem store_retains (s : Sessions) (call : Callsign) (p : Peer) : Retains s (s.store call p) :=
  ⟨fun _ h => .inl (store_present p h), fun _ => id⟩

theorem evictPeer_retains (s : Sessions) (call : Callsign) : Retains s (s.evictPeer call) := by
  unfold Sessions.evictPeer
  split_ifs
  · split
    · rename_i oldest _
      refine ⟨fun j hj => ?_, fun j hj => List.mem_append_left _ hj⟩
      by_cases hold : j = oldest
      · exact .inr (List.mem_append_right _ (List.mem_singleton.mpr hold))
      · left
        rw [Sessions.peer, Table.get_erase, if_neg hold]
        exact hj
    · exact .refl s
  · exact .refl s

theorem enqueue_retains (s : Sessions) (dst : Callsign) (kind : Kind) (payload : List UInt8)
    (reliable : Bool) (now : ℕ) : Retains s (s.enqueue dst kind payload reliable now).1 := by
  have hdrew : Retains s s.drawSeq.2 := ⟨fun _ => .inl, fun _ => id⟩
  have hevicted := hdrew.trans (evictPeer_retains s.drawSeq.2 dst)
  unfold Sessions.enqueue
  dsimp only
  split_ifs
  · exact hdrew
  · split
    · exact hevicted
    · exact hevicted.trans (store_retains ..)

/-- Nothing but time and the server takes a record away. -/
theorem Entry.retains (h : Entry A s t) (hsweeps : ¬ A.sweeps) : Retains s t := by
  cases h with
  | drew hdrew =>
    obtain ⟨seq, rfl⟩ := hdrew
    exact ⟨fun _ => .inl, fun _ => id⟩
  | @other e he =>
    cases e with
    | heard src f now forUs =>
      obtain ⟨-, heq⟩ | ⟨p, -, heq⟩ := Sessions.onReceive_cases s src f now forUs
      · rw [Other.apply, heq]
        exact .refl s
      · rw [Other.apply, heq]
        exact store_retains ..
    | heardAprs src now =>
      rw [Other.apply]
      split
      · exact store_retains ..
      · exact .refl s
    | enqueue dst kind payload reliable now => exact enqueue_retains ..
    | drainAcks =>
      refine ⟨fun call hcall => .inl ?_, fun _ => id⟩
      rw [Other.apply, Sessions.drainAcks_peer, Option.isSome_map]
      exact hcall
    | keyed dest seq now =>
      rw [Other.apply, Sessions.onKeyed]
      split
      · exact .refl s
      · exact store_retains ..
    | tick now retry => exact absurd he hsweeps
    | forget call => exact he.elim
  | note _ => exact store_retains ..
  | taken h => exact absurd h hsweeps

theorem entries_retains (h : Entries A s t) (hsweeps : ¬ A.sweeps) : Retains s t := by
  induction h with
  | refl => exact .refl _
  | tail _ hentry ih => exact ih.trans (hentry.retains hsweeps)

/-! ### Bans -/

/-- A station that was removed stays so until it is let in again. -/
theorem Change.banned (h : Change A s t) {src : Callsign} (hout : ¬ A.station src)
    (hs : s.isBanned src = true) : t.isBanned src = true := by
  unfold Sessions.isBanned at hs ⊢
  rw [decide_eq_true_eq] at hs ⊢
  cases h with
  | entry hentry => rwa [hentry.radioKicked]
  | @ban call =>
    by_cases hsrc : src = call
    · exact hsrc ▸ List.mem_cons_self
    · exact List.mem_cons_of_mem _ (List.mem_filter.mpr ⟨hs, by simpa using hsrc⟩)
  | @liftBan call hcall =>
    refine List.mem_filter.mpr ⟨hs, ?_⟩
    have hne : src ≠ call := by
      rintro rfl
      exact hout hcall
    simpa using hne
  | forget => exact hs

theorem changes_banned (h : Changes A s t) {src : Callsign} (hout : ¬ A.station src)
    (hs : s.isBanned src = true) : t.isBanned src = true := by
  induction h with
  | refl => exact hs
  | tail _ hchange ih => exact hchange.banned hout ih

/-! ### Buffers -/

/-- Every message that is half received has the property. -/
def BuffersHold (Q : UInt16 → Reassembly → Prop) (p : Peer) : Prop :=
  ∀ seq r, p.reasm.get seq = some r → Q seq r

/-- A frame keeps the property: the buffer that it goes to has it afterwards. -/
def StoresAs (Q : UInt16 → Reassembly → Prop) (f : AircFrame) : Prop :=
  f.kind ≠ .ack → ∀ cfg p now forUs, BuffersHold Q p → Q f.seq (stored cfg p f now forUs)

variable {Q : UInt16 → Reassembly → Prop} {src : Callsign} {f : AircFrame}

theorem BuffersHold.fade {p q : Peer} (h : BuffersHold Q p)
    (hfade : ∀ seq r, q.reasm.get seq = some r → p.reasm.get seq = some r) : BuffersHold Q q :=
  fun seq r hr => h seq r (hfade seq r hr)

theorem BuffersHold.evict {p : Peer} (h : BuffersHold Q p) (seq : UInt16) (maxReasm : ℕ) (k : UInt16)
    (r : Reassembly) (hr : (evictReasm p seq maxReasm).get k = some r) : Q k r := by
  unfold evictReasm at hr
  split_ifs at hr
  · split at hr
    · rw [Table.get_erase] at hr
      split_ifs at hr
      exact h k r hr
    · exact h k r hr
  · exact h k r hr

theorem helloReset_hold {p : Peer} (h : BuffersHold Q p) (f : AircFrame) :
    BuffersHold Q (helloReset p.noteAirc f) := by
  unfold helloReset
  split_ifs
  · intro seq r hr
    simp at hr
  · exact h

/-- What a frame is handed over as: itself, or the message of its buffer. -/
def HandedOver (Q : UInt16 → Reassembly → Prop) (f msg : AircFrame) : Prop :=
  (msg = f ∧ f.kind ≠ .ack ∧ (f.kind = .hello ∨ f.fragTotal = 1)) ∨
    ∃ r, Q f.seq r ∧ r.complete = true ∧ msg = r.message f.seq

theorem receive_hold {p : Peer} (hp : BuffersHold Q p) (hf : StoresAs Q f) (cfg : SessionConfig)
    (now : ℕ) (forUs : Bool) : BuffersHold Q (p.receive cfg f now forUs).1 ∧
      ∀ msg, (p.receive cfg f now forUs).2.deliver = some msg → HandedOver Q f msg := by
  have hreset : BuffersHold Q (helloReset p.noteAirc f) := helloReset_hold hp f
  rcases @receive_memory cfg p f now forUs with
    ⟨-, hnone, hsame | ⟨hkind, hset⟩⟩ | ⟨-, hsame, -, hhello, hmsg⟩ |
      ⟨hkind, -, -, ⟨htotal, hmsg, hsame⟩ | ⟨hcomplete, hmsg, herase⟩⟩
  · exact ⟨hreset.fade fun seq r hr => hsame ▸ hr, fun msg hm => by rw [hnone] at hm; cases hm⟩
  · refine ⟨fun seq r hr => ?_, fun msg hm => by rw [hnone] at hm; cases hm⟩
    rw [hset, Table.get_set] at hr
    split_ifs at hr with hseq
    · obtain rfl := Option.some.inj hr
      exact hseq ▸ hf hkind cfg _ now forUs hreset
    · exact hreset.evict _ _ seq r hr
  · refine ⟨hreset.fade fun seq r hr => hsame ▸ hr, fun msg hm => .inl ⟨?_, ?_, .inl hhello⟩⟩
    · exact (Option.some.inj (hmsg.symm.trans hm)).symm
    · simp [hhello]
  · refine ⟨hreset.fade fun seq r hr => hsame ▸ hr, fun msg hm => .inl ⟨?_, hkind, .inr htotal⟩⟩
    exact (Option.some.inj (hmsg.symm.trans hm)).symm
  · refine ⟨fun seq r hr => ?_, fun msg hm => .inr ⟨_, hf hkind cfg _ now forUs hreset, hcomplete, ?_⟩⟩
    · rw [herase, Table.get_erase] at hr
      split_ifs at hr
      exact hreset.evict _ _ seq r hr
    · exact (Option.some.inj (hmsg.symm.trans hm)).symm

theorem record_new_hold (now : ℕ) : BuffersHold Q (Peer.new now) :=
  fun seq r hr => by simp [Peer.new] at hr

theorem onReceive_hold (hs : BuffersHold Q (s.record src)) (hf : StoresAs Q f) (now : ℕ)
    (forUs : Bool) : BuffersHold Q ((s.onReceive src f now forUs).1.record src) ∧
      ∀ msg, (s.onReceive src f now forUs).2.deliver = some msg → HandedOver Q f msg := by
  obtain ⟨-, h⟩ | ⟨p, hp, h⟩ := Sessions.onReceive_cases s src f now forUs
  · rw [h]
    exact ⟨hs, fun msg hm => by cases hm⟩
  · rw [h, Sessions.record_store_self]
    have hold : BuffersHold Q p := hs.fade fun seq r hr =>
      (Sessions.touched_same hp).1.reasm ▸ hr
    exact receive_hold hold hf s.config now forUs

/-- Nothing but the frames of a station adds to its buffers. -/
theorem Entry.hold (h : Entry A s t) (hframes : ∀ f, A.received src f → StoresAs Q f)
    (hs : BuffersHold Q (s.record src)) : BuffersHold Q (t.record src) := by
  cases h with
  | drew hdrew =>
    have hsame : t.record src = s.record src := Sessions.record_of_peer (by
      rw [Sessions.peer, hdrew.peers]
      rfl)
    rwa [hsame]
  | @other e he =>
    by_cases hown : ∃ f now forUs, e = .heard src f now forUs
    · obtain ⟨f, now, forUs, rfl⟩ := hown
      exact (onReceive_hold hs (hframes f he) now forUs).1
    · have hother : ∀ call f now forUs, e = .heard call f now forUs → call ≠ src := by
        rintro call f now forUs heq rfl
        exact hown ⟨f, now, forUs, heq⟩
      rcases other_fades s e hother with hgone | hfades
      · rw [Sessions.record, hgone]
        exact record_new_hold 0
      · exact hs.fade hfades.reasm
  | @note call p hp =>
    by_cases hcall : src = call
    · subst hcall
      rw [Sessions.record_store_self]
      exact hs.fade fun seq r hr => hp ▸ hr
    · rwa [Sessions.record_store_ne s hcall]
  | taken _ => exact hs

theorem Change.hold (h : Change A s t) (hframes : ∀ f, A.received src f → StoresAs Q f)
    (hs : BuffersHold Q (s.record src)) : BuffersHold Q (t.record src) := by
  cases h with
  | entry hentry => exact hentry.hold hframes hs
  | ban => exact hs
  | liftBan _ => exact hs
  | @forget call =>
    rcases other_fades s (.forget call) (fun _ _ _ _ h => by cases h) with hgone | hfades
    · rw [Sessions.record, show (s.forget call).peer src = none from hgone]
      exact record_new_hold 0
    · exact hs.fade hfades.reasm

theorem changes_hold (h : Changes A s t) (hframes : ∀ f, A.received src f → StoresAs Q f)
    (hs : BuffersHold Q (s.record src)) : BuffersHold Q (t.record src) := by
  induction h with
  | refl => exact hs
  | tail _ hchange ih => exact hchange.hold hframes ih

end RadioSessions
