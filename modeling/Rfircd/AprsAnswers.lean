import Rfircd.StationExpiry
import Rfircd.TwoGateways

/-! Messages of APRS radios with a number.
Each one that is let through is answered once, and a copy of one that was taken in is taken in again
only after its time, or when too many others came after it. -/
namespace AprsAnswers

open Basics Ax25 AircSession KeyedTable MessageText HostKey AprsCodec AirTrace AirPolicy RadioGateway
open ServerOutput ServerCore ServerCore.Server Bridge ServerSteps ServerInvariants ServerRuns
open TransitionSystem TwoGateways

variable {L : Licence} {s t r : Server} {m : Moment} {src : Callsign} {msg : AprsMessage} {id : Text}
  {verifies : Text → Text → Prop} {reader : BeaconReader}

/-! ### Answers -/

/-- Whom an operation answers, and under which number. -/
def answerOf : RadioOp → Option (Callsign × Text)
  | .aprsAck dst id | .aprsRej dst id => some (dst, id)
  | _ => none

/-- The answers that the gateway has handed to its transmit path in between, in order. -/
def Answers (answers : List (Callsign × Text)) (s t : Server) : Prop :=
  ∃ ops, t.outlet.air.performed = s.outlet.air.performed ++ ops ∧
    ops.filterMap answerOf = answers

theorem Answers.refl (s : Server) : Answers [] s s := ⟨[], by simp, rfl⟩

theorem Answers.trans {before after : List (Callsign × Text)} (h : Answers before s t)
    (h' : Answers after t r) : Answers (before ++ after) s r := by
  obtain ⟨ops, hops, hanswers⟩ := h
  obtain ⟨ops', hops', hanswers'⟩ := h'
  refine ⟨ops ++ ops', ?_, ?_⟩
  · rw [hops', hops, List.append_assoc]
  · rw [List.filterMap_append, hanswers, hanswers']

theorem perform_answers (s : Server) (op : RadioOp) : Answers (answerOf op).toList s (s.perform op) := by
  refine ⟨[op], rfl, ?_⟩
  cases h : answerOf op <;> simp [h]

/-- A licence for everything but answers. -/
def mute : Licence := { anything with answers := fun _ _ => False }

theorem mute_recording : Recording mute :=
  ⟨fun _ _ => trivial, fun _ => trivial, fun _ => trivial, fun _ => trivial, fun _ => trivial⟩

theorem outletStep_mute {o o' : Outlet} (hstep : OutletStep mute.toOutletLicence o o') :
    ∃ ops, o'.air.performed = o.air.performed ++ ops ∧ ops.filterMap answerOf = [] := by
  cases hstep with
  | book hcore =>
    have hair : o'.air = o.air := congrArg Core.air hcore
    exact ⟨[], by rw [hair, List.append_nil], rfl⟩
  | @radio op hop =>
    refine ⟨[op], rfl, ?_⟩
    cases op with
    | aprsAck _ _ | aprsRej _ _ => exact hop.elim
    | _ => rfl
  | _ => exact ⟨[], (List.append_nil _).symm, rfl⟩

theorem step_mute (hstep : Step mute s t) : Answers [] s t := by
  rcases step_outlet hstep with hsame | hstep | ⟨call, -, hforgotten⟩
  · exact ⟨[], by rw [hsame, List.append_nil], rfl⟩
  · exact outletStep_mute hstep
  · exact ⟨[.forget call], by rw [hforgotten]; rfl, rfl⟩

theorem steps_mute (hsteps : Steps mute s t) : Answers [] s t := by
  induction hsteps with
  | refl => exact .refl s
  | tail _ hstep ih => exact ih.trans (step_mute hstep)

/-- Every end of a message with a number is one answer to it. -/
theorem ends_answers (h : Ends mute src msg s t) (hid : msg.msgid = some id) :
    Answers [(src, id)] s t := by
  cases h with
  | @ack u hsteps =>
    rw [aprsAck, hid]
    exact (steps_mute hsteps).trans (perform_answers u (.aprsAck src id))
  | @refuse u reply hsteps =>
    rw [aprsRefuse, aprsAck, hid]
    have hanswered := (steps_mute hsteps).trans (perform_answers u (.aprsAck src id))
    exact hanswered.trans (perform_answers _ (.aprsReply src reply))
  | @reject u hsteps =>
    rw [aprsRejOrAck, hid]
    exact (steps_mute hsteps).trans (perform_answers u (.aprsRej src id))

/-- In any state: a message that passes the tests is answered once, and nobody else is answered. -/
theorem message_answered {f : Ax25Frame} (hheard : heard s.cfg reader f = .aprs msg)
    (hid : msg.msgid = some id) (hpasses : Passes s m f.source.call msg) :
    Answers [(f.source.call, id)] s (s.next reader (m, .rf f)) := by
  have hhandled : Ends mute f.source.call msg (UnacceptableSources.counted s)
      ((UnacceptableSources.counted s).handleAprsMessage m f.source.call msg) :=
    handleAprsMessage_ends hpasses trivial (mute_recording.aprs fun _ => trivial) fun _ _ => trivial
  have hnext : s.next reader (m, .rf f) =
      ((UnacceptableSources.counted s).handleAprsMessage m f.source.call msg).reapEvictedPeers m := by
    change (s.handleRfFrame reader m f).reapEvictedPeers m = _
    rw [UnacceptableSources.handleRfFrame_eq, hheard]
  rw [hnext]
  have hanswered := ends_answers hhandled hid
  exact hanswered.trans (steps_mute (reapEvictedPeers_steps _ m trivial))

/-! ### Messages that are not taken in -/

/-- Operations that put a text on the air. -/
def Sends : RadioOp → Prop
  | .broadcast _ | .unicast .. | .aprsChat .. => True
  | _ => False

/-- Nobody gets to see the message: no user, no channel and no station. -/
structure Undelivered (s t : Server) : Prop extends SaysNothing s t where
  unsent : ∃ ops, t.outlet.air.performed = s.outlet.air.performed ++ ops ∧ ∀ op ∈ ops, ¬ Sends op

/-- A station is heard, and it speaks APRS. -/
def Hears : RadioOp → Prop
  | .touch .. | .note _ .aprs => True
  | _ => False

/-- What is done for a message that is not taken in. -/
def Quiet (op : RadioOp) : Prop := Slight op ∨ Hears op ∨ (answerOf op).isSome = true

/-- A limit counts, a record may be kept, and the message may be answered. -/
def Discards (s t : Server) : Prop :=
  ∃ p ops, t = List.foldl Server.perform (s.withPolicy p) ops ∧ ∀ op ∈ ops, Quiet op

theorem Discards.perform {op : RadioOp} (h : Discards s t) (hop : Quiet op) :
    Discards s (t.perform op) := by
  obtain ⟨p, ops, rfl, hquiet⟩ := h
  refine ⟨p, ops ++ [op], by rw [List.foldl_append]; rfl, fun o ho => ?_⟩
  rcases List.mem_append.mp ho with ho | ho
  · exact hquiet o ho
  · exact List.mem_singleton.mp ho ▸ hop

theorem quiet_evicted {op : RadioOp} (h : Quiet op) (g : Gateway) :
    (AirTrace.perform g op).radio.sessions.evicted = g.radio.sessions.evicted := by
  have hqueued : ∀ {g' : Gateway}, RadioGateway.Queuing g g' →
      g'.radio.sessions.evicted = g.radio.sessions.evicted := by
    rintro g' ⟨added, hqueues⟩
    obtain ⟨seq, hseq⟩ := hqueues.sessions
    rw [hseq]
  cases op with
  | touch _ _ | note _ _ =>
    simp only [AirTrace.perform]
    split <;> rfl
  | aprsAck _ _ | aprsRej _ _ => exact hqueued (g.enqueueUi_queuing ..)
  | aprsAnswered _ _ _ => exact hqueued (g.onAprsAck_queuing ..)
  | _ => exact h.elim False.elim fun h => h.elim False.elim fun hanswer => by cases hanswer

theorem quiet_unsent {op : RadioOp} (h : Quiet op) : ¬ Sends op := by
  cases op with
  | broadcast _ | unicast _ _ _ | aprsChat _ _ _ _ =>
    exact h.elim False.elim fun h => h.elim False.elim fun hanswer => by cases hanswer
  | _ => exact fun h => h

theorem discards_undelivered (h : Discards s t) :
    Undelivered s t ∧ t.outlet.sessions.evicted = s.outlet.sessions.evicted := by
  obtain ⟨p, ops, rfl, hquiet⟩ := h
  have hlimited : Undelivered s (s.withPolicy p) :=
    ⟨⟨rfl, rfl, rfl, rfl, rfl, rfl⟩, [], (List.append_nil _).symm, by simp⟩
  have hevicted : (s.withPolicy p).outlet.sessions.evicted = s.outlet.sessions.evicted := rfl
  generalize s.withPolicy p = u at hlimited hevicted
  induction ops generalizing u with
  | nil => exact ⟨hlimited, hevicted⟩
  | cons op ops ih =>
    have hop := hquiet op List.mem_cons_self
    refine ih (fun o ho => hquiet o (List.mem_cons_of_mem _ ho)) _ ?_
      ((quiet_evicted hop _).trans hevicted)
    obtain ⟨hsaid, before, hbefore, hunsent⟩ := hlimited
    refine ⟨⟨hsaid.state, hsaid.relayed, hsaid.joined, hsaid.clients, hsaid.aired, hsaid.mailbox⟩,
      before ++ [op], ?_, fun o ho => ?_⟩
    · exact (congrArg (· ++ [op]) hbefore).trans (List.append_assoc ..)
    · rcases List.mem_append.mp ho with ho | ho
      · exact hunsent o ho
      · exact List.mem_singleton.mp ho ▸ quiet_unsent hop

theorem noted_discards (s : Server) (m : Moment) (src : Callsign) : Discards s (noted s m src) := by
  obtain ⟨p, hp, -⟩ := rationed_eq s m src
  refine ⟨p, [.touch src m.now, .note src .aprs], ?_, by simp [Quiet, Hears]⟩
  rw [noted, hp]
  rfl

/-- A message that is not new is looked at and answered, and that is all. -/
theorem handleAprsMessage_discards (hid : msg.msgid = some id) (hold : newId s m src msg = none) :
    Discards s (s.handleAprsMessage m src msg) := by
  obtain ⟨-, p, ops, heq, -, hslight⟩ | ⟨hpasses, heq⟩ := handleAprsMessage_cases s m src msg
  · exact ⟨p, ops, heq, fun op hop => .inl (hslight op hop)⟩
  · have hnoted := noted_discards s m src
    rw [heq]
    split_ifs with hroom
    · obtain ⟨p, hp, -⟩ := rationed_eq s m src
      have hrationed : Discards s (rationed s m src) := ⟨p, [], hp, by simp⟩
      rw [aprsAck, hid]
      exact hrationed.perform (.inr (.inr rfl))
    · have hbanned := (noted_aside (L := anything) (s := s) (m := m) trivial src).isBanned src
      unfold aprsFresh
      rw [hbanned, hid]
      split_ifs with hb
      · rw [aprsRejOrAck, hid]
        exact hnoted.perform (.inr (.inr rfl))
      · dsimp only
        rw [aprsMsgidSeen, noted_memory]
        split_ifs with hseen
        · rw [aprsAck, hid]
          exact hnoted.perform (.inr (.inr rfl))
        · -- otherwise the message would have been new
          rw [newId, if_pos ⟨hpasses, by simpa [Option.isSome_iff_ne_none] using hroom,
            by simpa using hb⟩, hid, Option.filter_some, aprsMsgidSeen] at hold
          simp [hseen] at hold

/-- The message that the event brings was sent by the station under the number. -/
def Copy (reader : BeaconReader) (src : Callsign) (id : Text) (s : Server)
    (e : Moment × ServerRuns.Event) : Prop :=
  ∃ f msg, e.2 = .rf f ∧ heard s.cfg reader f = .aprs msg ∧ f.source.call = src ∧
    msg.msgid = some id

/-- The key under which an event remembers the message that it brings. -/
def newKey (reader : BeaconReader) (s : Server) (e : Moment × ServerRuns.Event) :
    Option (Callsign × Text) :=
  match e.2 with
  | .rf f =>
    match heard s.cfg reader f with
    | .aprs msg => (newId s e.1 f.source.call msg).map fun id => (f.source.call, id)
    | _ => none
  | _ => none

theorem copy_undelivered {e : Moment × ServerRuns.Event} (hr : StationExpiry.Recorded s)
    (hcopy : Copy reader src id s e) (hold : newKey reader s e = none) :
    Undelivered s (s.next reader e) := by
  obtain ⟨m, e⟩ := e
  obtain ⟨f, msg, rfl, hheard, rfl, hid⟩ := hcopy
  let received := UnacceptableSources.counted s
  have hnone : newId s m f.source.call msg = none := by
    simpa [newKey, hheard] using hold
  have hdiscards : Discards received (received.handleAprsMessage m f.source.call msg) :=
    handleAprsMessage_discards hid hnone
  obtain ⟨hsame, hevicted⟩ := discards_undelivered hdiscards
  obtain ⟨hsaid, ops, hops, hunsent⟩ := hsame
  have hnext : s.next reader (m, .rf f) =
      (received.handleAprsMessage m f.source.call msg).perform .takeEvicted := by
    change (s.handleRfFrame reader m f).reapEvictedPeers m = _
    rw [UnacceptableSources.handleRfFrame_eq, hheard]
    unfold reapEvictedPeers
    rw [hevicted.trans hr.evicted]
    rfl
  rw [hnext]
  generalize received.handleAprsMessage m f.source.call msg = t at hsaid hops ⊢
  refine ⟨⟨hsaid.state, hsaid.relayed, hsaid.joined, hsaid.clients, hsaid.aired, hsaid.mailbox⟩,
    ops ++ [.takeEvicted], ?_, fun op hop => ?_⟩
  · exact (congrArg (· ++ [RadioOp.takeEvicted]) hops).trans (List.append_assoc ..)
  · rcases List.mem_append.mp hop with hop | hop
    · exact hunsent op hop
    · rw [List.mem_singleton.mp hop]
      exact fun h => h

/-! ### The memory of numbers -/

def memory (s : Server) : Table (Callsign × Text) ℕ := s.outlet.aprsMsgid

def learned (now : ℕ) (t : Table (Callsign × Text) ℕ) (key : Callsign × Text) :
    Table (Callsign × Text) ℕ :=
  TimedMemory.remember aprsMemoryMax (TimedMemory.expire aprsMsgidTtl now t) key now

theorem remember_learns (o : Outlet) (src : Callsign) (id : Text) (now : ℕ) :
    (rememberAprsMsgid o src id now).aprsMsgid = learned now o.aprsMsgid (src, id) := by
  have hexpired : (expireAprsMsgids o now).aprsMsgid =
    TimedMemory.expire aprsMsgidTtl now o.aprsMsgid := rfl
  unfold rememberAprsMsgid rememberIn learned TimedMemory.remember TimedMemory.makeRoom
  dsimp only
  rw [hexpired]
  generalize TimedMemory.expire aprsMsgidTtl now o.aprsMsgid = t
  split_ifs
  · generalize t.leastKey _ = oldest
    cases oldest <;> rfl
  · rfl

theorem newKey_unseen {e : Moment × ServerRuns.Event} {key : Callsign × Text}
    (h : newKey reader s e = some key) :
    TimedMemory.seen aprsMsgidTtl (memory s) key e.1.now = false := by
  unfold newKey at h
  split at h
  · split at h
    · obtain ⟨id, hid, rfl⟩ := Option.map_eq_some_iff.mp h
      unfold newId at hid
      split_ifs at hid
      have hseen := (Option.filter_eq_some_iff.mp hid).2
      rwa [Bool.not_eq_true'] at hseen
    · cases h
  · cases h

theorem steps_memory (hsteps : Steps L s t) :
    Relation.ReflTransGen L.remembers (memory s) (memory t) := by
  refine steps_related (φ := Outlet.aprsMsgid) (fun o o' hstep => ?_) (fun _ _ => rfl) hsteps
  cases hstep with
  | book hcore => exact .inl (congrArg Core.aprsMsgid hcore)
  | remember h => exact .inr h
  | _ => exact .inl rfl

/-- What an event can do to the memory. -/
def Recalled (reader : BeaconReader) (s : Server) (e : Moment × ServerRuns.Event)
    (a b : Table (Callsign × Text) ℕ) : Prop :=
  e.2 = .tick ∧ b = TimedMemory.expire aprsMsgidTtl e.1.now a ∨
    a = memory s ∧ ∃ key, newKey reader s e = some key ∧ b = learned e.1.now a key

theorem next_memory (reader : BeaconReader) {e : Moment × ServerRuns.Event} (hs : Grounded s)
    (he : ServerRuns.Enabled verifies s e) :
    Relation.ReflTransGen (Recalled reader s e) (memory s) (memory (s.next reader e)) := by
  let mindful : Licence := { anything with remembers := Recalled reader s e }
  have hlenient : Lenient mindful :=
    ⟨⟨fun _ _ => trivial, fun _ => trivial, fun _ => trivial, fun _ => trivial, fun _ => trivial⟩,
      fun _ _ => trivial, fun _ _ => trivial, fun _ => trivial, fun _ => trivial⟩
  have hrecalls : Recalls mindful reader s e := by
    refine ⟨fun htick t => .inl ⟨htick, rfl⟩, fun f msg hf hheard id hid => .inr ⟨rfl, ?_⟩,
      fun _ _ => trivial, fun _ _ => trivial⟩
    refine ⟨(f.source.call, id), ?_, remember_learns ..⟩
    simp only [newKey, hf, hheard, Option.map_eq_some_iff]
    exact ⟨id, hid, rfl⟩
  exact steps_memory (next_steps hs.standing hs.named he trivial
    (lenient_licensed hlenient hs.standing he (fun _ _ _ _ _ => trivial) (fun _ _ => trivial)
      hrecalls))

/-! ### Runs -/

/-- What holds of the time of every entry holds after an event, when it holds of the event itself. -/
theorem next_times {e : Moment × ServerRuns.Event} {P : ℕ → Prop} (hs : Grounded s)
    (he : ServerRuns.Enabled verifies s e)
    (h : ∀ key time, (memory s).get key = some time → P time)
    (hnew : (newKey reader s e).isSome = true → P e.1.now) :
    ∀ key time, (memory (s.next reader e)).get key = some time → P time := by
  have hsteps := next_memory reader hs he
  generalize memory (s.next reader e) = t at hsteps
  induction hsteps with
  | refl => exact h
  | tail _ hstep ih =>
    intro k time hk
    rcases hstep with ⟨-, rfl⟩ | ⟨rfl, key, hkey, rfl⟩
    · exact ih k time (TimedMemory.expire_get hk)
    · rw [learned, TimedMemory.remember, Table.get_set] at hk
      split_ifs at hk
      · exact Option.some.inj hk ▸ hnew (by rw [hkey]; rfl)
      · exact h k time (TimedMemory.expire_get (TimedMemory.makeRoom_get hk))

/-- A number is forgotten neither before its time nor for few others. -/
theorem next_keeps {e : Moment × ServerRuns.Event} {key : Callsign × Text} {since : ℕ}
    {others : Finset (Callsign × Text)} (hs : Grounded s) (he : ServerRuns.Enabled verifies s e)
    (h : TimedMemory.Keeps key since others (memory s)) (htime : e.1.now - since < aprsMsgidTtl)
    (hfew : ∀ k, newKey reader s e = some k → (insert k others).card < aprsMemoryMax) :
    TimedMemory.Keeps key since ((newKey reader s e).elim others fun k => insert k others)
      (memory (s.next reader e)) := by
  have hwider : ∀ {t}, TimedMemory.Keeps key since others t → TimedMemory.Keeps key since
      ((newKey reader s e).elim others fun k => insert k others) t := by
    refine fun ht => ⟨ht.held, fun k time hk hne => (ht.rest k time hk hne).imp_right fun hk => ?_⟩
    cases newKey reader s e with
    | none => exact hk
    | some _ => exact Finset.mem_insert_of_mem hk
  have hsteps := next_memory reader hs he
  generalize memory (s.next reader e) = t at hsteps
  induction hsteps with
  | refl => exact hwider h
  | tail _ hstep ih =>
    rcases hstep with ⟨-, rfl⟩ | ⟨rfl, k, hk, rfl⟩
    · exact ih.expire htime
    · have hunseen := TimedMemory.expire_unseen (newKey_unseen hk)
      rw [hk]
      exact (h.expire htime).remember hunseen (hfew k hk)

/-- A licence for everything but to touch the memory. -/
def forgetful : Licence := { anything with remembers := fun _ _ => False }

theorem forgetful_recording : Recording forgetful :=
  ⟨fun _ _ => trivial, fun _ => trivial, fun _ => trivial, fun _ => trivial, fun _ => trivial⟩

theorem steps_same_memory (hsteps : Steps forgetful s t) : memory t = memory s :=
  (Relation.reflTransGen_iff_eq fun _ h => h).mp (steps_memory hsteps)

theorem handleAprsMessage_remembers (hnew : newId s m src msg = some id) :
    memory (s.handleAprsMessage m src msg) = learned m.now (memory s) (src, id) := by
  have htaken : Passes s m src msg ∧ (s.outlet.sessions.touched src m.now).isSome = true ∧
      s.outlet.sessions.isBanned src = false ∧ msg.msgid = some id ∧
      aprsMsgidSeen s.outlet src id m.now = false := by
    unfold newId at hnew
    split_ifs at hnew with htests
    obtain ⟨hid, hseen⟩ := Option.filter_eq_some_iff.mp hnew
    exact ⟨htests.1, htests.2.1, htests.2.2, hid, by rwa [Bool.not_eq_true'] at hseen⟩
  obtain ⟨hpasses, hroom, hfree, hid, hseen⟩ := htaken
  obtain ⟨hnot, -⟩ | ⟨-, heq⟩ := handleAprsMessage_cases s m src msg
  · exact absurd hpasses hnot
  · have hnone : ¬ (s.outlet.sessions.touched src m.now).isNone = true := by
      simpa [Option.isSome_iff_ne_none] using hroom
    let taken : Server :=
      { noted s m src with outlet := rememberAprsMsgid (noted s m src).outlet src id m.now }
    have hmemory : memory taken = learned m.now (memory s) (src, id) := by
      rw [memory, remember_learns, noted_memory]
      rfl
    have hfresh : (noted s m src).aprsFresh m src msg =
        taken.aprsText m src msg (sanitize msg.text) := by
      unfold aprsFresh
      rw [(noted_aside (L := anything) (s := s) (m := m) trivial src).isBanned src, hfree, hid]
      dsimp only
      rw [aprsMsgidSeen, noted_memory, ← aprsMsgidSeen, hseen]
      rfl
    have hair : taken.outlet.air = (noted s m src).outlet.air := rfl
    have hthere : (taken.outlet.peer src).isSome = true := by
      rw [Outlet.peer, Outlet.sessions, Outlet.gateway, hair]
      exact noted_present hnone
    have hends : Ends forgetful src msg taken (taken.aprsText m src msg (sanitize msg.text)) :=
      aprsText_ends taken m hpasses.1.1 trivial hthere
        (forgetful_recording.aprs fun _ => trivial)
    rw [heq, if_neg hnone, hfresh, steps_same_memory (hends.steps fun _ _ => trivial), hmemory]

/-- A new message is remembered at its time, and is the last one. -/
theorem copy_remembered {e : Moment × ServerRuns.Event} {key : Callsign × Text}
    (hnew : newKey reader s e = some key)
    (hbefore : ∀ k time, (memory s).get k = some time → time < e.1.now) :
    TimedMemory.Keeps key e.1.now ∅ (memory (s.next reader e)) := by
  obtain ⟨m, e⟩ := e
  unfold newKey at hnew
  split at hnew
  · rename_i f hf
    obtain rfl : e = .rf f := hf
    split at hnew
    · rename_i msg hheard
      obtain ⟨id, hid, rfl⟩ := Option.map_eq_some_iff.mp hnew
      let received := UnacceptableSources.counted s
      have hreaped : Steps forgetful (received.handleAprsMessage m f.source.call msg)
          (s.next reader (m, .rf f)) := by
        have hnext : s.next reader (m, .rf f) =
            (received.handleAprsMessage m f.source.call msg).reapEvictedPeers m := by
          change (s.handleRfFrame reader m f).reapEvictedPeers m = _
          rw [UnacceptableSources.handleRfFrame_eq, hheard]
        rw [hnext]
        exact reapEvictedPeers_steps _ m trivial
      have hid' : newId received m f.source.call msg = some id := hid
      have hlearned : memory (received.handleAprsMessage m f.source.call msg) =
          learned m.now (memory received) (f.source.call, id) := handleAprsMessage_remembers hid'
      have hsame : memory received = memory s := rfl
      have hexpired : ∀ k time, (TimedMemory.expire aprsMsgidTtl m.now (memory s)).get k = some time →
          time < m.now := fun k time hk => hbefore k time (TimedMemory.expire_get hk)
      rw [steps_same_memory hreaped, hlearned, learned, hsame]
      exact TimedMemory.remember_keeps hexpired
    · cases hnew
  · cases hnew

/-- The keys that a run remembers, in order. -/
def newKeys (reader : BeaconReader) : Server → List (Moment × ServerRuns.Event) →
    List (Callsign × Text)
  | _, [] => []
  | s, e :: es => (newKey reader s e).toList ++ newKeys reader (s.next reader e) es

theorem run_keeps {es : List (Moment × ServerRuns.Event)} {key : Callsign × Text} {since : ℕ}
    {others : Finset (Callsign × Text)} (hs : Grounded s)
    (hrun : Runs everyStep (ServerRuns.Enabled verifies) (Server.next reader) s es)
    (h : TimedMemory.Keeps key since others (memory s))
    (htime : ∀ e ∈ es, e.1.now - since < aprsMsgidTtl)
    (hfew : (others ∪ (newKeys reader s es).toFinset.erase key).card < aprsMemoryMax) :
    ∃ others, TimedMemory.Keeps key since others (memory (es.foldl (Server.next reader) s)) := by
  induction es generalizing s others with
  | nil => exact ⟨others, h⟩
  | cons e es ih =>
    obtain ⟨-, he, hrest⟩ := hrun
    have hnow := htime e List.mem_cons_self
    have hother : ∀ k, newKey reader s e = some k → k ≠ key := by
      rintro k hk rfl
      exact Bool.false_ne_true ((newKey_unseen hk).symm.trans (h.seen hnow))
    -- the others so far and those to come are no more than those of the whole run
    have hall : ((newKey reader s e).elim others fun k => insert k others) ∪
        (newKeys reader (s.next reader e) es).toFinset.erase key ⊆
        others ∪ (newKeys reader s (e :: es)).toFinset.erase key := by
      intro k hk
      simp only [Finset.mem_union, Finset.mem_erase, List.mem_toFinset, newKeys, List.mem_append,
        Option.mem_toList] at hk ⊢
      rcases hk with hk | ⟨hne, hk⟩
      · cases hnew : newKey reader s e with
        | none =>
          rw [hnew] at hk
          exact .inl hk
        | some j =>
          rw [hnew] at hk
          rcases Finset.mem_insert.mp hk with rfl | hk
          · exact .inr ⟨hother k hnew, .inl rfl⟩
          · exact .inl hk
      · exact .inr ⟨hne, .inr hk⟩
    have hcard := (Finset.card_le_card hall).trans_lt hfew
    have hkept := next_keeps hs he h hnow fun k hk => by
      rw [hk] at hcard
      exact (Finset.card_le_card Finset.subset_union_left).trans_lt hcard
    exact ih (grounded_next hs he) hrest hkept
      (fun e he => htime e (List.mem_cons_of_mem _ he)) hcard

/-- The event is a message of an APRS radio. -/
def IsMessage (reader : BeaconReader) (cfg : ServerConfig) (e : Moment × ServerRuns.Event) : Prop :=
  ∃ f msg, e.2 = .rf f ∧ heard cfg reader f = .aprs msg

/-- The time does not go back, and every message has a time of its own. -/
def Later (reader : BeaconReader) (cfg : ServerConfig) (a b : Moment × ServerRuns.Event) : Prop :=
  a.1.now ≤ b.1.now ∧
    (IsMessage reader cfg a → IsMessage reader cfg b → a.1.now < b.1.now)

theorem newKey_message {e : Moment × ServerRuns.Event} (h : (newKey reader s e).isSome = true) :
    IsMessage reader s.cfg e := by
  unfold newKey at h
  split at h
  · rename_i f hf
    split at h
    · exact ⟨f, _, hf, ‹_›⟩
    · cases h
  · cases h

theorem next_cfg {e : Moment × ServerRuns.Event} (hs : Grounded s)
    (he : ServerRuns.Enabled verifies s e) : (s.next reader e).cfg = s.cfg :=
  (steps_config (next_anything hs he)).1

theorem run_times {es : List (Moment × ServerRuns.Event)} {P : ℕ → Prop} (hs : Grounded s)
    (hrun : Runs everyStep (ServerRuns.Enabled verifies) (Server.next reader) s es)
    (h : ∀ key time, (memory s).get key = some time → P time)
    (hnew : ∀ e ∈ es, IsMessage reader s.cfg e → P e.1.now) :
    ∀ key time, (memory (es.foldl (Server.next reader) s)).get key = some time → P time := by
  induction es generalizing s with
  | nil => exact h
  | cons e es ih =>
    obtain ⟨-, he, hrest⟩ := hrun
    refine ih (grounded_next hs he) hrest ?_ fun x hx hmessage => ?_
    · exact next_times hs he h fun hkey => hnew e List.mem_cons_self (newKey_message hkey)
    · rw [next_cfg hs he] at hmessage
      exact hnew x (List.mem_cons_of_mem _ hx) hmessage

theorem run_cfg {es : List (Moment × ServerRuns.Event)} (hs : Grounded s)
    (hrun : Runs everyStep (ServerRuns.Enabled verifies) (Server.next reader) s es) :
    (es.foldl (Server.next reader) s).cfg = s.cfg := by
  induction es generalizing s with
  | nil => rfl
  | cons e es ih =>
    obtain ⟨-, he, hrest⟩ := hrun
    exact (ih (grounded_next hs he) hrest).trans (next_cfg hs he)

/-! ### Once -/

/-- Every message with a number that passes the tests is answered once, by the event that brings
it. -/
def AnsweredOnce (reader : BeaconReader) (s₀ : Server) (es : List (Moment × ServerRuns.Event)) :
    Prop :=
  ∀ before m f after msg id, es = before ++ (m, .rf f) :: after →
    let s := before.foldl (Server.next reader) s₀
    heard s.cfg reader f = .aprs msg → msg.msgid = some id → Passes s m f.source.call msg →
      Answers [(f.source.call, id)] s (s.next reader (m, .rf f))

/-- Of two copies of a message, one is not delivered: the second comes before its time is over, and
too few others are remembered in between. -/
def DeliveredOnce (reader : BeaconReader) (s₀ : Server) (es : List (Moment × ServerRuns.Event)) :
    Prop :=
  ∀ before e between e' after src id, es = before ++ e :: (between ++ e' :: after) →
    let s := before.foldl (Server.next reader) s₀
    let t := between.foldl (Server.next reader) (s.next reader e)
    Copy reader src id s e → Copy reader src id t e' → e'.1.now - e.1.now < aprsMsgidTtl →
      ((newKeys reader (s.next reader e) between).toFinset.erase (src, id)).card < aprsMemoryMax →
      Undelivered s (s.next reader e) ∨ Undelivered t (t.next reader e')

theorem copy_message {e : Moment × ServerRuns.Event} (h : Copy reader src id s e) :
    IsMessage reader s.cfg e := by
  obtain ⟨f, msg, hf, hheard, -, -⟩ := h
  exact ⟨f, msg, hf, hheard⟩

theorem copy_key {e : Moment × ServerRuns.Event} {key : Callsign × Text}
    (h : Copy reader src id s e) (hkey : newKey reader s e = some key) : key = (src, id) := by
  obtain ⟨f, msg, hf, hheard, rfl, hid⟩ := h
  simp only [newKey, hf, hheard] at hkey
  obtain ⟨number, hnumber, rfl⟩ := Option.map_eq_some_iff.mp hkey
  unfold newId at hnumber
  split_ifs at hnumber
  obtain ⟨hsame, -⟩ := Option.filter_eq_some_iff.mp hnumber
  rw [Option.some.inj (hsame.symm.trans hid)]

/-- In every run in which the time goes on from message to message. -/
theorem aprs_messages_once {s₀ : Server} {es : List (Moment × ServerRuns.Event)} (h₀ : Initial s₀)
    (hrun : Runs everyStep (ServerRuns.Enabled verifies) (Server.next reader) s₀ es)
    (htimes : es.Pairwise (Later reader s₀.cfg)) :
    AnsweredOnce reader s₀ es ∧ DeliveredOnce reader s₀ es := by
  refine ⟨fun before m f after msg id _ => message_answered, ?_⟩
  intro before e between e' after src id heq s t hcopy hcopy' htime hfew
  subst heq
  obtain ⟨hbefore, -, he, hafter⟩ := runs_append.mp hrun
  obtain ⟨hbetween, -, -, -⟩ := runs_append.mp hafter
  obtain ⟨-, hlater, hacross⟩ := List.pairwise_append.mp htimes
  have hreached : Reachable (ServerRuns.system reader verifies) everyStep s :=
    (Reachable.initial h₀).run hbefore
  obtain ⟨hs, hrecorded⟩ := StationExpiry.recorded_inductive.reachable hreached
  obtain ⟨ht, hrecorded'⟩ := StationExpiry.recorded_inductive.reachable
    ((hreached.fire e trivial he).run hbetween)
  cases hkey : newKey reader s e with
  | none => exact .inl (copy_undelivered hrecorded hcopy hkey)
  | some key =>
    obtain rfl := copy_key hcopy hkey
    have hcfg : s.cfg = s₀.cfg := run_cfg (initial_grounded h₀) hbefore
    have hmessage := copy_message hcopy
    rw [hcfg] at hmessage
    -- what is remembered before is older
    have hfirst : ∀ k time, (memory s).get k = some time → time < e.1.now := by
      refine run_times (initial_grounded h₀) hbefore (fun k time hk => ?_) fun x hx hx' => ?_
      · obtain ⟨cfg, attached, tnc, accounts, unix, rfl⟩ := h₀
        cases hk
      · exact (hacross x hx e List.mem_cons_self).2 hx' hmessage
    -- the second copy is the last of the rest
    obtain ⟨hnext, hrest⟩ := List.pairwise_cons.mp hlater
    obtain ⟨-, -, hlast⟩ := List.pairwise_append.mp hrest
    have hyoung : ∀ x ∈ between, x.1.now - e.1.now < aprsMsgidTtl := by
      intro x hx
      have := (hlast x hx e' List.mem_cons_self).1
      omega
    have hkept := copy_remembered hkey hfirst
    obtain ⟨others, hheld⟩ := run_keeps (grounded_next hs he) hbetween hkept hyoung
      (by rwa [Finset.empty_union])
    refine .inr (copy_undelivered hrecorded' hcopy' ?_)
    cases hkey' : newKey reader t e' with
    | none => rfl
    | some key' =>
      obtain rfl := copy_key hcopy' hkey'
      exact absurd ((newKey_unseen hkey').symm.trans (hheld.seen htime)) Bool.false_ne_true

/-- A station says the same twice. -/
def copies : List ServerRuns.Event :=
  [Small.aprs Small.station "#rf hello\x7b1", Small.aprs Small.station "#rf hello\x7b1"]

theorem copies_once :
    AnsweredOnce Small.noBeacon Small.start (Small.seconds copies) ∧
      DeliveredOnce Small.noBeacon Small.start (Small.seconds copies) := by
  have hstart : Initial Small.start := ⟨Small.config, true, .default, .empty, 0, rfl⟩
  have hfeasible : Small.Feasible copies := by decide +kernel
  have htimes : (Small.seconds copies).Pairwise fun a b => a.1.now < b.1.now := by decide
  exact aprs_messages_once hstart hfeasible (htimes.imp fun h => ⟨h.le, fun _ _ => h⟩)

end AprsAnswers
