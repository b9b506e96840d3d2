import Rfircd.FifoLedger
import Rfircd.HandedOver
import Rfircd.ServerRuns

/-! What becomes of the APRS messages for one station: one is in flight, the others wait. -/
namespace AprsQueue

open Basics Ax25 Airc AircSession KeyedTable AprsCodec AirTrace RadioGateway RadioGateway.Gateway
open FifoLedger HandedOver

/-! ### What each operation does to the messages -/

section

variable (c : Callsign) (g : Gateway)

def inFlight : Option AprsInFlight := g.radio.aprsOut.pending.get c

def waiting : List AprsQueued := (g.radio.aprsOut.waiting.get c).getD []

/-- The message in flight is out of tries. -/
def exhausted : Bool := (inFlight c g).any fun e => max g.radio.cfg.maxRetries 1 ≤ e.attempts

/-- The first message that waits goes out, when one is in flight in the end. -/
def nextEntries (g' : Gateway) : List (Entry AprsQueued) :=
  if (inFlight c g').isSome then (waiting c g).head?.toList.map .put else []

def endEntries (fate : Fate) (g' : Gateway) : List (Entry AprsQueued) :=
  .settle fate :: nextEntries c g g'

def due (now : ℕ) : List Callsign :=
  (g.radio.aprsOut.pending.entries.filter fun e => e.2.nextRetry ≤ now).map Prod.fst

/-- What an operation means to the messages for the station. A message that is sent again is not
put in flight again. -/
def entries (op : RadioOp) : List (Entry AprsQueued) :=
  match op with
  | .aprsChat dst body channel now =>
    if dst = c ∧ (g.enqueueAprsChat dst body (chatClass channel) now).1 then
      let q : AprsQueued := ⟨body.take 67, chatClass channel⟩
      .accept [q] :: if (inFlight c g).isNone then [.put q] else []
    else []
  | .aprsAnswered src id _ =>
    if src = c ∧ (inFlight c g).any fun e => e.msgid = id then
      endEntries c g .completed (perform g op)
    else []
  | .tickAprs now =>
    if g.available ∧ g.interlockDown = false ∧ c ∈ due g now ∧ exhausted c g then
      endEntries c g .givenUp (perform g op)
    else []
  | _ => []

/-- The accounts of the station over everything that was done with the radio. -/
def ledger (a : Air) : Ledger AprsQueued :=
  a.steps.foldl (fun l e => l.enter (entries c e.1 e.2)) .empty

/-- The backlog has room for the message that is next. -/
def NextFits : Prop :=
  ∀ q ∈ (waiting c g).head?, g.backlogHasRoom
    ((messageInfo c q.text g.radio.aprsOut.nextMsgid.1).length + 20) q.cls = true

end

/-- Whenever a tick gives up on a message, there is room for the next one at that moment. -/
def RetriesFit (now : ℕ) : List Callsign → Gateway → Prop
  | [], _ => True
  | call :: calls, g =>
    (exhausted call g = true → NextFits call g) ∧ RetriesFit now calls (g.retryAprs call now)

/-- Whenever a message comes to its end, there is room for the next one. -/
def RoomForNext (g : Gateway) : RadioOp → Prop
  | .aprsAnswered src id _ => ((inFlight src g).any fun e => e.msgid = id) = true → NextFits src g
  | .tickAprs now => g.available = true → g.interlockDown = false → RetriesFit now (due g now) g
  | _ => True

/-- The frame in flight is that of the message. -/
def Carries (c : Callsign) (e : AprsInFlight) (q : AprsQueued) : Prop :=
  e.info = messageInfo c q.text e.msgid ∧ e.cls = q.cls

/-- The accounts agree with what is in flight and what waits, and nothing waits for nothing. -/
structure Kept (c : Callsign) (g : Gateway) (l : Ledger AprsQueued) (flying : Option AprsQueued) :
    Prop where
  flight : Option.Rel (Carries c) (inFlight c g) flying
  balanced : Balanced Eq (flying.map ([·])) ((waiting c g).map ([·])) l
  started : waiting c g ≠ [] → (inFlight c g).isSome

variable {c call : Callsign} {g g' : Gateway} {l : Ledger AprsQueued} {flying : Option AprsQueued}

/-- Nothing changes for the station. -/
structure SameLane (c : Callsign) (g g' : Gateway) : Prop where
  pending : g'.radio.aprsOut.pending.get c = g.radio.aprsOut.pending.get c
  waiting : g'.radio.aprsOut.waiting.get c = g.radio.aprsOut.waiting.get c
  cfg : g'.radio.cfg = g.radio.cfg

theorem SameLane.inFlight (h : SameLane c g g') : inFlight c g' = inFlight c g := h.pending

theorem SameLane.queue (h : SameLane c g g') : AprsQueue.waiting c g' = AprsQueue.waiting c g := by
  rw [AprsQueue.waiting, h.waiting, AprsQueue.waiting]

theorem SameLane.exhausted (h : SameLane c g g') : exhausted c g' = exhausted c g := by
  rw [AprsQueue.exhausted, h.inFlight, h.cfg, AprsQueue.exhausted]

theorem SameLane.trans {g'' : Gateway} (h : SameLane c g g') (h' : SameLane c g' g'') :
    SameLane c g g'' :=
  ⟨h'.pending.trans h.pending, h'.waiting.trans h.waiting, h'.cfg.trans h.cfg⟩

theorem Kept.same (h : Kept c g l flying) (hs : SameLane c g g') : Kept c g' l flying := by
  refine ⟨?_, ?_, ?_⟩
  · rw [hs.inFlight]
    exact h.flight
  · rw [hs.queue]
    exact h.balanced
  · rw [hs.queue, hs.inFlight]
    exact h.started

/-! ### Starting a message -/

/-- Only the transmit side of the gateway changes. -/
structure SameQueues (g g' : Gateway) : Prop where
  aprsOut : g'.radio.aprsOut = g.radio.aprsOut
  cfg : g'.radio.cfg = g.radio.cfg

theorem SameQueues.trans {g'' : Gateway} (h : SameQueues g g') (h' : SameQueues g' g'') :
    SameQueues g g'' :=
  ⟨h'.aprsOut.trans h.aprsOut, h'.cfg.trans h.cfg⟩

theorem SameQueues.lane (h : SameQueues g g') (c : Callsign) : SameLane c g g' :=
  ⟨by rw [h.aprsOut], by rw [h.aprsOut], h.cfg⟩

theorem enqueueUi_queues (g : Gateway) (dest : Callsign) (info : List UInt8) (cls : TxClass)
    (expectsReply : Bool) (account : Text) :
    SameQueues g (g.enqueueUi dest info cls expectsReply account) := by
  refine ⟨enqueueUi_aprsOut .., ?_⟩
  unfold Gateway.enqueueUi
  cases g.transmittable dest info with
  | none => rfl
  | some ax =>
    simp only
    rcases tncEnqueue g.pump ax cls.schedulerClass account expectsReply with ⟨- | -, q⟩ <;> rfl

/-- A message starts when there is room for it. -/
theorem startAprsChat_started {q : AprsQueued} (now : ℕ)
    (hroom : g.backlogHasRoom ((messageInfo call q.text g.radio.aprsOut.nextMsgid.1).length + 20)
      q.cls = true) :
    (g.startAprsChat call q.text q.cls now).1 = true ∧
      (∀ c, c ≠ call → SameLane c g (g.startAprsChat call q.text q.cls now).2) ∧
      (g.startAprsChat call q.text q.cls now).2.radio.aprsOut.waiting = g.radio.aprsOut.waiting ∧
      ∃ e, inFlight call (g.startAprsChat call q.text q.cls now).2 = some e ∧ Carries call e q := by
  have hroom' : (g.withAprs g.radio.aprsOut.nextMsgid.2).backlogHasRoom
      ((messageInfo call q.text g.radio.aprsOut.nextMsgid.1).length + 20) q.cls = true := hroom
  have hsent := enqueueUi_queues (g.withAprs g.radio.aprsOut.nextMsgid.2) aprsDestination
    (messageInfo call q.text g.radio.aprsOut.nextMsgid.1) q.cls false (callText call)
  simp only [startAprsChat, hroom', Bool.not_true, Bool.false_eq_true, if_false]
  refine ⟨trivial, fun c hc => ⟨?_, ?_, hsent.cfg⟩, ?_, _, Table.get_set_self .., rfl, rfl⟩
  · refine (Table.get_set_ne _ hc _).trans ?_
    exact congrArg (fun o => o.pending.get c) hsent.aprsOut
  · exact congrArg (fun o => o.waiting.get c) hsent.aprsOut
  · exact (congrArg AprsOutbound.waiting hsent.aprsOut :)

theorem startAprsChat_refused {q : AprsQueued} (now : ℕ)
    (hroom : g.backlogHasRoom ((messageInfo call q.text g.radio.aprsOut.nextMsgid.1).length + 20)
      q.cls = false) :
    (g.startAprsChat call q.text q.cls now).1 = false ∧
      ∀ c, SameLane c g (g.startAprsChat call q.text q.cls now).2 := by
  have hroom' : (g.withAprs g.radio.aprsOut.nextMsgid.2).backlogHasRoom
      ((messageInfo call q.text g.radio.aprsOut.nextMsgid.1).length + 20) q.cls = false := hroom
  simp only [startAprsChat, hroom', Bool.not_false, if_true]
  exact ⟨trivial, fun c => ⟨rfl, rfl, rfl⟩⟩

theorem startAprsChat_lane (g : Gateway) (q : AprsQueued) (now : ℕ) (h : c ≠ call) :
    SameLane c g (g.startAprsChat call q.text q.cls now).2 := by
  cases hroom : g.backlogHasRoom
      ((messageInfo call q.text g.radio.aprsOut.nextMsgid.1).length + 20) q.cls with
  | true => exact (startAprsChat_started now hroom).2.1 c h
  | false => exact (startAprsChat_refused now hroom).2 c

theorem nextAprsChat_lane (g : Gateway) (now : ℕ) (h : c ≠ call) :
    SameLane c g (g.nextAprsChat call now) := by
  have hothers : ∀ waiting, waiting.get c = g.radio.aprsOut.waiting.get c →
      SameLane c g (g.withAprs { g.radio.aprsOut with waiting := waiting }) :=
    fun _ hget => ⟨rfl, hget, rfl⟩
  unfold nextAprsChat
  split
  · exact ⟨rfl, rfl, rfl⟩
  · refine hothers _ ?_
    rw [Table.get_erase, if_neg h]
  · rename_i next rest _
    refine (hothers _ ?_).trans (startAprsChat_lane _ next now h)
    split_ifs
    · rw [Table.get_erase, if_neg h]
    · rw [Table.get_set, if_neg h]

/-- With none in flight, the next message starts if the backlog has room for it. -/
theorem nextAprsChat_kept (hidle : inFlight c g = none)
    (hl : Balanced Eq none ((waiting c g).map ([·])) l) (hfits : NextFits c g) (now : ℕ) :
    ∃ flying, Kept c (g.nextAprsChat c now) (l.enter (nextEntries c g (g.nextAprsChat c now))) flying := by
  have hnone : ∀ g', inFlight c g' = none → waiting c g' = [] → waiting c g = [] →
      ∃ flying, Kept c g' (l.enter (nextEntries c g g')) flying := by
    intro g' hidle' hempty' hempty
    rw [hempty] at hl
    refine ⟨none, by rw [hidle']; exact .none, ?_, by rw [hempty']; exact fun h => absurd rfl h⟩
    rw [hempty', nextEntries, hidle']
    exact hl
  unfold nextAprsChat
  cases hq : g.radio.aprsOut.waiting.get c with
  | none =>
    have hempty : waiting c g = [] := by rw [waiting, hq, Option.getD_none]
    exact hnone g hidle hempty hempty
  | some queue =>
    have hqueue : waiting c g = queue := by rw [waiting, hq, Option.getD_some]
    cases queue with
    | nil =>
      refine hnone _ hidle ?_ hqueue
      simp only [waiting, withAprs, Table.get_erase, if_pos]
      rfl
    | cons q rest =>
      simp only
      generalize hw : (if rest = [] then g.radio.aprsOut.waiting.erase c
        else g.radio.aprsOut.waiting.set c rest) = waiting'
      have hrest : (waiting'.get c).getD [] = rest := by
        rw [← hw]
        split_ifs with hnil
        · rw [Table.get_erase, if_pos rfl, hnil, Option.getD_none]
        · rw [Table.get_set_self, Option.getD_some]
      have hroom : (g.withAprs { g.radio.aprsOut with waiting := waiting' }).backlogHasRoom
          ((messageInfo c q.text g.radio.aprsOut.nextMsgid.1).length + 20) q.cls = true :=
        hfits q (by rw [hqueue]; rfl)
      obtain ⟨-, -, hwaits, e, hflies, hcarries⟩ := startAprsChat_started now hroom
      have hleft : waiting c ((g.withAprs { g.radio.aprsOut with waiting := waiting' }).startAprsChat c
          q.text q.cls now).2 = rest := by
        rw [waiting, hwaits]
        exact hrest
      rw [hqueue] at hl
      refine ⟨some q, by rw [hflies]; exact .some hcarries, ?_, fun _ => by rw [hflies]; rfl⟩
      rw [hleft, nextEntries, hflies, hqueue]
      exact hl.start [q] (fun x hx => ⟨x, hx, rfl⟩) (fun x hx => ⟨x, hx, rfl⟩)

/-- The message in flight comes to its end, and the next one starts. -/
theorem Kept.ended (h : Kept c g l flying) (hflies : (inFlight c g).isSome) (hfits : NextFits c g)
    (g₁ : Gateway) (haprs : g₁.radio.aprsOut =
      { g.radio.aprsOut with pending := g.radio.aprsOut.pending.erase c })
    (hroom : ∀ n cls, g₁.backlogHasRoom n cls = g.backlogHasRoom n cls) (fate : Fate) (now : ℕ) :
    ∃ flying', Kept c (g₁.nextAprsChat c now)
      (l.enter (endEntries c g fate (g₁.nextAprsChat c now))) flying' := by
  obtain ⟨e, he⟩ := Option.isSome_iff_exists.mp hflies
  have hflight := h.flight
  have hbalanced := h.balanced
  rw [he] at hflight
  cases hflight with
  | @some _ q hcarries =>
    have hidle : inFlight c g₁ = none := by
      rw [inFlight, haprs]
      exact (Table.get_erase ..).trans (if_pos rfl)
    have hwaiting : waiting c g₁ = waiting c g := by rw [waiting, haprs, waiting]
    have hnext : NextFits c g₁ := by
      intro x hx
      rw [hwaiting] at hx
      rw [hroom, haprs]
      exact hfits x hx
    have hsettled := hbalanced.settle fate
    rw [← hwaiting] at hsettled
    obtain ⟨flying', hkept⟩ := nextAprsChat_kept hidle hsettled hnext now
    refine ⟨flying', ?_⟩
    rw [endEntries, ← List.singleton_append, Ledger.enter_append, nextEntries, ← hwaiting]
    exact hkept

/-! ### The operations -/

theorem onAprsAck_lane (g : Gateway) (id : Text) (now : ℕ) (h : c ≠ call) :
    SameLane c g (g.onAprsAck call id now) := by
  unfold onAprsAck
  split
  · exact ⟨rfl, rfl, rfl⟩
  · split_ifs
    · exact ⟨rfl, rfl, rfl⟩
    · have herased : SameLane c g
          (g.withAprs { g.radio.aprsOut with pending := g.radio.aprsOut.pending.erase call }) :=
        ⟨(Table.get_erase ..).trans (if_neg h), rfl, rfl⟩
      exact herased.trans (nextAprsChat_lane _ now h)

theorem retryAprs_lane (g : Gateway) (now : ℕ) (h : c ≠ call) :
    SameLane c g (g.retryAprs call now) := by
  unfold retryAprs
  split
  · exact ⟨rfl, rfl, rfl⟩
  · rename_i pending _
    split_ifs
    · have herased : SameLane c g (g.withAprs { g.radio.aprsOut with
          pending := g.radio.aprsOut.pending.erase call }).dropped :=
        ⟨(Table.get_erase ..).trans (if_neg h), rfl, rfl⟩
      exact herased.trans (nextAprsChat_lane _ now h)
    · have hsent : SameLane c g (g.transmitUi aprsDestination pending.info pending.cls call) :=
        (enqueueUi_queues ..).lane c
      exact ⟨(Table.get_set_ne _ h _).trans hsent.pending, hsent.waiting, hsent.cfg⟩

theorem enqueueAprsChat_lane (g : Gateway) (body : Text) (cls : TxClass) (now : ℕ) (h : c ≠ call) :
    SameLane c g (g.enqueueAprsChat call body cls now).2 := by
  simp only [enqueueAprsChat]
  split_ifs
  · exact ⟨rfl, rfl, rfl⟩
  · exact ⟨rfl, rfl, rfl⟩
  · exact ⟨rfl, rfl, rfl⟩
  · exact ⟨rfl, Table.get_set_ne _ h _, rfl⟩
  · exact startAprsChat_lane g ⟨body.take 67, cls⟩ now h

theorem aprsChat_kept (h : Kept c g l flying) (dst : Callsign) (body : Text) (channel : Bool)
    (now : ℕ) : ∃ flying', Kept c (perform g (.aprsChat dst body channel now))
      (l.enter (entries c g (.aprsChat dst body channel now))) flying' := by
  by_cases hc : dst = c
  · subst hc
    have hrefused : ∀ r, g.enqueueAprsChat dst body (chatClass channel) now = r → r.1 = false →
        SameLane dst g r.2 → ∃ flying', Kept dst (perform g (.aprsChat dst body channel now))
          (l.enter (entries dst g (.aprsChat dst body channel now))) flying' := by
      intro r hr hfalse hsame
      refine ⟨flying, ?_⟩
      simp only [perform, entries, hr, hfalse, Bool.false_eq_true, and_false, if_false]
      exact h.same hsame
    generalize hr : g.enqueueAprsChat dst body (chatClass channel) now = r
    have hcases := hr
    simp only [enqueueAprsChat] at hcases
    split_ifs at hcases with hoff htext hflies hfull
    · exact hrefused _ hr (by rw [← hcases]) (by rw [← hcases]; exact ⟨rfl, rfl, rfl⟩)
    · exact hrefused _ hr (by rw [← hcases]) (by rw [← hcases]; exact ⟨rfl, rfl, rfl⟩)
    · exact hrefused _ hr (by rw [← hcases]) (by rw [← hcases]; exact ⟨rfl, rfl, rfl⟩)
    · -- it waits behind the one in flight
      have hsome : (inFlight dst g).isSome := hflies
      have hnot : (inFlight dst g).isNone = false := by
        rw [Option.isNone_eq_false_iff]
        exact hsome
      refine ⟨flying, ?_⟩
      simp only [perform, entries, hr, ← hcases, hnot, Bool.false_eq_true, and_self, if_true,
        if_false]
      refine ⟨h.flight, ?_, fun _ => hsome⟩
      have hwaits : waiting dst (g.withAprs { g.radio.aprsOut with
          waiting := g.radio.aprsOut.waiting.set dst
            ((g.radio.aprsOut.waiting.get dst).getD [] ++ [⟨body.take 67, chatClass channel⟩]) }) =
          waiting dst g ++ [⟨body.take 67, chatClass channel⟩] := by
        simp only [waiting, withAprs, Table.get_set_self, Option.getD_some]
      rw [hwaits, List.map_append, List.map_singleton]
      exact h.balanced.accept _
    · -- none is in flight, so none waits
      have hidle : inFlight dst g = none := by simpa [inFlight] using hflies
      have hempty : waiting dst g = [] := by
        by_contra hne
        have hsome := h.started hne
        rw [hidle] at hsome
        cases hsome
      have hflight := h.flight
      have hbalanced := h.balanced
      rw [hidle] at hflight
      cases hflight
      rw [hempty] at hbalanced
      cases hroom : g.backlogHasRoom ((messageInfo dst (body.take 67)
          g.radio.aprsOut.nextMsgid.1).length + 20) (chatClass channel) with
      | false =>
        obtain ⟨hfalse, hsame⟩ :=
          startAprsChat_refused (q := ⟨body.take 67, chatClass channel⟩) now hroom
        exact hrefused _ hr (hcases ▸ hfalse) (hcases ▸ hsame dst)
      | true =>
        obtain ⟨htrue, -, hwaits, e, hflies', hcarries⟩ :=
          startAprsChat_started (q := ⟨body.take 67, chatClass channel⟩) now hroom
        rw [hcases] at htrue hwaits hflies'
        have hleft : waiting dst r.2 = [] := by
          rw [waiting, hwaits]
          exact hempty
        refine ⟨some ⟨body.take 67, chatClass channel⟩, ?_⟩
        simp only [perform, entries, hr, htrue, hidle, Option.isNone_none, and_self, if_true]
        refine ⟨by rw [hflies']; exact .some hcarries, ?_, fun _ => by rw [hflies']; rfl⟩
        rw [hleft, ← List.singleton_append, Ledger.enter_append]
        exact (hbalanced.accept _).start [⟨body.take 67, chatClass channel⟩]
          (fun x hx => ⟨x, hx, rfl⟩) (fun x hx => ⟨x, hx, rfl⟩)
  · refine ⟨flying, ?_⟩
    simp only [entries, hc, false_and, if_false]
    exact h.same (enqueueAprsChat_lane g body _ now (Ne.symm hc))

theorem onAprsAck_kept (h : Kept c g l flying) (src : Callsign) (id : Text) (now : ℕ)
    (hroom : RoomForNext g (.aprsAnswered src id now)) :
    ∃ flying', Kept c (perform g (.aprsAnswered src id now))
      (l.enter (entries c g (.aprsAnswered src id now))) flying' := by
  by_cases hc : src = c
  · subst hc
    simp only [entries, true_and]
    split_ifs with hends
    · have hfits : NextFits src g := hroom hends
      obtain ⟨e, he, hid⟩ := (Option.any_eq_true _ _).mp hends
      have hperform : perform g (.aprsAnswered src id now) = (g.withAprs { g.radio.aprsOut with
          pending := g.radio.aprsOut.pending.erase src }).nextAprsChat src now := by
        have hget : g.radio.aprsOut.pending.get src = some e := he
        simp only [perform, onAprsAck, hget]
        rw [if_neg (not_not.mpr (by simpa using hid))]
      rw [hperform]
      exact h.ended (Option.isSome_of_mem he) hfits (g.withAprs { g.radio.aprsOut with
        pending := g.radio.aprsOut.pending.erase src }) rfl (fun _ _ => rfl) .completed now
    · refine ⟨flying, ?_⟩
      have hsame : perform g (.aprsAnswered src id now) = g := by
        simp only [perform, onAprsAck]
        split
        · rfl
        · rename_i e he
          rw [if_pos]
          intro hid
          have hget : inFlight src g = some e := he
          exact hends (by rw [hget]; simpa using hid)
      rw [hsame]
      exact h
  · refine ⟨flying, ?_⟩
    simp only [entries, hc, false_and, if_false]
    exact h.same (onAprsAck_lane g id now (Ne.symm hc))

/-- What a retry means to the messages for the station, with the gateway it leads to. -/
def retryEntries (c : Callsign) (g g' : Gateway) : List (Entry AprsQueued) :=
  if exhausted c g then endEntries c g .givenUp g' else []

theorem retryAprs_kept (h : Kept c g l flying) (now : ℕ)
    (hroom : exhausted c g = true → NextFits c g) :
    ∃ flying', Kept c (g.retryAprs c now) (l.enter (retryEntries c g (g.retryAprs c now))) flying' := by
  cases he : inFlight c g with
  | none =>
    have hnot : exhausted c g = false := by rw [exhausted, he, Option.any_none]
    have hsame : g.retryAprs c now = g := by
      have hget : g.radio.aprsOut.pending.get c = none := he
      simp only [retryAprs, hget]
    refine ⟨flying, ?_⟩
    rw [retryEntries, hnot, hsame]
    exact h
  | some e =>
    have hget : g.radio.aprsOut.pending.get c = some e := he
    have hexhausted : exhausted c g = decide (max g.radio.cfg.maxRetries 1 ≤ e.attempts) := by
      rw [exhausted, he, Option.any_some]
    by_cases hends : max g.radio.cfg.maxRetries 1 ≤ e.attempts
    · have hfits : NextFits c g := hroom (by rw [hexhausted]; exact decide_eq_true hends)
      have hretry : g.retryAprs c now = (g.withAprs { g.radio.aprsOut with
          pending := g.radio.aprsOut.pending.erase c }).dropped.nextAprsChat c now := by
        simp only [retryAprs, hget]
        rw [if_pos hends]
      rw [retryEntries, hexhausted, decide_eq_true hends, if_pos rfl, hretry]
      exact h.ended (Option.isSome_of_mem he) hfits (g.withAprs { g.radio.aprsOut with
          pending := g.radio.aprsOut.pending.erase c }).dropped rfl (fun _ _ => rfl) .givenUp now
    · have hsent := enqueueUi_queues g aprsDestination e.info e.cls false (callText c)
      have hflight := h.flight
      rw [he] at hflight
      cases hflight with
      | @some _ q hcarries =>
        refine ⟨some q, ?_⟩
        rw [retryEntries, hexhausted, decide_eq_false hends, if_neg (by decide)]
        simp only [retryAprs, hget, if_neg hends]
        have hqueue : waiting c (g.transmitUi aprsDestination e.info e.cls c) = waiting c g :=
          (hsent.lane c).queue
        refine ⟨?_, ?_, fun _ => ?_⟩
        · simp only [inFlight, withAprs, Table.get_set_self]
          exact .some hcarries
        · change Balanced Eq _ ((waiting c (g.transmitUi aprsDestination e.info e.cls c)).map _) l
          rw [hqueue]
          exact h.balanced
        · simp only [inFlight, withAprs, Table.get_set_self, Option.isSome_some]

theorem retries_lane (calls : List Callsign) (now : ℕ) (h : c ∉ calls) (g : Gateway) :
    SameLane c g (calls.foldl (fun g call => g.retryAprs call now) g) := by
  induction calls generalizing g with
  | nil => exact ⟨rfl, rfl, rfl⟩
  | cons call calls ih =>
    have hc : c ≠ call := fun heq => h (heq ▸ List.mem_cons_self)
    exact (retryAprs_lane g now hc).trans (ih (fun hmem => h (List.mem_cons_of_mem _ hmem)) _)

theorem SameLane.retryEntries (h : SameLane c g g') (g'' : Gateway) :
    retryEntries c g' g'' = retryEntries c g g'' := by
  rw [AprsQueue.retryEntries, AprsQueue.retryEntries, h.exhausted, endEntries, endEntries, nextEntries,
    nextEntries, h.queue]

/-- The station has its turn once, and the others do not touch its messages. -/
theorem retries_kept {calls : List Callsign} (now : ℕ) (hnodup : calls.Nodup) (hc : c ∈ calls)
    (h : Kept c g l flying) (hroom : RetriesFit now calls g) :
    ∃ flying', Kept c (calls.foldl (fun g call => g.retryAprs call now) g)
      (l.enter (retryEntries c g (calls.foldl (fun g call => g.retryAprs call now) g))) flying' := by
  induction calls generalizing g with
  | nil => cases hc
  | cons call calls ih =>
    obtain ⟨hcall, hnodup⟩ := List.nodup_cons.mp hnodup
    rw [List.foldl_cons]
    by_cases heq : c = call
    · subst heq
      obtain ⟨flying', hkept⟩ := retryAprs_kept h now hroom.1
      have hrest := retries_lane calls now hcall (g.retryAprs c now)
      refine ⟨flying', ?_⟩
      have hentries : retryEntries c g (calls.foldl (fun g call => g.retryAprs call now)
          (g.retryAprs c now)) = retryEntries c g (g.retryAprs c now) := by
        rw [retryEntries, retryEntries, endEntries, endEntries, nextEntries, nextEntries, hrest.inFlight]
      rw [hentries]
      exact hkept.same hrest
    · have hsame := retryAprs_lane g now heq
      have hmem : c ∈ calls := (List.mem_cons.mp hc).resolve_left heq
      rw [← hsame.retryEntries]
      exact ih hnodup hmem (h.same hsame) hroom.2

theorem tickAprs_kept (h : Kept c g l flying) (now : ℕ) (hroom : RoomForNext g (.tickAprs now)) :
    ∃ flying', Kept c (perform g (.tickAprs now)) (l.enter (entries c g (.tickAprs now))) flying' := by
  have hsilent : g.tickAprs now = g → (¬ (g.available = true ∧ g.interlockDown = false ∧ c ∈ due g now ∧
      exhausted c g = true)) → ∃ flying', Kept c (perform g (.tickAprs now))
        (l.enter (entries c g (.tickAprs now))) flying' := by
    intro hsame hnot
    refine ⟨flying, ?_⟩
    simp only [perform, entries, hsame, if_neg hnot]
    exact h
  by_cases hoff : (!g.available || g.interlockDown) = true
  · refine hsilent (by rw [tickAprs, if_pos hoff]) ?_
    rintro ⟨hon, hlock, -⟩
    simp [hon, hlock] at hoff
  · have hon : g.available = true ∧ g.interlockDown = false := by simpa using hoff
    have htick : g.tickAprs now = (due g now).foldl (fun g call => g.retryAprs call now) g := by
      rw [tickAprs, if_neg hoff]
      rfl
    have hnodup : (due g now).Nodup :=
      g.radio.aprsOut.pending.nodup.sublist (List.filter_sublist.map _)
    by_cases hdue : c ∈ due g now
    · obtain ⟨flying', hkept⟩ := retries_kept now hnodup hdue h (hroom hon.1 hon.2)
      refine ⟨flying', ?_⟩
      rw [← htick] at hkept
      have hentries : entries c g (.tickAprs now) = retryEntries c g (g.tickAprs now) := by
        simp only [entries, retryEntries, hon, hdue, true_and, perform]
      rw [hentries]
      exact hkept
    · refine ⟨flying, ?_⟩
      simp only [perform, entries, htick, hdue, false_and, and_false, if_false]
      exact h.same (retries_lane _ now hdue g)

theorem transmitAll_queues (g : Gateway) (cls : TxClass) (frames : List (Callsign × AircFrame)) :
    SameQueues g (g.transmitAll cls frames) := by
  induction frames generalizing g with
  | nil => exact ⟨rfl, rfl⟩
  | cons e frames ih => exact (enqueueUi_queues g ..).trans (ih _)

theorem withSessions_queues (g : Gateway) (s : Sessions) : SameQueues g (g.withSessions s) :=
  ⟨rfl, rfl⟩

theorem transmitId_queues (g : Gateway) (dest : Callsign) (frame : AircFrame) :
    SameQueues g (g.transmitId dest frame).2 := by
  unfold transmitId
  split_ifs
  · exact ⟨rfl, rfl⟩
  · split
    · exact ⟨rfl, rfl⟩
    · split
      · exact ⟨rfl, rfl⟩
      · split <;> exact ⟨rfl, rfl⟩

theorem sendId_queues (g : Gateway) (now : ℕ) : SameQueues g (g.sendId now).2 := by
  have hsent : ∀ payload, SameQueues g ((g.withSessions g.radio.sessions.drawSeq.2).transmitId
      idDestination (.new .id g.radio.sessions.drawSeq.1 payload)).2 :=
    fun _ => (withSessions_queues g _).trans (transmitId_queues ..)
  have h := hsent (encodeFields [utf8 (g.radio.cfg.callsign ++ ' ' :: g.radio.cfg.idText)])
  simp only [sendId]
  split <;> rename_i heq <;> rw [heq] at h <;> exact ⟨h.aprsOut, h.cfg⟩

theorem idIfNeeded_queues (g : Gateway) (now : ℕ) : SameQueues g (g.idIfNeeded now) := by
  unfold idIfNeeded
  split_ifs
  · exact sendId_queues g now
  · exact ⟨rfl, rfl⟩

theorem setInhibit_queues (g : Gateway) (b : Bool) : SameQueues g (g.setInhibit b) := by
  unfold setInhibit
  split_ifs <;> exact ⟨rfl, rfl⟩

/-- Everything else leaves the APRS messages alone. -/
theorem perform_queues (g : Gateway) (op : RadioOp)
    (hchat : ∀ dst body channel now, op ≠ .aprsChat dst body channel now)
    (hanswer : ∀ src id now, op ≠ .aprsAnswered src id now) (htick : ∀ now, op ≠ .tickAprs now) :
    SameQueues g (perform g op) := by
  cases op with
  | aprsChat dst body channel now => exact (hchat _ _ _ _ rfl).elim
  | aprsAnswered src id now => exact (hanswer _ _ _ rfl).elim
  | tickAprs now => exact (htick _ rfl).elim
  | broadcast b =>
    simp only [perform, broadcastFlagged]
    split_ifs
    · exact ⟨rfl, rfl⟩
    · exact ⟨rfl, rfl⟩
    · exact ⟨rfl, rfl⟩
    · exact ⟨rfl, rfl⟩
    · exact (withSessions_queues g _).trans (transmitAll_queues ..)
  | unicast dst m now =>
    simp only [perform, unicastFlagged]
    split_ifs
    · exact ⟨rfl, rfl⟩
    · exact ⟨rfl, rfl⟩
    · exact ⟨rfl, rfl⟩
    · exact ⟨rfl, rfl⟩
    · exact (withSessions_queues g _).trans (transmitAll_queues ..)
  | aprsAck dst msgid | aprsRej dst msgid | aprsReply dst text => exact enqueueUi_queues ..
  | receive src f now forUs => exact (withSessions_queues g _).trans (transmitAll_queues ..)
  | drainAcks | tickSessions => exact (withSessions_queues g _).trans (transmitAll_queues ..)
  | touch call now | note call n =>
    simp only [perform]
    split <;> exact ⟨rfl, rfl⟩
  | ban | liftBan | forget | takeEvicted | refuse | drainKeyed | pump => exact ⟨rfl, rfl⟩
  | maybeIdentify now =>
    simp only [perform, maybeIdentify]
    split_ifs
    · exact ⟨rfl, rfl⟩
    · exact ⟨rfl, rfl⟩
    · exact sendId_queues g now
  | idIfNeeded now => exact idIfNeeded_queues g now
  | identifyNow now =>
    have h := sendId_queues g now
    simp only [perform, identifyNow]
    split_ifs
    · exact ⟨rfl, rfl⟩
    · split <;> rename_i heq <;> rwa [heq] at h
  | radioOff now =>
    have hoff := idIfNeeded_queues g now
    have hinhibited := setInhibit_queues
      { g.idIfNeeded now with radio := { (g.idIfNeeded now).radio with enabled := false } } true
    exact ⟨hinhibited.aprsOut.trans hoff.aprsOut, hinhibited.cfg.trans hoff.cfg⟩
  | radioOn =>
    have h := setInhibit_queues g false
    simp only [perform, radioOn]
    split_ifs
    · exact ⟨h.aprsOut, h.cfg⟩
    · exact ⟨rfl, rfl⟩
  | limitDuty | limitPacing =>
    simp only [perform, overrideWith]
    split_ifs <;> exact ⟨rfl, rfl⟩

theorem perform_kept (h : Kept c g l flying) {op : RadioOp} (hroom : RoomForNext g op) :
    ∃ flying', Kept c (perform g op) (l.enter (entries c g op)) flying' := by
  by_cases hchat : ∃ dst body channel now, op = .aprsChat dst body channel now
  · obtain ⟨dst, body, channel, now, rfl⟩ := hchat
    exact aprsChat_kept h dst body channel now
  by_cases hanswer : ∃ src id now, op = .aprsAnswered src id now
  · obtain ⟨src, id, now, rfl⟩ := hanswer
    exact onAprsAck_kept h src id now hroom
  by_cases htick : ∃ now, op = .tickAprs now
  · obtain ⟨now, rfl⟩ := htick
    exact tickAprs_kept h now hroom
  · push Not at hchat hanswer htick
    refine ⟨flying, ?_⟩
    have hnone : entries c g op = [] := by
      cases op with
      | aprsChat dst body channel now => exact (hchat _ _ _ _ rfl).elim
      | aprsAnswered src id now => exact (hanswer _ _ _ rfl).elim
      | tickAprs now => exact (htick _ rfl).elim
      | _ => rfl
    rw [hnone]
    exact h.same ((perform_queues g op hchat hanswer htick).lane c)

/-! ### Runs -/

theorem kept_start (c : Callsign) (cfg : RadioConfig) (attached : Bool)
    (tnc : TransmitPump.TncConfig) : Kept c (startGateway cfg attached tnc) .empty none where
  flight := .none
  balanced := balanced_empty
  started h := absurd rfl h

theorem kept_throughout (ops : List RadioOp) (g : Gateway) (l : Ledger AprsQueued)
    (flying : Option AprsQueued) (h : Kept c g l flying)
    (hroom : ∀ e ∈ Air.befores g ops, RoomForNext e.1 e.2) :
    ∃ flying', Kept c (ops.foldl perform g)
      ((Air.befores g ops).foldl (fun l e => l.enter (entries c e.1 e.2)) l) flying' := by
  induction ops generalizing g l flying with
  | nil => exact ⟨flying, h⟩
  | cons op ops ih =>
    obtain ⟨flying', hkept⟩ := perform_kept h (hroom (g, op) List.mem_cons_self)
    exact ih _ _ flying' hkept fun e he => hroom e (List.mem_cons_of_mem _ he)

/-- When the backlog always has room for the next message, none is stranded and none is lost: every
message is in flight or waits until it comes to its end, in the order of acceptance. -/
theorem aprs_messages_kept (a : Air) (h : ∀ e ∈ a.steps, RoomForNext e.1 e.2) (c : Callsign) :
    (waiting c a.gateway ≠ [] → (inFlight c a.gateway).isSome) ∧
    ∃ flying, Option.Rel (Carries c) (inFlight c a.gateway) flying ∧
      Balanced Eq (flying.map ([·])) ((waiting c a.gateway).map ([·])) (ledger c a) := by
  obtain ⟨flying, hkept⟩ := kept_throughout a.performed a.start .empty none (kept_start c ..) h
  have hgateway : a.performed.foldl perform a.start = a.gateway := a.faithful.symm
  rw [hgateway] at hkept
  exact ⟨hkept.started, flying, hkept.flight, hkept.balanced⟩

/-! ### A small backlog -/

instance (c : Callsign) (g : Gateway) : Decidable (NextFits c g) := by
  unfold NextFits
  infer_instance

instance decideRetriesFit (now : ℕ) : (calls : List Callsign) → (g : Gateway) →
    Decidable (RetriesFit now calls g)
  | [], _ => .isTrue trivial
  | call :: calls, g =>
    have := decideRetriesFit now calls (g.retryAprs call now)
    inferInstanceAs (Decidable ((exhausted call g = true → NextFits call g) ∧ _))

instance (g : Gateway) (op : RadioOp) : Decidable (RoomForNext g op) := by
  -- not by `cases`, which would leave equations in what is evaluated
  induction op using RadioOp.casesOn <;> dsimp only [RoomForNext] <;> infer_instance

def station : Callsign := ⟨"SM0ABC", 7⟩

/-- Ten seconds of airtime may wait. -/
def smallRadio : RadioConfig := { ServerRuns.Small.radio with maxQueuedAirtime := secs 10 }

/-- Three messages for a station, so many replies for another one, and an answer to the first. -/
def answeredAfter (replies : ℕ) : Air :=
  let first := ["one", "two", "three"].map fun text => RadioOp.aprsChat station text.toList false 0
  let others := List.replicate replies
    (RadioOp.aprsReply ⟨"SM0XYZ", 0⟩ "the quick brown fox jumps over the lazy dog")
  (first ++ others ++ [RadioOp.aprsAnswered station ['1'] 1]).foldl Air.perform (.new smallRadio true .default)

/-- With room in the backlog, the second message follows the first. -/
theorem second_message_follows :
    (waiting station (answeredAfter 0).gateway ≠ [] →
      (inFlight station (answeredAfter 0).gateway).isSome) ∧
    ∃ flying, Option.Rel (Carries station) (inFlight station (answeredAfter 0).gateway) flying ∧
      Balanced Eq (flying.map ([·])) ((waiting station (answeredAfter 0).gateway).map ([·]))
        (ledger station (answeredAfter 0)) :=
  aprs_messages_kept (answeredAfter 0) (by decide +kernel) station

/-- With a full one the second message is gone, and the third waits with none in flight. -/
theorem second_message_lost :
    (inFlight station (answeredAfter 4).gateway).isNone ∧
      (waiting station (answeredAfter 4).gateway).map AprsQueued.text = ["three".toList] ∧
      (ledger station (answeredAfter 4)).accepted.map (·.map AprsQueued.text) =
        [["one".toList], ["two".toList], ["three".toList]] ∧
      (ledger station (answeredAfter 4)).fates = [.completed] := by decide +kernel

end AprsQueue
