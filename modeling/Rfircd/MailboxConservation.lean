import Rfircd.HandedOver
import Rfircd.ServerRuns

/-! What becomes of the mail that waits for a station: it is held within limits, and leaves when
the session layer or the APRS queue has it. -/
namespace MailboxConservation

open Basics Ax25 Airc AircSession KeyedTable HeldMail AprsCodec AirTrace RadioGateway ServerOutput
open MessageText HostKey RadioGateway.Gateway ServerOutput.Outlet

variable {mb : Mailbox} {perStation total : ℕ} {mail : StoredMessage}

/-! ### Limits -/

/-- A station has no more than its share, and all of them have no more than the gateway holds. -/
structure Limited (perStation total : ℕ) (mb : Mailbox) : Prop where
  share : mb.perStation = perStation
  whole : mb.total = total
  station : ∀ call, mb.depth call ≤ perStation
  all : mb.len ≤ total

theorem limited_new (enabled : Bool) (perStation total ttl : ℕ) :
    Limited perStation total (.new enabled perStation total ttl) :=
  ⟨rfl, rfl, fun _ => Nat.zero_le _, Nat.zero_le _⟩

theorem store_cases (mb : Mailbox) (dst : Callsign) (mail : StoredMessage) :
    (∃ e, mb.store dst mail = (.error e, mb)) ∨
    mb.len < mb.total ∧ mb.depth dst < mb.perStation ∧
      mb.store dst mail = (.ok (mb.depth dst + 1),
        { mb with boxes := mb.boxes.set dst (mb.queue dst ++ [mail]) }) := by
  unfold Mailbox.store
  split_ifs with hdisabled hfull hstation
  · exact .inl ⟨_, rfl⟩
  · exact .inl ⟨_, rfl⟩
  · exact .inl ⟨_, rfl⟩
  · exact .inr ⟨by omega, by omega, rfl⟩

theorem len_set (mb : Mailbox) (call : Callsign) (q : List StoredMessage) :
    { mb with boxes := mb.boxes.set call q }.len + mb.depth call = mb.len + q.length := by
  have hweight := Table.weight_set List.length mb.boxes call q
  have hdepth : mb.depth call = (mb.boxes.get call).elim 0 List.length := by
    unfold Mailbox.depth Mailbox.queue
    cases mb.boxes.get call <;> rfl
  rw [hdepth]
  exact hweight

theorem queue_set (mb : Mailbox) (call j : Callsign) (q : List StoredMessage) :
    { mb with boxes := mb.boxes.set call q }.queue j = if j = call then q else mb.queue j := by
  simp only [Mailbox.queue, Table.get_set]
  split_ifs <;> rfl

theorem Limited.store (h : Limited perStation total mb) (dst : Callsign) (mail : StoredMessage) :
    Limited perStation total (mb.store dst mail).2 := by
  obtain ⟨e, heq⟩ | ⟨hlen, hdepth, heq⟩ := store_cases mb dst mail
  · rw [heq]
    exact h
  · rw [heq]
    have hset := len_set mb dst (mb.queue dst ++ [mail])
    rw [List.length_append, List.length_singleton] at hset
    have hshare := h.share
    have hwhole := h.whole
    have hqueue : mb.depth dst = (mb.queue dst).length := rfl
    refine ⟨h.share, h.whole, fun call => ?_, by dsimp only; omega⟩
    rw [Mailbox.depth, queue_set]
    split_ifs
    · rw [List.length_append, List.length_singleton]
      omega
    · exact h.station call

/-- Only the station's own queue is a message shorter. -/
theorem dropFront_queue (mb : Mailbox) (call j : Callsign) :
    (mb.dropFront call).queue j = if j = call then (mb.queue call).tail else mb.queue j := by
  unfold Mailbox.dropFront
  cases hq : mb.boxes.get call with
  | none =>
    have hnil : mb.queue call = [] := by rw [Mailbox.queue, hq, Option.getD_none]
    rw [hnil]
    split_ifs with hj
    · rw [hj, hnil, List.tail_nil]
    · rfl
  | some q =>
    have hqueue : mb.queue call = q := by rw [Mailbox.queue, hq, Option.getD_some]
    rw [hqueue]
    dsimp only
    split_ifs with htail hj hj
    · simp only [Mailbox.queue, Table.get_erase, if_pos hj, htail, Option.getD_none]
    · simp only [Mailbox.queue, Table.get_erase, if_neg hj]
    · rw [queue_set, if_pos hj]
    · rw [queue_set, if_neg hj]

theorem Limited.dropFront (h : Limited perStation total mb) (call : Callsign) :
    Limited perStation total (mb.dropFront call) := by
  have hlen : (mb.dropFront call).len ≤ mb.len := by
    unfold Mailbox.dropFront
    cases hq : mb.boxes.get call with
    | none => exact le_rfl
    | some q =>
      dsimp only
      split_ifs
      · refine Table.weight_filterMap_le (w := List.length) (fun j v v' hv => ?_) mb.boxes
        split_ifs at hv
        exact (congrArg List.length (Option.some.inj hv)).ge
      · have hset := len_set mb call q.tail
        have hdepth : mb.depth call = q.length := by rw [Mailbox.depth, Mailbox.queue, hq, Option.getD_some]
        rw [hdepth, List.length_tail] at hset
        omega
  have hsame : (mb.dropFront call).perStation = mb.perStation ∧
      (mb.dropFront call).total = mb.total := by
    unfold Mailbox.dropFront
    split <;> exact ⟨rfl, rfl⟩
  refine ⟨hsame.1.trans h.share, hsame.2.trans h.whole, fun j => ?_, hlen.trans h.all⟩
  rw [Mailbox.depth, dropFront_queue]
  split_ifs
  · rw [List.length_tail]
    exact (Nat.sub_le _ _).trans (h.station call)
  · exact h.station j

theorem Limited.expire (h : Limited perStation total mb) (now : ℕ) :
    Limited perStation total (mb.expire now) := by
  refine ⟨h.share, h.whole, fun call => ?_, le_trans ?_ h.all⟩
  · refine le_trans ?_ (h.station call)
    simp only [Mailbox.depth, Mailbox.queue, Mailbox.expire, Table.get_filterMap]
    cases mb.boxes.get call with
    | none => exact le_rfl
    | some q =>
      rw [Option.bind_some]
      split_ifs
      · exact Nat.zero_le _
      · exact List.length_filter_le _ _
  · refine Table.weight_filterMap_le (w := List.length) (fun call q q' hq => ?_) mb.boxes
    dsimp only at hq
    split_ifs at hq
    exact Option.some.inj hq ▸ List.length_filter_le _ _

/-! ### One held message -/

/-- A held message as an AIRC station gets it. -/
def storedFor (m : Moment) (mail : StoredMessage) : Addressed :=
  .stored mail.sender mail.text (natText ((m.now - mail.storedAt) / secs 1)) mail.truncated

variable (m : Moment) (call : Callsign) (mail : StoredMessage) (g : Gateway)

/-- What is asked of the radio for it. -/
def sending : RadioOp :=
  if g.wantsAprs call then .aprsChat call (mailBody mail) false m.now
  else .unicast call (storedFor m mail) m.now

/-- What it is taken for when the backlog is asked. -/
def airOctets : ℕ :=
  if g.wantsAprs call then min (octets (mailBody mail)) 67 + 20
  else g.wireOctets ((storedFor m mail).payload call).length

/-- The transmitter, the backlog, the queue of the station and the frame queue have room for it. -/
structure Admits : Prop where
  available : g.available = true
  interlock : g.interlockDown = false
  backlog : g.backlogHasRoom (airOctets m call mail g) .direct = true
  airc : g.wantsAprs call = false → g.radio.sessions.canAccept call = true ∧
    (g.queuedBehind call true = false →
      g.expectedFragments ((storedFor m mail).payload call) ≤ g.txRoomIn .direct)
  aprs : g.wantsAprs call = true → (g.radio.aprsOut.pending.get call).isSome →
    ((g.radio.aprsOut.waiting.get call).getD []).length < aprsWaitingMax

variable {m call mail g}

/-- The session layer has the message: it is in flight to the station, or waits behind others. -/
def InSession (s : Sessions) (call : Callsign) (payload : List UInt8) : Prop :=
  ∃ frames ∈ (s.record call).outbox, frames.flatMap AircFrame.payload = payload

/-- The APRS queue has the text, in flight or waiting. -/
def InAprs (out : AprsOutbound) (call : Callsign) (text : Text) : Prop :=
  (∃ e, out.pending.get call = some e ∧ e.info = messageInfo call text e.msgid) ∨
    ∃ q, out.waiting.get call = some q ∧ ⟨text, .direct⟩ ∈ q

/-- It was sent through open gates, and is in the keeping of the layer that sends it. -/
structure Given (m : Moment) (call : Callsign) (mail : StoredMessage) (e : Gateway × RadioOp) :
    Prop where
  op : e.2 = sending m call mail e.1
  admits : Admits m call mail e.1
  airc : e.1.wantsAprs call = false →
    InSession (AirTrace.perform e.1 e.2).radio.sessions call ((storedFor m mail).payload call)
  aprs : e.1.wantsAprs call = true →
    InAprs (AirTrace.perform e.1 e.2).radio.aprsOut call ((mailBody mail).take 67)

/-- It was refused: no frame is queued for it, and the queues of the station are as before. -/
structure Refused (m : Moment) (call : Callsign) (mail : StoredMessage) (e : Gateway × RadioOp) :
    Prop where
  op : e.2 = sending m call mail e.1
  pump : (AirTrace.perform e.1 e.2).pump = e.1.pump
  outbox : ((AirTrace.perform e.1 e.2).radio.sessions.record call).outbox =
    (e.1.radio.sessions.record call).outbox
  pending : (AirTrace.perform e.1 e.2).radio.aprsOut.pending = e.1.radio.aprsOut.pending
  waiting : (AirTrace.perform e.1 e.2).radio.aprsOut.waiting = e.1.radio.aprsOut.waiting

theorem fragments_content (kind : Kind) (seq : UInt16) (reliable : Bool) (parts : List (List UInt8)) :
    (fragments kind seq reliable parts).flatMap AircFrame.payload = parts.flatten := by
  have hmap : (fragments kind seq reliable parts).map AircFrame.payload = parts := by
    refine List.ext_getElem (by simp [fragments]) fun i h₁ h₂ => ?_
    simp [fragments, AircFrame.new]
  rw [List.flatMap_def, hmap]

/-- An accepted reliable message is the last in the outbox; a refused one leaves it alone. -/
theorem enqueue_outbox (cfg : SessionConfig) (p : Peer) (seq : UInt16) (kind : Kind)
    (payload : List UInt8) :
    (p.enqueue cfg seq kind payload true).2.accepted = true ∧
      (∃ frames ∈ (p.enqueue cfg seq kind payload true).1.outbox,
        frames.flatMap AircFrame.payload = payload) ∨
    (p.enqueue cfg seq kind payload true).2.accepted = false ∧
      (p.enqueue cfg seq kind payload true).1.outbox = p.outbox := by
  have hcontent : (fragments kind seq true (p.parts cfg payload true)).flatMap AircFrame.payload =
      payload := by
    rw [fragments_content]
    exact chunkPayload_flatten (maxPayload_pos cfg) payload _
  rcases enqueue_cases cfg p seq kind payload true with ⟨q, heq, -, hout⟩ | ⟨-, ⟨hr, -⟩ |
      ⟨-, -, -, heq⟩ | ⟨-, -, heq⟩ | ⟨acked, -, -, -, heq⟩⟩
  · rw [heq]
    exact .inr ⟨rfl, hout.outbox⟩
  · cases hr
  · rw [heq]
    refine .inl ⟨rfl, _, ?_, hcontent⟩
    exact List.mem_append_right _ (List.mem_append_right _ (List.mem_singleton_self _))
  · rw [heq]
    exact .inl ⟨rfl, _, List.mem_cons_self, hcontent⟩
  · rw [heq]
    exact .inl ⟨rfl, _, List.mem_cons_self, hcontent⟩

theorem sessions_enqueue_outbox (s : Sessions) (dst : Callsign) (kind : Kind)
    (payload : List UInt8) (now : ℕ) :
    (s.enqueue dst kind payload true now).2.accepted = true ∧
      InSession (s.enqueue dst kind payload true now).1 dst payload ∨
    (s.enqueue dst kind payload true now).2.accepted = false ∧
      ((s.enqueue dst kind payload true now).1.record dst).outbox = (s.record dst).outbox := by
  obtain ⟨t, -, hpeers, heq | ⟨p, -, hout, heq⟩⟩ := s.enqueue_cases dst kind payload true now
  · have hsame : t.record dst = s.record dst := by
      apply Sessions.record_of_peer
      rcases hpeers dst with h | ⟨h, -⟩
      · exact h
      · exact absurd rfl h
    rw [heq, hsame]
    exact .inr ⟨rfl, rfl⟩
  · rw [heq]
    unfold InSession
    rw [Sessions.record_store_self]
    rcases enqueue_outbox s.config p s.nextSeq kind payload with h | ⟨hrefused, hsame⟩
    · exact .inl h
    · exact .inr ⟨hrefused, hsame.trans hout.outbox⟩

theorem noteAirc_outbox (s : Sessions) (dst : Callsign) :
    ((noteAirc s dst).record dst).outbox = (s.record dst).outbox := by
  unfold noteAirc
  split
  · rfl
  · rename_i p hp
    rw [Sessions.record_store_self, Sessions.record, hp]
    rfl

theorem refused_of_same {g' : Gateway} (h : AirTrace.perform g (sending m call mail g) = g')
    (hpump : g'.pump = g.pump) (hsessions : g'.radio.sessions = g.radio.sessions)
    (hpending : g'.radio.aprsOut.pending = g.radio.aprsOut.pending)
    (hwaiting : g'.radio.aprsOut.waiting = g.radio.aprsOut.waiting) :
    Refused m call mail (g, sending m call mail g) := by
  subst h
  exact ⟨rfl, hpump, congrArg (fun s => (s.record call).outbox) hsessions, hpending, hwaiting⟩

/-- A unicast that is worth a retry is accepted through open gates, or refused. -/
theorem unicast_given (g : Gateway) (m : Moment) (call : Callsign) (mail : StoredMessage)
    (hg : g.wantsAprs call = false) (haccept : g.radio.sessions.canAccept call = true)
    (hroom : g.backlogHasRoom (airOctets m call mail g) .direct = true) :
    let r := g.unicastFlagged call .stored ((storedFor m mail).payload call) true .direct
      (storedFor m mail).flags m.now
    r.1 = true ∧ Given m call mail (g, sending m call mail g) ∨
      r.1 = false ∧ Refused m call mail (g, sending m call mail g) := by
  intro r
  have hop : sending m call mail g = .unicast call (storedFor m mail) m.now := by
    rw [sending, hg]
    rfl
  have hperform : AirTrace.perform g (sending m call mail g) = r.2 := by
    rw [hop]
    rfl
  have hr : r = g.unicastFlagged call .stored ((storedFor m mail).payload call) true .direct
      (storedFor m mail).flags m.now := rfl
  unfold Gateway.unicastFlagged at hr
  split_ifs at hr with hoff hbacklog hframes
  · exact .inr ⟨by rw [hr], refused_of_same (hperform.trans (congrArg Prod.snd hr)) rfl rfl rfl rfl⟩
  · exact .inr ⟨by rw [hr], refused_of_same (hperform.trans (congrArg Prod.snd hr)) rfl rfl rfl rfl⟩
  · exact .inr ⟨by rw [hr], refused_of_same (hperform.trans (congrArg Prod.snd hr)) rfl rfl rfl rfl⟩
  · have hon : g.available = true ∧ g.interlockDown = false := by simpa using hoff
    have hframes : g.queuedBehind call true = false →
        g.expectedFragments ((storedFor m mail).payload call) ≤ g.txRoomIn .direct := by
      simpa using hframes
    rcases sessions_enqueue_outbox g.radio.sessions call .stored ((storedFor m mail).payload call)
        m.now with ⟨haccepted, hin⟩ | ⟨hrefused, hsame⟩
    · dsimp only at hr
      rw [haccepted] at hr
      refine .inl ⟨by rw [hr]; rfl, rfl, ⟨hon.1, hon.2, hroom, fun _ => ⟨haccept, hframes⟩, ?_⟩, ?_, ?_⟩
      · intro haprs
        rw [hg] at haprs
        cases haprs
      · intro _
        dsimp only
        rw [hperform, hr]
        change InSession (transmitAll _ _ _).radio.sessions call _
        rw [transmitAll_sessions]
        unfold InSession
        change ∃ frames ∈ ((noteAirc _ call).record call).outbox, _
        rw [noteAirc_outbox]
        exact hin
      · intro haprs
        dsimp only at haprs
        rw [hg] at haprs
        cases haprs
    · dsimp only at hr
      rw [hrefused] at hr
      refine .inr ⟨by rw [hr]; rfl, rfl, ?_, ?_, ?_, ?_⟩ <;> dsimp only <;> rw [hperform, hr]
      · rfl
      · exact hsame
      · rfl
      · rfl

/-- The same for APRS chat. -/
theorem aprsChat_given (g : Gateway) (m : Moment) (call : Callsign) (mail : StoredMessage)
    (hg : g.wantsAprs call = true)
    (hroom : g.backlogHasRoom (airOctets m call mail g) .direct = true) :
    let r := g.enqueueAprsChat call (mailBody mail) .direct m.now
    r.1 = true ∧ Given m call mail (g, sending m call mail g) ∨
      r.1 = false ∧ Refused m call mail (g, sending m call mail g) := by
  intro r
  have hop : sending m call mail g = .aprsChat call (mailBody mail) false m.now := by
    rw [sending, hg]
    rfl
  have hperform : AirTrace.perform g (sending m call mail g) = r.2 := by
    rw [hop]
    rfl
  have hgiven : ∀ g', r = (true, g') → g.available = true → g.interlockDown = false →
      ((g.radio.aprsOut.pending.get call).isSome →
        ((g.radio.aprsOut.waiting.get call).getD []).length < aprsWaitingMax) →
      InAprs g'.radio.aprsOut call ((mailBody mail).take 67) →
      Given m call mail (g, sending m call mail g) := by
    intro g' heq havailable hinterlock hwaiting hin
    refine ⟨rfl, ⟨havailable, hinterlock, hroom, ?_, fun _ => hwaiting⟩, ?_, ?_⟩
    · intro hairc
      rw [hg] at hairc
      cases hairc
    · intro hairc
      dsimp only at hairc
      rw [hg] at hairc
      cases hairc
    · intro _
      dsimp only
      rw [hperform, heq]
      exact hin
  have hr : r = g.enqueueAprsChat call (mailBody mail) .direct m.now := rfl
  simp only [Gateway.enqueueAprsChat] at hr
  split_ifs at hr with hoff htext hpending hfull
  · exact .inr ⟨by rw [hr], refused_of_same (hperform.trans (congrArg Prod.snd hr)) rfl rfl rfl rfl⟩
  · exact .inr ⟨by rw [hr], refused_of_same (hperform.trans (congrArg Prod.snd hr)) rfl rfl rfl rfl⟩
  · exact .inr ⟨by rw [hr], refused_of_same (hperform.trans (congrArg Prod.snd hr)) rfl rfl rfl rfl⟩
  · have hon : g.available = true ∧ g.interlockDown = false := by simpa using hoff
    refine .inl ⟨by rw [hr], hgiven _ hr hon.1 hon.2 (fun _ => by omega) (.inr ?_)⟩
    exact ⟨_, Table.get_set_self .., List.mem_append_right _ (List.mem_singleton_self _)⟩
  · have hon : g.available = true ∧ g.interlockDown = false := by simpa using hoff
    simp only [Gateway.startAprsChat] at hr
    split_ifs at hr with hbacklog
    · exact .inr ⟨by rw [hr], refused_of_same (hperform.trans (congrArg Prod.snd hr)) rfl rfl rfl rfl⟩
    · refine .inl ⟨by rw [hr], hgiven _ hr hon.1 hon.2 (fun h => absurd h hpending) (.inl ?_)⟩
      exact ⟨_, Table.get_set_self .., rfl⟩

/-- A message is let through and leaves the mailbox, or stays there. -/
theorem flushOne_cases (o : Outlet) (m : Moment) (call : Callsign) (mail : StoredMessage) :
    o.flushOne m call mail = (false, o) ∨
    Refused m call mail (o.gateway, sending m call mail o.gateway) ∧
      o.flushOne m call mail = (false, o.perform (sending m call mail o.gateway)) ∨
    Given m call mail (o.gateway, sending m call mail o.gateway) ∧
      o.flushOne m call mail = (true,
        { (o.perform (sending m call mail o.gateway)).record mail.origin mail.text with
          mailbox := o.mailbox.dropFront call }) := by
  unfold flushOne
  by_cases hg : o.gateway.wantsAprs call = true
  · have hop : sending m call mail o.gateway = .aprsChat call (mailBody mail) false m.now := by
      rw [sending, hg]
      rfl
    simp only [if_pos hg]
    split_ifs with hroom haccepted
    · exact .inl rfl
    · have hgiven := aprsChat_given o.gateway m call mail hg (by simpa [airOctets, hg] using hroom)
      dsimp only [Outlet.aprsChat] at haccepted
      refine .inr (.inr ⟨(hgiven.resolve_right ?_).2, ?_⟩)
      · rintro ⟨hrefused, -⟩
        rw [hrefused] at haccepted
        cases haccepted
      · rw [hop]
        rfl
    · have hgiven := aprsChat_given o.gateway m call mail hg (by simpa [airOctets, hg] using hroom)
      refine .inr (.inl ⟨(hgiven.resolve_left fun h => haccepted h.1).2, ?_⟩)
      rw [hop]
      exact Prod.ext (by simpa using haccepted) rfl
  · have hg : o.gateway.wantsAprs call = false := by simpa using hg
    have hop : sending m call mail o.gateway = .unicast call (storedFor m mail) m.now := by
      rw [sending, hg]
      rfl
    simp only [hg, Bool.false_eq_true, if_false]
    split_ifs with hroom haccept haccepted
    · exact .inl rfl
    · exact .inl rfl
    · have hgiven := unicast_given o.gateway m call mail hg (by simpa [Outlet.sessions] using haccept)
        (by simpa [airOctets, hg, storedFor] using hroom)
      refine .inr (.inr ⟨(hgiven.resolve_right ?_).2, ?_⟩)
      · rintro ⟨hrefused, -⟩
        exact absurd (hrefused.symm.trans haccepted) (by decide)
      · rw [hop]
        rfl
    · have hgiven := unicast_given o.gateway m call mail hg (by simpa [Outlet.sessions] using haccept)
        (by simpa [airOctets, hg, storedFor] using hroom)
      refine .inr (.inl ⟨(hgiven.resolve_left fun h => haccepted h.1).2, ?_⟩)
      rw [hop]
      exact Prod.ext (by simpa using haccepted) rfl

/-! ### A batch -/

/-- What left the mailbox is what was given, in the order it was stored; at most one more was asked
for, and refused. -/
structure Flushed (m : Moment) (call : Callsign) (o o' : Outlet) (taken left : List StoredMessage)
    (sent back : List (Gateway × RadioOp)) : Prop where
  queue : o.mailbox.queue call = taken ++ left
  kept : o'.mailbox.queue call = left
  others : ∀ j, j ≠ call → o'.mailbox.queue j = o.mailbox.queue j
  steps : o'.air.steps = o.air.steps ++ (sent ++ back)
  given : List.Forall₂ (Given m call) taken sent
  refused : ∀ e ∈ back, ∃ mail ∈ left.head?, Refused m call mail e
  once : back.length ≤ 1

theorem flushed_refl (m : Moment) (call : Callsign) (o : Outlet) :
    Flushed m call o o [] (o.mailbox.queue call) [] [] where
  queue := rfl
  kept := rfl
  others _ _ := rfl
  steps := (List.append_nil _).symm
  given := .nil
  refused _ he := absurd he List.not_mem_nil
  once := Nat.zero_le _

theorem steps_perform (o : Outlet) (op : RadioOp) :
    (o.perform op).air.steps = o.air.steps ++ [(o.gateway, op)] := by
  have hsnoc : ∀ (ops : List RadioOp) (g : Gateway), Air.befores g (ops ++ [op]) =
      Air.befores g ops ++ [(ops.foldl AirTrace.perform g, op)] := by
    intro ops
    induction ops with
    | nil => exact fun _ => rfl
    | cons x ops ih => exact fun g => congrArg (_ :: ·) (ih _)
  have hgateway : o.gateway = o.air.performed.foldl AirTrace.perform o.air.start := o.air.faithful
  rw [hgateway]
  exact hsnoc o.air.performed o.air.start

theorem flushBatch_flushed (m : Moment) (call : Callsign) (n : ℕ) (o : Outlet) :
    ∃ taken left sent back, Flushed m call o (o.flushBatch m call n) taken left sent back := by
  induction n generalizing o with
  | zero => exact ⟨_, _, _, _, flushed_refl m call o⟩
  | succ n ih =>
    unfold flushBatch
    cases hpeek : o.mailbox.peek call with
    | none => exact ⟨_, _, _, _, flushed_refl m call o⟩
    | some mail =>
      have hhead : (o.mailbox.queue call).head? = some mail := hpeek
      rcases flushOne_cases o m call mail with heq | ⟨hrefused, heq⟩ | ⟨hgiven, heq⟩
      · simp only [heq]
        exact ⟨_, _, _, _, flushed_refl m call o⟩
      · simp only [heq]
        refine ⟨[], o.mailbox.queue call, [], [(o.gateway, sending m call mail o.gateway)],
          rfl, rfl, fun _ _ => rfl, steps_perform o _, .nil, fun e he => ?_, le_rfl⟩
        obtain rfl := List.mem_singleton.mp he
        exact ⟨mail, hhead, hrefused⟩
      · simp only [heq]
        -- the batch goes on with the rest of the queue
        obtain ⟨taken, left, sent, back, h⟩ := ih
          { (o.perform (sending m call mail o.gateway)).record mail.origin mail.text with
            mailbox := o.mailbox.dropFront call }
        have hqueue : (o.mailbox.dropFront call).queue call = taken ++ left := h.queue
        rw [dropFront_queue, if_pos rfl] at hqueue
        refine ⟨mail :: taken, left, (o.gateway, sending m call mail o.gateway) :: sent, back, ?_,
          h.kept, fun j hj => ?_, ?_, .cons hgiven h.given, h.refused, h.once⟩
        · rw [List.cons_append, ← hqueue]
          exact List.eq_cons_of_mem_head? hhead
        · refine (h.others j hj).trans ?_
          exact (dropFront_queue ..).trans (if_neg hj)
        · have hsteps := h.steps
          change _ = (o.perform (sending m call mail o.gateway)).air.steps ++ (sent ++ back) at hsteps
          rw [hsteps, steps_perform, List.append_assoc]
          rfl

/-- While the transmitter is off, unlinked or interlocked, nothing is taken out. -/
theorem flushMailbox_closed {o : Outlet} (h : o.gateway.available = false ∨
    o.gateway.pump.shared.inhibit = true ∨ o.gateway.interlockDown = true) (m : Moment)
    (call : Callsign) : o.flushMailbox m call = o := by
  unfold flushMailbox
  split_ifs with hdepth hclosed
  · rfl
  · rfl
  · rcases h with h | h | h <;> simp [h] at hclosed

theorem flushMailbox_flushed (o : Outlet) (m : Moment) (call : Callsign) :
    ∃ taken left sent back, Flushed m call o (o.flushMailbox m call) taken left sent back := by
  unfold flushMailbox
  split_ifs
  · exact ⟨_, _, _, _, flushed_refl m call o⟩
  · exact ⟨_, _, _, _, flushed_refl m call o⟩
  · exact flushBatch_flushed m call _ o

/-! ### Sequences -/

/-- What is done with the mailbox, and with the radio between. -/
inductive MailOp where
  | store (dst : Callsign) (mail : StoredMessage)
  | expire (now : ℕ)
  | flush (m : Moment) (call : Callsign)
  | radio (op : RadioOp)

def apply (o : Outlet) : MailOp → Outlet
  | .store dst mail => { o with mailbox := (o.mailbox.store dst mail).2 }
  | .expire now => { o with mailbox := o.mailbox.expire now }
  | .flush m call => o.flushMailbox m call
  | .radio op => o.perform op

theorem flushBatch_limited (m : Moment) (call : Callsign) (n : ℕ) {o : Outlet}
    (h : Limited perStation total o.mailbox) :
    Limited perStation total (o.flushBatch m call n).mailbox := by
  induction n generalizing o with
  | zero => exact h
  | succ n ih =>
    unfold flushBatch
    cases hpeek : o.mailbox.peek call with
    | none => exact h
    | some mail =>
      rcases flushOne_cases o m call mail with heq | ⟨-, heq⟩ | ⟨-, heq⟩
      · simp only [heq]
        exact h
      · simp only [heq]
        exact h
      · simp only [heq]
        exact ih (h.dropFront call)

theorem apply_limited {o : Outlet} (h : Limited perStation total o.mailbox) (e : MailOp) :
    Limited perStation total (apply o e).mailbox := by
  cases e with
  | store dst mail => exact h.store dst mail
  | expire now => exact h.expire now
  | flush m call =>
    simp only [apply]
    unfold flushMailbox
    split_ifs
    · exact h
    · exact h
    · exact flushBatch_limited m call _ h
  | radio op => exact h

theorem foldl_limited (es : List MailOp) {o : Outlet} (h : Limited perStation total o.mailbox) :
    Limited perStation total (es.foldl apply o).mailbox := by
  induction es generalizing o with
  | nil => exact h
  | cons e es ih => exact ih (apply_limited h e)

/-- Mail leaves the mailbox from the front, with each message in the keeping of the layer that
sends it; what is refused stays, a refused message is not stored, and the limits hold. -/
theorem mailbox_conserved :
    (∀ (o : Outlet) (m : Moment) (call : Callsign), ∃ taken left sent back,
      Flushed m call o (o.flushMailbox m call) taken left sent back) ∧
    (∀ (o : Outlet) (m : Moment) (call : Callsign), o.gateway.available = false ∨
      o.gateway.pump.shared.inhibit = true ∨ o.gateway.interlockDown = true →
      o.flushMailbox m call = o) ∧
    (∀ (mb : Mailbox) (dst : Callsign) (mail : StoredMessage) (e : StoreError),
      (mb.store dst mail).1 = .error e → (mb.store dst mail).2 = mb) ∧
    ∀ (o : Outlet) (enabled : Bool) (perStation total ttl : ℕ) (es : List MailOp),
      o.mailbox = .new enabled perStation total ttl →
      (∀ call, (es.foldl apply o).mailbox.depth call ≤ perStation) ∧
        (es.foldl apply o).mailbox.len ≤ total := by
  refine ⟨flushMailbox_flushed, fun o m call h => flushMailbox_closed h m call, ?_, ?_⟩
  · intro mb dst mail e h
    obtain ⟨e', heq⟩ | ⟨-, -, heq⟩ := store_cases mb dst mail
    · rw [heq]
    · rw [heq] at h
      cases h
  · intro o enabled perStation total ttl es hmailbox
    have hlimited := foldl_limited es (hmailbox ▸ limited_new enabled perStation total ttl)
    exact ⟨hlimited.station, hlimited.all⟩

/-! A mailbox for one message a station. -/

def letter (text : Text) : StoredMessage := ⟨"anna", text, false, false, 0, .gateway⟩

def small : Outlet :=
  { ServerRuns.Small.start.outlet with mailbox := .new true 1 2 60 }

def station : Callsign := ServerRuns.Small.station

/-- The second message is refused, and the first goes out when the station is heard. -/
theorem second_letter_refused :
    (∃ taken left sent back, Flushed (ServerRuns.Small.second 1) station
      (apply small (.store station (letter "hi")))
      ((apply small (.store station (letter "hi"))).flushMailbox (ServerRuns.Small.second 1) station)
      taken left sent back) ∧
    (small.perform (.radioOff 0)).flushMailbox (ServerRuns.Small.second 1) station =
      small.perform (.radioOff 0) ∧
    ((apply small (.store station (letter "hi"))).mailbox.store station (letter "again")).2 =
      (apply small (.store station (letter "hi"))).mailbox ∧
    ([MailOp.store station (letter "hi"), .flush (ServerRuns.Small.second 1) station].foldl apply
      small).mailbox.depth station ≤ 1 :=
  ⟨mailbox_conserved.1 _ _ _,
    mailbox_conserved.2.1 _ _ _ (by decide +kernel),
    mailbox_conserved.2.2.1 _ _ _ .stationFull (by decide +kernel),
    (mailbox_conserved.2.2.2 small true 1 2 60 _ rfl).1 station⟩

example : (small.mailbox.store station (letter "hi")).2.depth station = 1 ∧
    ((apply small (.store station (letter "hi"))).flushMailbox (ServerRuns.Small.second 1)
      station).mailbox.depth station = 0 := by decide +kernel

end MailboxConservation
