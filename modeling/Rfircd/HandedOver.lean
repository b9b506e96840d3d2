import Rfircd.AirTrace
import Rfircd.RadioSteps

/-! What the server hands to its transmitter.
A property of frames that every operation respects holds of all frames that wait or are in hand;
APRS messages have it from the start, since they go out again later. -/
namespace HandedOver

open Basics Airc AircSession KeyedTable Ax25 TransmitScheduler TransmitPump RadioGateway AprsCodec
open AirTrace

/-- Every frame that an information field becomes has the property. -/
def Makes (P : TransmitScheduler.Class → Ax25Frame → Prop) (path : List Callsign)
    (cls : TransmitScheduler.Class) (info : List UInt8) : Prop :=
  ∀ source dest ax, Ax25Frame.ui source dest path info = some ax → P cls ax

/-- The same of the frame that would go out now, if any does. -/
def MakesNow (P : TransmitScheduler.Class → Ax25Frame → Prop) (g : Gateway)
    (cls : TransmitScheduler.Class) (dest : Callsign) (info : List UInt8) : Prop :=
  ∀ ax, g.transmittable dest info = some ax → P cls ax

def idFrame (cfg : RadioConfig) (seq : UInt16) : AircFrame :=
  .new .id seq (encodeFields [utf8 (cfg.callsign ++ ' ' :: cfg.idText)])

variable {P : TransmitScheduler.Class → Ax25Frame → Prop} {cfg : RadioConfig} {tnc : TncConfig}
  {g g' : Gateway}

structure Keeps (P : TransmitScheduler.Class → Ax25Frame → Prop) (cfg : RadioConfig)
    (tnc : TncConfig) (g : Gateway) : Prop where
  config : g.radio.cfg = cfg
  settings : g.pump.cfg = tnc
  held : ∀ x ∈ g.pump.held, P x.cls x.payload
  pending : ∀ e ∈ g.radio.aprsOut.pending.entries,
    Makes P cfg.path e.2.cls.schedulerClass e.2.info
  waiting : ∀ e ∈ g.radio.aprsOut.waiting.entries, ∀ q ∈ e.2, ∀ id : Text, (utf8 id).length ≤ 5 →
    Makes P cfg.path q.cls.schedulerClass (messageInfo e.1 q.text id)

/-- What an operation hands over, now or later, has the property. -/
def Hands (P : TransmitScheduler.Class → Ax25Frame → Prop) (g : Gateway) : RadioOp → Prop
  | .broadcast b => ∀ f ∈ Gateway.broadcastFrames b.kind g.radio.sessions.drawSeq.1
      (g.broadcastChunks b.payload) b.flags, Makes P g.radio.cfg.path .chat f.encode
  | .unicast dst m now =>
    ∀ f ∈ (g.radio.sessions.enqueue dst m.kind (m.payload dst) m.reliable now).2.frames,
      Makes P g.radio.cfg.path m.cls.schedulerClass (f.withFlags m.flags).encode
  | .aprsChat dst body channel _ => ∀ id : Text, (utf8 id).length ≤ 5 →
      Makes P g.radio.cfg.path (chatClass channel).schedulerClass
        (messageInfo dst (body.take 67) id)
  | .aprsAck dst msgid => Makes P g.radio.cfg.path .ack (ackInfo dst msgid)
  | .aprsRej dst msgid => Makes P g.radio.cfg.path .ack (rejInfo dst msgid)
  | .aprsReply dst text => Makes P g.radio.cfg.path .control (replyInfo dst text)
  | .receive src f now forUs =>
    ∀ next ∈ (g.radio.sessions.onReceive src f now forUs).2.transmit,
      MakesNow P g .ack src next.encode
  | .drainAcks => ∀ e ∈ g.radio.sessions.drainAcks.2, Makes P g.radio.cfg.path .ack e.2.encode
  | .tickSessions now =>
    ∀ e ∈ (g.radio.sessions.tickRetries now (g.available && !g.interlockDown)).2.transmit,
      Makes P g.radio.cfg.path .control e.2.encode
  | .maybeIdentify _ | .idIfNeeded _ | .identifyNow _ | .radioOff _ =>
    ∀ seq, Makes P g.radio.cfg.path .id (idFrame g.radio.cfg seq).encode
  | _ => True

/-! ### One frame -/

theorem transmittable_ui {dest : Callsign} {info : List UInt8} {ax : Ax25Frame}
    (h : g.transmittable dest info = some ax) :
    ∃ source, Ax25Frame.ui source dest g.radio.cfg.path info = some ax := by
  unfold Gateway.transmittable at h
  cases hs : g.radio.source with
  | none => simp [hs] at h
  | some source =>
    simp only [hs] at h
    split_ifs at h
    exact ⟨source, h⟩

theorem Makes.now {cls : TransmitScheduler.Class} {info : List UInt8}
    (h : Makes P g.radio.cfg.path cls info) (dest : Callsign) : MakesNow P g cls dest info := by
  intro ax hax
  obtain ⟨source, hui⟩ := transmittable_ui hax
  exact h source dest ax hui

/-- Nothing is handed over. -/
theorem Keeps.of_same (h : Keeps P cfg tnc g) (hcfg : g'.radio.cfg = g.radio.cfg)
    (htnc : g'.pump.cfg = g.pump.cfg) (hpump : g'.pump.held = g.pump.held)
    (haprs : g'.radio.aprsOut = g.radio.aprsOut) : Keeps P cfg tnc g' where
  config := hcfg.trans h.config
  settings := htnc.trans h.settings
  held := hpump ▸ h.held
  pending := haprs ▸ h.pending
  waiting := haprs ▸ h.waiting

theorem notifyWaiters_cfg (p : Pump) : p.notifyWaiters.cfg = p.cfg := by
  unfold Pump.notifyWaiters
  split <;> rfl

theorem tncEnqueue_cfg (p : Pump) (frame : Ax25Frame) (cls : TransmitScheduler.Class) (account : Text)
    (expectsReply : Bool) : (tncEnqueue p frame cls account expectsReply).2.cfg = p.cfg := by
  have hnext : ∀ item, (p.next (.enqueue item)).1.cfg = p.cfg := by
    intro item
    simp only [Pump.next]
    split <;> rfl
  unfold tncEnqueue
  dsimp only
  split
  · exact (notifyWaiters_cfg _).trans (hnext _)
  · exact hnext _

/-- One frame, taken or refused. -/
theorem Keeps.enqueued (h : Keeps P cfg tnc g) {ax : Ax25Frame} {cls : TransmitScheduler.Class}
    (account : Text) (expectsReply : Bool) (hax : P cls ax) :
    ∀ x ∈ (tncEnqueue g.pump ax cls account expectsReply).2.held, P x.cls x.payload := by
  intro x hx
  rcases tncEnqueue_cases g.pump ax cls account expectsReply with ⟨q, hq, -, ht⟩ | ⟨q, hq, -, hr⟩
  · rw [hq, ht.held] at hx
    rcases Multiset.mem_cons.mp hx with rfl | hx
    · exact hax
    · exact h.held x hx
  · rw [hq, hr.held] at hx
    exact h.held x hx

theorem enqueueUi_aprsOut (g : Gateway) (dest : Callsign) (info : List UInt8) (cls : TxClass)
    (expectsReply : Bool) (account : Text) :
    (g.enqueueUi dest info cls expectsReply account).radio.aprsOut = g.radio.aprsOut := by
  unfold Gateway.enqueueUi
  cases g.transmittable dest info with
  | none => rfl
  | some ax =>
    simp only
    rcases tncEnqueue g.pump ax cls.schedulerClass account expectsReply with ⟨- | -, q⟩ <;> rfl

theorem enqueueUi_keeps (h : Keeps P cfg tnc g) {dest : Callsign} {info : List UInt8} {cls : TxClass}
    {expectsReply : Bool} {account : Text} (hinfo : MakesNow P g cls.schedulerClass dest info) :
    Keeps P cfg tnc (g.enqueueUi dest info cls expectsReply account) := by
  unfold Gateway.enqueueUi
  cases hax : g.transmittable dest info with
  | none => exact h
  | some ax =>
    have henqueued := h.enqueued account expectsReply (hinfo ax hax)
    have hcfg := tncEnqueue_cfg g.pump ax cls.schedulerClass account expectsReply
    dsimp only
    generalize tncEnqueue g.pump ax cls.schedulerClass account expectsReply = taken at henqueued hcfg ⊢
    rcases taken with ⟨- | -, q⟩
    · exact ⟨h.config, hcfg.trans h.settings, henqueued, h.pending, h.waiting⟩
    · exact ⟨h.config, hcfg.trans h.settings, henqueued, h.pending, h.waiting⟩

/-- The transmitter goes on as it did. -/
theorem enqueueUi_transmittable (g : Gateway) (dest : Callsign) (info : List UInt8) (cls : TxClass)
    (expectsReply : Bool) (account : Text) :
    (g.enqueueUi dest info cls expectsReply account).transmittable = g.transmittable := by
  unfold Gateway.enqueueUi
  cases g.transmittable dest info with
  | none => rfl
  | some ax =>
    have hsame : ∀ q : Pump, q.shared.interlockOk = g.pump.shared.interlockOk →
        ({ g with pump := q } : Gateway).transmittable = g.transmittable := by
      intro q hq
      unfold Gateway.transmittable AirtimeShared.interlockFailed
      simp only [hq]
    dsimp only
    rcases tncEnqueue_cases g.pump ax cls.schedulerClass account expectsReply with
      ⟨q, hq, -, ht⟩ | ⟨q, hq, -, hr⟩
    · rw [hq]
      exact hsame q ht.interlock
    · rw [hq]
      exact hsame q (congrArg AirtimeShared.interlockOk hr.shared)

theorem transmitAll_keeps {cls : TxClass} {frames : List (Callsign × AircFrame)}
    (h : Keeps P cfg tnc g)
    (hframes : ∀ e ∈ frames, MakesNow P g cls.schedulerClass e.1 e.2.encode) :
    Keeps P cfg tnc (g.transmitAll cls frames) := by
  induction frames generalizing g with
  | nil => exact h
  | cons e frames ih =>
    have hone : Keeps P cfg tnc (g.transmitDirect e.1 e.2 cls) :=
      enqueueUi_keeps h (hframes e List.mem_cons_self)
    refine ih hone fun d hd => ?_
    have hsame : (g.transmitDirect e.1 e.2 cls).transmittable = g.transmittable :=
      enqueueUi_transmittable ..
    unfold MakesNow
    rw [hsame]
    exact hframes d (List.mem_cons_of_mem _ hd)

/-- Frames that are fit in any case. -/
theorem transmitAll_makes {cls : TxClass} {frames : List (Callsign × AircFrame)}
    (h : Keeps P cfg tnc g)
    (hframes : ∀ e ∈ frames, Makes P g.radio.cfg.path cls.schedulerClass e.2.encode) :
    Keeps P cfg tnc (g.transmitAll cls frames) :=
  transmitAll_keeps h fun e he => (hframes e he).now e.1

/-! ### APRS chat -/

theorem octet_base36 : ∀ d : Fin 36, (String.utf8EncodeChar
    (Char.ofNat (if d.val < 10 then 48 + d.val else 65 + (d.val - 10)))).length = 1 := by decide

theorem octets_base36 (fuel n : ℕ) : (utf8 (base36 fuel n)).length ≤ fuel := by
  induction fuel generalizing n with
  | zero => exact le_rfl
  | succ fuel ih =>
    have hlast := octet_base36 ⟨n % 36, Nat.mod_lt _ (by decide)⟩
    have hrest : (utf8 (if n / 36 = 0 then [] else base36 fuel (n / 36))).length ≤ fuel := by
      split_ifs
      · exact Nat.zero_le _
      · exact ih _
    unfold utf8 at hrest ⊢
    rw [base36, List.flatMap_append, List.length_append, List.flatMap_singleton, hlast]
    exact Nat.succ_le_succ hrest

theorem octets_nextMsgid (o : AprsOutbound) : (utf8 o.nextMsgid.1).length ≤ 5 := octets_base36 5 _

theorem startAprsChat_keeps (h : Keeps P cfg tnc g) {dst : Callsign} {text : Text} {cls : TxClass}
    (hinfo : ∀ id : Text, (utf8 id).length ≤ 5 →
      Makes P cfg.path cls.schedulerClass (messageInfo dst text id)) (now : ℕ) :
    Keeps P cfg tnc (g.startAprsChat dst text cls now).2 := by
  have hdrawn : Keeps P cfg tnc (g.withAprs g.radio.aprsOut.nextMsgid.2) :=
    ⟨h.config, h.settings, h.held, h.pending, h.waiting⟩
  have hnext := hinfo g.radio.aprsOut.nextMsgid.1 (octets_nextMsgid _)
  simp only [Gateway.startAprsChat]
  split_ifs
  · exact hdrawn.of_same rfl rfl rfl rfl
  · have hsent : Keeps P cfg tnc ((g.withAprs g.radio.aprsOut.nextMsgid.2).transmitUi aprsDestination
        (messageInfo dst text g.radio.aprsOut.nextMsgid.1) cls dst) :=
      enqueueUi_keeps hdrawn ((hdrawn.config ▸ hnext).now _)
    refine ⟨hsent.config, hsent.settings, hsent.held, fun e he => ?_, hsent.waiting⟩
    rcases Table.mem_set he with rfl | he
    · exact hnext
    · exact hsent.pending e he

theorem enqueueAprsChat_keeps (h : Keeps P cfg tnc g) {dst : Callsign} {text : Text} {cls : TxClass}
    (hinfo : ∀ id : Text, (utf8 id).length ≤ 5 →
      Makes P cfg.path cls.schedulerClass (messageInfo dst (text.take 67) id)) (now : ℕ) :
    Keeps P cfg tnc (g.enqueueAprsChat dst text cls now).2 := by
  simp only [Gateway.enqueueAprsChat]
  split_ifs
  · exact h
  · exact h
  · exact h.of_same rfl rfl rfl rfl
  · refine ⟨h.config, h.settings, h.held, h.pending, fun e he q hq => ?_⟩
    rcases Table.mem_set he with rfl | he
    · rcases List.mem_append.mp hq with hq | hq
      · cases hold : g.radio.aprsOut.waiting.get dst with
        | none => simp [hold] at hq
        | some old =>
          rw [hold] at hq
          exact h.waiting (dst, old) (Table.mem_entries_iff.mpr hold) q hq
      · obtain rfl := List.mem_singleton.mp hq
        exact hinfo
    · exact h.waiting e he q hq
  · exact startAprsChat_keeps h hinfo now

theorem nextAprsChat_keeps (h : Keeps P cfg tnc g) (dst : Callsign) (now : ℕ) :
    Keeps P cfg tnc (g.nextAprsChat dst now) := by
  unfold Gateway.nextAprsChat
  split
  · exact h
  · exact ⟨h.config, h.settings, h.held, h.pending, fun e he => h.waiting e (Table.mem_erase he)⟩
  · rename_i next rest hq
    have hqueue := h.waiting (dst, next :: rest) (Table.mem_entries_iff.mpr hq)
    refine startAprsChat_keeps ?_ (hqueue next List.mem_cons_self) now
    refine ⟨h.config, h.settings, h.held, h.pending, fun e he q hq' => ?_⟩
    simp only at he
    split_ifs at he
    · exact h.waiting e (Table.mem_erase he) q hq'
    · rcases Table.mem_set he with rfl | he
      · exact hqueue q (List.mem_cons_of_mem _ hq')
      · exact h.waiting e he q hq'

/-- The message in flight is done. -/
theorem Keeps.landed (h : Keeps P cfg tnc g) (call : Callsign) :
    Keeps P cfg tnc (g.withAprs { g.radio.aprsOut with
      pending := g.radio.aprsOut.pending.erase call }) :=
  ⟨h.config, h.settings, h.held, fun e he => h.pending e (Table.mem_erase he), h.waiting⟩

theorem onAprsAck_keeps (h : Keeps P cfg tnc g) (src : Callsign) (id : Text) (now : ℕ) :
    Keeps P cfg tnc (g.onAprsAck src id now) := by
  unfold Gateway.onAprsAck
  split
  · exact h
  · split_ifs
    · exact h
    · exact nextAprsChat_keeps (h.landed src) src now

theorem retryAprs_keeps (h : Keeps P cfg tnc g) (call : Callsign) (now : ℕ) :
    Keeps P cfg tnc (g.retryAprs call now) := by
  unfold Gateway.retryAprs
  split
  · exact h
  · rename_i pending hp
    have hinfo := h.pending (call, pending) (Table.mem_entries_iff.mpr hp)
    split_ifs
    · have hcounted : Keeps P cfg tnc (g.withAprs { g.radio.aprsOut with
          pending := g.radio.aprsOut.pending.erase call }).dropped :=
        (h.landed call).of_same rfl rfl rfl rfl
      exact nextAprsChat_keeps hcounted call now
    · have hsent : Keeps P cfg tnc (g.transmitUi aprsDestination pending.info pending.cls call) :=
        enqueueUi_keeps h ((h.config ▸ hinfo).now _)
      refine ⟨hsent.config, hsent.settings, hsent.held, fun e he => ?_, hsent.waiting⟩
      rcases Table.mem_set he with rfl | he
      · exact hinfo
      · exact hsent.pending e he

theorem tickAprs_keeps (h : Keeps P cfg tnc g) (now : ℕ) : Keeps P cfg tnc (g.tickAprs now) := by
  unfold Gateway.tickAprs
  split_ifs
  · exact h
  · exact List.foldlRecOn _ _ h fun g hg call _ => retryAprs_keeps hg call now

/-! ### Identification and the operator -/

theorem transmitId_keeps (h : Keeps P cfg tnc g) {dest : Callsign} {frame : AircFrame}
    (hinfo : Makes P cfg.path .id frame.encode) : Keeps P cfg tnc (g.transmitId dest frame).2 := by
  unfold Gateway.transmitId
  split_ifs
  · exact h
  · split
    · exact h
    · split
      · exact h
      · rename_i source _ _ ax hui
        have hax : P .id ax := hinfo source dest ax (h.config ▸ hui)
        have henqueued := h.enqueued ['i', 'd'] false hax
        have hcfg := tncEnqueue_cfg g.pump ax .id ['i', 'd'] false
        generalize tncEnqueue g.pump ax .id ['i', 'd'] false = taken at henqueued hcfg ⊢
        rcases taken with ⟨- | -, q⟩
        · exact ⟨h.config, hcfg.trans h.settings, henqueued, h.pending, h.waiting⟩
        · exact ⟨h.config, hcfg.trans h.settings, henqueued, h.pending, h.waiting⟩

section

variable (hid : ∀ seq, Makes P cfg.path .id (idFrame cfg seq).encode)

include hid

theorem sendId_keeps (h : Keeps P cfg tnc g) (now : ℕ) : Keeps P cfg tnc (g.sendId now).2 := by
  have hdrawn : Keeps P cfg tnc (g.withSessions g.radio.sessions.drawSeq.2) :=
    h.of_same rfl rfl rfl rfl
  have hsent : Keeps P cfg tnc ((g.withSessions g.radio.sessions.drawSeq.2).transmitId
      Gateway.idDestination (idFrame g.radio.cfg g.radio.sessions.drawSeq.1)).2 :=
    transmitId_keeps hdrawn (h.config ▸ hid _)
  unfold idFrame at hsent
  simp only [Gateway.sendId]
  split <;> rename_i g' heq <;> rw [heq] at hsent
  · exact hsent.of_same rfl rfl rfl rfl
  · exact hsent

theorem maybeIdentify_keeps (h : Keeps P cfg tnc g) (now : ℕ) :
    Keeps P cfg tnc (g.maybeIdentify now) := by
  unfold Gateway.maybeIdentify
  split_ifs
  · exact h
  · exact h
  · exact sendId_keeps hid h now

theorem idIfNeeded_keeps (h : Keeps P cfg tnc g) (now : ℕ) : Keeps P cfg tnc (g.idIfNeeded now) := by
  unfold Gateway.idIfNeeded
  split_ifs
  · exact sendId_keeps hid h now
  · exact h

theorem identifyNow_keeps (h : Keeps P cfg tnc g) (now : ℕ) :
    Keeps P cfg tnc (g.identifyNow now).2 := by
  have hsent := sendId_keeps hid h now
  unfold Gateway.identifyNow
  split_ifs
  · exact h
  · split <;> rename_i g' heq <;> rwa [heq] at hsent

end

theorem setInhibit_keeps (h : Keeps P cfg tnc g) (b : Bool) : Keeps P cfg tnc (g.setInhibit b) := by
  unfold Gateway.setInhibit
  split_ifs
  · exact h.of_same rfl (notifyWaiters_cfg _) (Pump.notifyWaiters_held _) rfl
  · exact h

theorem overrideWith_keeps (h : Keeps P cfg tnc g) {e : TransmitPump.Event}
    (hcfg : (g.pump.next e).1.cfg = g.pump.cfg) (hheld : (g.pump.next e).1.held = g.pump.held) :
    Keeps P cfg tnc (overrideWith g e) := by
  unfold overrideWith
  split_ifs
  · exact h.of_same rfl ((notifyWaiters_cfg _).trans hcfg)
      ((Pump.notifyWaiters_held _).trans hheld) rfl
  · exact h

/-! ### The TNC task -/

theorem sweep_cfg (p : Pump) (out : List (Queued Ax25Frame)) (s : Scheduler Ax25Frame)
    (count : AirtimeShared → ℕ → AirtimeShared) : (p.sweep out s count).cfg = p.cfg := by
  unfold Pump.sweep
  split_ifs <;> rfl

theorem advancePhase_cfg (p : Pump) (written : Bool) : (p.advancePhase written).1.cfg = p.cfg := by
  unfold Pump.advancePhase
  split
  · unfold Pump.drainInhibited
    dsimp only
    split_ifs
    · exact sweep_cfg ..
    · rfl
  · rfl
  · exact sweep_cfg ..
  · rfl
  · rfl
  · rfl
  · rfl
  · rfl
  · rfl
  · unfold Pump.takeFrame
    split_ifs
    · rfl
    · split
      · split <;> rfl
      · rfl
  · unfold Pump.decide
    split_ifs
    · rfl
    · rfl
    · split
      · rfl
      · split_ifs <;> rfl
  · unfold Pump.key
    split_ifs <;> rfl
  · rfl

theorem next_cfg {p : Pump} {e : TransmitPump.Event} (he : spontaneous e = true) :
    (p.next e).1.cfg = p.cfg := by
  cases e with
  | step written => exact advancePhase_cfg p written
  | woken | timer | read | heard | linkDown | setInterlock | advance => rfl
  | enqueue | unlock | setInhibit | setDutyOverride | setPacingOverride | notify => simp [spontaneous] at he

/-- The task makes no frames. -/
theorem next_held_le {p : Pump} {e : TransmitPump.Event} (he : spontaneous e = true) :
    (p.next e).1.held ≤ p.held := by
  have rest : p.scheduler.waiting + 0 ≤ p.held := by
    rw [add_zero]
    exact Multiset.le_add_right _ _
  cases e with
  | step written => exact (Multiset.le_add_right _ _).trans_eq (p.advancePhase_held written)
  | woken | timer | read | linkDown => exact rest
  | heard | setInterlock | advance => exact le_rfl
  | enqueue | unlock | setInhibit | setDutyOverride | setPacingOverride | notify => simp [spontaneous] at he

/-! ### Every operation -/

theorem Keeps.withSessions (h : Keeps P cfg tnc g) (s : Sessions) :
    Keeps P cfg tnc (g.withSessions s) := h.of_same rfl rfl rfl rfl

theorem perform_keeps (h : Keeps P cfg tnc g) {op : RadioOp} (hop : Hands P g op) :
    Keeps P cfg tnc (AirTrace.perform g op) := by
  cases op with
  | broadcast b =>
    simp only [AirTrace.perform, Gateway.broadcastFlagged]
    split_ifs
    · exact h
    · exact h.of_same rfl rfl rfl rfl
    · exact h.of_same rfl rfl rfl rfl
    · exact h.of_same rfl rfl rfl rfl
    · refine transmitAll_makes (h.withSessions _) fun e he => ?_
      obtain ⟨f, hf, rfl⟩ := List.mem_map.mp he
      exact hop f hf
  | unicast dst m now =>
    simp only [AirTrace.perform, Gateway.unicastFlagged]
    split_ifs
    · exact h
    · exact h.of_same rfl rfl rfl rfl
    · exact h.of_same rfl rfl rfl rfl
    · exact h.withSessions _
    · refine transmitAll_makes (h.withSessions _) fun e he => ?_
      obtain ⟨f, hf, rfl⟩ := List.mem_map.mp he
      exact hop f hf
  | aprsChat dst body channel now => exact enqueueAprsChat_keeps h (h.config ▸ hop) now
  | aprsAck dst msgid => exact enqueueUi_keeps h (Makes.now hop _)
  | aprsRej dst msgid => exact enqueueUi_keeps h (Makes.now hop _)
  | aprsReply dst text => exact enqueueUi_keeps h (Makes.now hop _)
  | receive src f now forUs =>
    refine transmitAll_keeps (h.withSessions _) fun e he => ?_
    obtain ⟨next, hnext, rfl⟩ := List.mem_map.mp he
    exact hop next hnext
  | drainAcks => exact transmitAll_makes (h.withSessions _) hop
  | aprsAnswered src id now => exact onAprsAck_keeps h src id now
  | touch call now =>
    simp only [AirTrace.perform]
    split
    · exact h
    · exact h.withSessions _
  | note call n =>
    simp only [AirTrace.perform]
    split
    · exact h
    · exact h.withSessions _
  | ban call | liftBan call | forget call | takeEvicted | refuse | drainKeyed now =>
    exact h.of_same rfl rfl rfl rfl
  | tickSessions now => exact transmitAll_makes (h.withSessions _) hop
  | tickAprs now => exact tickAprs_keeps h now
  | maybeIdentify now => exact maybeIdentify_keeps (h.config ▸ hop) h now
  | idIfNeeded now => exact idIfNeeded_keeps (h.config ▸ hop) h now
  | identifyNow now => exact identifyNow_keeps (h.config ▸ hop) h now
  | radioOff now =>
    have hid : ∀ seq, Makes P cfg.path .id (idFrame cfg seq).encode := h.config ▸ hop
    have hoff : Keeps P cfg tnc { g.idIfNeeded now with
        radio := { (g.idIfNeeded now).radio with enabled := false } } :=
      (idIfNeeded_keeps hid h now).of_same rfl rfl rfl rfl
    exact setInhibit_keeps hoff true
  | radioOn =>
    simp only [AirTrace.perform, Gateway.radioOn]
    split_ifs
    · exact (setInhibit_keeps h false).of_same rfl rfl rfl rfl
    · exact h
  | limitDuty percent => exact overrideWith_keeps h rfl rfl
  | limitPacing ms => exact overrideWith_keeps h rfl rfl
  | pump e =>
    refine ⟨h.config, (next_cfg e.own).trans h.settings, ?_, h.pending, h.waiting⟩
    intro x hx
    exact h.held x (Multiset.mem_of_le (next_held_le e.own) hx)

theorem keeps_start (cfg : RadioConfig) (attached : Bool) (tnc : TncConfig) :
    Keeps P cfg tnc (startGateway cfg attached tnc) where
  config := rfl
  settings := rfl
  held x hx := by
    have hnone : (startGateway cfg attached tnc).pump.held = 0 := rfl
    exact absurd (hnone ▸ hx) (Multiset.notMem_zero x)
  pending e he := absurd he List.not_mem_nil
  waiting e he := absurd he List.not_mem_nil

end HandedOver
