import Mathlib.Logic.Relation
import Rfircd.ServerReplies

/-! What a function of the outlet can do.
Answers touch the lines to clients and nothing else that matters here. The rest is a sequence of
steps, and content goes on record under a licence. -/
namespace ServerOutput

open Basics KeyedTable MessageText HostKey IrcMessage IrcState HeldMail AprsCodec AirTrace AirPolicy
open AircSession RadioGateway AirScreen Accounts

/-! ### Answers -/

/-- What the lines to clients and the rate limits leave alone. -/
structure Core where
  cfg : ServerConfig
  air : Air
  mailbox : Mailbox
  aired : List Aired
  policy : PolicyConfig
  aprsMsgid : Table (Callsign × Text) ℕ
  firstContact : RateLimiter

namespace Outlet

def core (o : Outlet) : Core :=
  ⟨o.cfg, o.air, o.mailbox, o.aired, o.policy.config, o.aprsMsgid, o.policy.firstContact⟩

theorem foldl_core {α : Type*} {f : Outlet → α → Outlet} (h : ∀ o x, (f o x).core = o.core)
    (o : Outlet) (xs : List α) : (xs.foldl f o).core = o.core := by
  induction xs generalizing o with
  | nil => rfl
  | cons x xs ih => exact (ih _).trans (h o x)

section
variable (o : Outlet) (st : State) (m : Moment) (id : ℕ) (uid : UserId)

@[simp] theorem sendRaw_core (line : Text) : (o.sendRaw id line).core = o.core := rfl

@[simp] theorem numeric_core (code : Text) (params : List Text) :
    (o.numeric st uid code params).core = o.core := by
  cases uid <;> rfl

@[simp] theorem noticeUser_core (text : Text) : (o.noticeUser st m (.ip id) text).core = o.core :=
  rfl

@[simp] theorem noticeAll_core (texts : List Text) :
    (o.noticeAll st m (.ip id) texts).core = o.core := by
  unfold noticeAll
  exact foldl_core (fun o text => noticeUser_core o st m id text) o texts

@[simp] theorem numerics_core (code : Text) (rows : List (List Text)) :
    (o.numerics st uid code rows).core = o.core :=
  foldl_core (fun o params => numeric_core o st uid code params) o rows

@[simp] theorem sendToMembers_core (members : List UserId) (line : Text) :
    (o.sendToMembers members line).core = o.core :=
  foldl_core (fun o uid => by cases uid <;> rfl) o members

@[simp] theorem sendTopic_core (channel : Text) (explicit : Bool) :
    (o.sendTopic st uid channel explicit).core = o.core := by
  unfold sendTopic
  split
  · rfl
  · split
    · simp only
      split_ifs <;> simp
    · split_ifs <;> simp

@[simp] theorem sendNames_core (channel : Text) : (o.sendNames st uid channel).core = o.core := by
  unfold sendNames
  split
  · exact numeric_core ..
  · exact (numeric_core ..).trans (numerics_core ..)

@[simp] theorem sendMotd_core : (o.sendMotd st uid).core = o.core := by
  unfold sendMotd
  split_ifs
  · exact numeric_core ..
  · exact (numeric_core ..).trans ((numerics_core ..).trans (numeric_core ..))

@[simp] theorem sendLusers_core : (o.sendLusers st uid).core = o.core := by
  unfold sendLusers
  exact (numeric_core ..).trans (numeric_core ..)

@[simp] theorem noticeAccountError_core (e : AccountError) :
    (o.noticeAccountError st m (.ip id) e).core = o.core := rfl

@[simp] theorem noticeRfAudience_core (channel text : Text) :
    (o.noticeRfAudience st m channel text).core = o.core := by
  refine List.foldlRecOn (motive := fun o' : Outlet => o'.core = o.core) _ _ rfl ?_
  intro o' hsame uid huid
  have hip : uid.isRf = false := by simpa using (List.mem_filter.mp huid).2
  cases uid with
  | ip id => exact hsame
  | rf call => exact absurd hip (by simp [UserId.isRf])

@[simp] theorem noticeBridged_core (text : Text) : (o.noticeBridged st m text).core = o.core := by
  unfold noticeBridged
  exact foldl_core (fun o (c : Channel) => noticeRfAudience_core o st m c.name text) o _

@[simp] theorem noticeAirReason_core (channel why : Text) :
    (o.noticeAirReason st m (.ip id) channel why).core = o.core := by
  unfold noticeAirReason
  simp only
  split_ifs <;> rfl

@[simp] theorem noticeRfJoin_core (channel : Text) :
    (o.noticeRfJoin st m (.ip id) channel).core = o.core := by
  unfold noticeRfJoin
  exact noticeAll_core ..

@[simp] theorem radioStatus_core : (o.radioStatus st m (.ip id)).core = o.core := by
  unfold radioStatus
  simp only
  split_ifs <;> simp only [noticeUser_core]

/-! The commands that only ask. -/

theorem cmdCap_core (msg : Message) : (o.cmdCap st uid msg).core = o.core := by
  unfold cmdCap
  split
  · rfl
  · simp only
    split_ifs <;> rfl

theorem cmdPing_core (msg : Message) : (o.cmdPing id msg).core = o.core := rfl

theorem cmdNames_core (msg : Message) : (o.cmdNames st uid msg).core = o.core := by
  unfold cmdNames
  split
  · simp only [sendNames_core]
  · simp only
    split_ifs
    · simp only [numeric_core]
    · exact foldl_core (fun o ch => sendNames_core o st uid ch) o _

theorem cmdList_core : (o.cmdList st uid).core = o.core := by
  simp only [cmdList, numeric_core, numerics_core]

theorem cmdWho_core (msg : Message) : (o.cmdWho st uid msg).core = o.core := by
  simp only [cmdWho, numeric_core, numerics_core]

theorem cmdWhois_core (msg : Message) : (o.cmdWhois st m uid msg).core = o.core := by
  unfold cmdWhois
  split
  · simp only [numeric_core]
  · split
    · simp only [numeric_core]
    · generalize o.whoisRows st m uid _ = rows
      exact foldl_core (fun o (row : Text × List Text) => numeric_core o st uid row.1 row.2) o rows

theorem cmdWhowas_core (msg : Message) : (o.cmdWhowas st uid msg).core = o.core := by
  unfold cmdWhowas
  split <;> simp only [numeric_core]

theorem cmdIson_core (msg : Message) : (o.cmdIson st uid msg).core = o.core := by
  unfold cmdIson
  split_ifs <;> simp only [numeric_core]

theorem cmdUserhost_core (msg : Message) : (o.cmdUserhost st uid msg).core = o.core := by
  unfold cmdUserhost
  split_ifs <;> simp only [numeric_core]

theorem cmdAdmin_core : (o.cmdAdmin st uid).core = o.core := by
  simp only [cmdAdmin, numeric_core]

theorem cmdInfo_core : (o.cmdInfo st uid).core = o.core := by
  simp only [cmdInfo, numeric_core, numerics_core]

theorem cmdHelp_core (msg : Message) : (o.cmdHelp st uid msg).core = o.core := by
  simp only [cmdHelp, numeric_core, numerics_core]

theorem cmdStats_core (msg : Message) : (o.cmdStats st m (.ip id) msg).core = o.core := by
  unfold cmdStats
  simp only [numeric_core]
  split_ifs <;> simp only [numeric_core, noticeUser_core]

theorem cmdLinks_core : (o.cmdLinks st uid).core = o.core := by
  simp only [cmdLinks, numeric_core]

theorem cmdInvite_core (msg : Message) : (o.cmdInvite st m (.ip id) msg).core = o.core := by
  unfold cmdInvite
  split
  · split
    · exact numeric_core ..
    · split_ifs
      · exact numeric_core ..
      · split
        · exact numeric_core ..
        · split_ifs
          · exact numeric_core ..
          · simp only
            split
            · exact (sendRaw_core ..).trans (numeric_core ..)
            · exact (noticeUser_core ..).trans (numeric_core ..)
  · exact numeric_core ..

end

end Outlet

/-! ### Steps -/

/-- What may go on record, which frames it may take in, which stations it may let in, which APRS
messages it may answer, which channels a station may enter, whether stations may be lost, and how
the limit on first contacts may count. -/
structure OutletLicence where
  aired : Aired → Prop
  received : Callsign → Airc.AircFrame → Prop
  station : Callsign → Prop
  expires : ℕ → Prop
  answers : Callsign → Text → Prop
  enters : Callsign → Text → Prop
  sweeps : Prop
  remembers : Table (Callsign × Text) ℕ → Table (Callsign × Text) ℕ → Prop
  rations : RateLimiter → RateLimiter → Prop

def OutletLicence.free : OutletLicence :=
  ⟨fun _ => True, fun _ _ => True, fun _ => True, fun _ => True, fun _ _ => True, fun _ _ => True,
    True, fun _ _ => True, fun _ _ => True⟩

/-- Frames are taken in, kicked stations let in again, messages answered and stations lost under a
licence. A station is forgotten when it is no user any more, and that is a step of the server. -/
def OutletLicence.MayPerform (A : OutletLicence) : RadioOp → Prop
  | .receive src f _ _ => A.received src f
  | .liftBan call => A.station call
  | .aprsAck dst msgid | .aprsRej dst msgid => A.answers dst msgid
  | .note call (.joined channel) => A.enters call channel
  | .tickSessions _ | .takeEvicted => A.sweeps
  | .forget _ => False
  | _ => True

/-- One thing that a function of the outlet does. -/
inductive OutletStep (A : OutletLicence) : Outlet → Outlet → Prop where
  | book {o o'} : o'.core = o.core → OutletStep A o o'
  | radio {o} {op : RadioOp} : A.MayPerform op → OutletStep A o (o.perform op)
  | record {o origin text} : A.aired ⟨origin, text⟩ → OutletStep A o (o.record origin text)
  /-- Held mail was licensed when it was held. -/
  | recordMail {o call} {mail : StoredMessage} : mail ∈ o.mailbox.queue call →
      OutletStep A o (o.record mail.origin mail.text)
  | hold {o call} {mail : StoredMessage} : A.aired ⟨mail.origin, mail.text⟩ →
      OutletStep A o { o with mailbox := (o.mailbox.store call mail).2 }
  | take {o call} : A.station call →
      OutletStep A o { o with mailbox := o.mailbox.dropFront call }
  | expire {o now} : A.expires now → OutletStep A o { o with mailbox := o.mailbox.expire now }
  /-- The numbers of the messages that were seen. -/
  | remember {o memory} : A.remembers o.aprsMsgid memory →
      OutletStep A o { o with aprsMsgid := memory }
  /-- The limit on first contacts. -/
  | ration {o limiter} : A.rations o.policy.firstContact limiter →
      OutletStep A o { o with policy := { o.policy with firstContact := limiter } }

abbrev OutletSteps (A : OutletLicence) : Outlet → Outlet → Prop :=
  Relation.ReflTransGen (OutletStep A)

/-- The record that an emission leaves. -/
def RfEmission.aired : RfEmission → Option Aired
  | chat _ _ text _ _ origin => some ⟨origin, text⟩
  | topic _ _ text origin => some ⟨origin, text⟩
  | presence .. => none

/-- Whatever a delivery puts on the air may go on record. -/
def Delivery.Licensed (A : Aired → Prop) (d : Delivery) : Prop :=
  ∀ presence, ∀ e ∈ d.rfEmission presence, ∀ r ∈ e.aired, A r

namespace Outlet

variable {A : OutletLicence}

theorem core_steps {o o' : Outlet} (h : o'.core = o.core) : OutletSteps A o o' :=
  .single (.book h)

theorem perform_steps (o : Outlet) (op : RadioOp) (h : A.MayPerform op) :
    OutletSteps A o (o.perform op) :=
  .single (.radio h)

theorem foldl_steps {α : Type*} {f : Outlet → α → Outlet} (h : ∀ o x, OutletSteps A o (f o x))
    (o : Outlet) (xs : List α) : OutletSteps A o (xs.foldl f o) := by
  induction xs generalizing o with
  | nil => exact .refl
  | cons x xs ih => exact (h o x).trans (ih _)

theorem noticeUser_steps (o : Outlet) (st : State) (m : Moment) (uid : UserId) (text : Text) :
    OutletSteps A o (o.noticeUser st m uid text) := by
  cases uid with
  | ip id => exact core_steps rfl
  | rf call => exact perform_steps o _ (by trivial)

theorem limitDuty_steps (o : Outlet) (st : State) (m : Moment) (uid : UserId) (asked : Option ℕ) :
    OutletSteps A o (o.limitDuty st m uid asked) :=
  (perform_steps o _ (by trivial)).trans (noticeUser_steps ..)

theorem limitPacing_steps (o : Outlet) (st : State) (m : Moment) (uid : UserId) (ms : Option ℕ) :
    OutletSteps A o (o.limitPacing st m uid ms) :=
  (perform_steps o _ (by trivial)).trans (noticeUser_steps ..)

theorem radioLimit_steps (o : Outlet) (st : State) (m : Moment) (uid : UserId) (msg : Message) :
    OutletSteps A o (o.radioLimit st m uid msg) := by
  unfold radioLimit
  extract_lets what
  split
  · exact noticeUser_steps ..
  · split
    · split
      · split
        · exact limitDuty_steps ..
        · exact noticeUser_steps ..
      · split
        · split
          · exact limitPacing_steps ..
          · exact noticeUser_steps ..
        · exact noticeUser_steps ..
    · exact noticeUser_steps ..

theorem radioId_steps (o : Outlet) (st : State) (m : Moment) (uid : UserId) :
    OutletSteps A o (o.radioId st m uid) :=
  (perform_steps o _ (by trivial)).trans (noticeUser_steps ..)

theorem radioOff_steps (o : Outlet) (st : State) (m : Moment) (uid : UserId) :
    OutletSteps A o (o.radioOff st m uid) :=
  ((perform_steps o _ (by trivial)).trans (noticeUser_steps ..)).trans (core_steps (noticeBridged_core ..))

theorem radioOn_steps (o : Outlet) (st : State) (m : Moment) (uid : UserId) :
    OutletSteps A o (o.radioOn st m uid) := by
  unfold radioOn
  split_ifs
  · exact ((perform_steps o _ (by trivial)).trans (noticeUser_steps ..)).trans (core_steps (noticeBridged_core ..))
  · exact noticeUser_steps ..

/-! ### Content -/

theorem recordIf_steps (o : Outlet) {accepted : Bool} {origin : Origin} {text : Text}
    (h : accepted = true → A.aired ⟨origin, text⟩) : OutletSteps A o (o.recordIf accepted origin text) := by
  unfold recordIf
  split_ifs with hacc
  · exact .single (.record (h hacc))
  · exact .refl

theorem emitDirectChatRf_steps (o : Outlet) (m : Moment) (call : Callsign) (fromNick : Text)
    {text : Text} (truncated : Bool) {origin : Origin} (h : A.aired ⟨origin, text⟩) :
    OutletSteps A o (o.emitDirectChatRf m call fromNick text truncated origin) := by
  unfold emitDirectChatRf
  split_ifs
  · exact (perform_steps o _ (by trivial)).trans (recordIf_steps _ fun _ => h)
  · exact (perform_steps o _ (by trivial)).trans (recordIf_steps _ fun _ => h)

theorem emitChannelChatRfTo_steps (o : Outlet) (m : Moment) (channel : Text)
    (rfCalls : List Callsign) (fromNick : Text) {text : Text} (truncated : Bool) {origin : Origin}
    (h : A.aired ⟨origin, text⟩) :
    OutletSteps A o (o.emitChannelChatRfTo m channel rfCalls fromNick text truncated origin) := by
  have hrecorded : OutletSteps A o (o.record origin text) := .single (.record h)
  have hfan : ∀ (o : Outlet) (calls : List Callsign), OutletSteps A o (calls.foldl (fun o call =>
      o.perform (.aprsChat call (aprsBody fromNick text truncated) true m.now)) o) :=
    foldl_steps fun o call => perform_steps o _ (by trivial)
  unfold emitChannelChatRfTo
  simp only
  split_ifs
  · exact (hrecorded.trans (perform_steps _ _ (by trivial))).trans (hfan _ _)
  · exact hrecorded.trans (hfan _ _)

theorem emitTopic_steps (o : Outlet) (m : Moment) (nick channel : Text) {topic : Text}
    {origin : Origin} (h : A.aired ⟨origin, topic⟩) :
    OutletSteps A o (o.emitTopic m nick channel topic origin) := by
  have hrate : OutletSteps A o { o with policy := (o.policy.topicRateOk channel m.now).2 } :=
    core_steps rfl
  unfold emitTopic
  simp only
  split_ifs
  · exact .refl
  · exact hrate
  · exact (hrate.trans (.single (.record h))).trans (perform_steps _ _ (by trivial))

theorem emitPresence_steps (o : Outlet) (m : Moment) (nick channel : Text) (joined : Bool) :
    OutletSteps A o (o.emitPresence m nick channel joined) := by
  have hrate : OutletSteps A o { o with policy := (o.policy.presenceRateOk channel m.now).2 } :=
    core_steps rfl
  unfold emitPresence
  simp only
  split_ifs
  · exact .refl
  · exact hrate
  · exact hrate.trans (perform_steps _ _ (by trivial))

theorem deliverRf_steps (o : Outlet) (m : Moment) (call : Callsign) {d : Delivery}
    (h : d.Licensed A.aired) : OutletSteps A o (o.deliverRf m call d) := by
  have hd := h o.cfg.presenceNotices
  unfold deliverRf
  split <;> rename_i heq
  · exact emitDirectChatRf_steps _ _ _ _ _ (hd _ heq _ rfl)
  · exact emitTopic_steps _ _ _ _ (hd _ heq _ rfl)
  · exact emitPresence_steps ..
  · exact .refl
  · exact .refl

theorem deliver_steps (o : Outlet) (m : Moment) (uid : UserId) {d : Delivery}
    (h : uid.isRf = true → d.Licensed A.aired) : OutletSteps A o (o.deliver m uid d) := by
  cases uid with
  | ip id => exact core_steps rfl
  | rf call => exact deliverRf_steps o m call (h rfl)

theorem broadcastChannelEx_steps (o : Outlet) (st : State) (m : Moment) (channel : Text)
    {d : Delivery} (except : Option UserId) {allowRf : Bool} (h : allowRf = true → d.Licensed A.aired) :
    OutletSteps A o (o.broadcastChannelEx st m channel d except allowRf) := by
  have hlines : ∀ members, OutletSteps A o (o.sendToMembers members (renderIrc d).toText) :=
    fun members => core_steps (sendToMembers_core o members _)
  unfold broadcastChannelEx
  extract_lets members rfCalls sent
  split
  · exact hlines members
  · rename_i hrf
    have hd := h (by simpa using hrf) sent.cfg.presenceNotices
    refine (hlines members).trans ?_
    split <;> rename_i heq
    · exact emitChannelChatRfTo_steps _ _ _ _ _ _ (hd _ heq _ rfl)
    · exact .refl
    · exact .refl
    all_goals
      split_ifs
      · exact .refl
      · split
        · exact deliverRf_steps _ _ _ (h (by simpa using hrf))
        · exact .refl

theorem broadcastPeers_steps (o : Outlet) (st : State) (m : Moment) (uid : UserId) {d : Delivery}
    (includeSelf : Bool) (h : d.Licensed A.aired) :
    OutletSteps A o (o.broadcastPeers st m uid d includeSelf) := by
  unfold broadcastPeers
  extract_lets targets
  refine List.foldlRecOn (motive := fun acc : Outlet × Bool => OutletSteps A o acc.1) targets _ .refl ?_
  intro acc hacc t _
  refine hacc.trans ?_
  rcases acc with ⟨o, rfDone⟩
  simp only
  split_ifs
  · exact .refl
  · exact deliver_steps _ _ _ fun _ => h
  · exact deliver_steps _ _ _ fun _ => h

/-! ### Messages of Internet users -/

theorem screenBacklog_steps (o : Outlet) (st : State) (m : Moment) (uid : UserId) (s : Screened) :
    OutletSteps A o (o.screenBacklog st m uid s).2 := by
  unfold screenBacklog
  split_ifs
  · exact noticeUser_steps ..
  · exact (noticeUser_steps o st m uid _).trans (perform_steps _ _ (by trivial))
  · exact .refl

theorem screenContent_steps (o : Outlet) (st : State) (m : Moment) (uid : UserId) (text : Text)
    (timing : AirTiming) : OutletSteps A o (o.screenContent st m uid text timing).2 := by
  unfold screenContent
  split
  · exact noticeUser_steps ..
  · split_ifs
    · exact .refl
    · exact screenBacklog_steps ..
  · extract_lets shortened
    have hshort : OutletSteps A o shortened := noticeUser_steps ..
    split_ifs
    · exact hshort
    · exact hshort.trans (screenBacklog_steps ..)

theorem screen_steps (o : Outlet) (st : State) (m : Moment) (uid : UserId) (text : Text)
    (timing : AirTiming) : OutletSteps A o (o.screen st m uid text timing).2 := by
  unfold screen
  split_ifs
  · exact noticeUser_steps ..
  · exact noticeUser_steps ..
  · split
    · exact noticeUser_steps ..
    · split_ifs
      · exact noticeUser_steps ..
      · have hrate : OutletSteps A o { o with policy := (o.policy.ipRateOk (rateKey st uid) m.now).2 } :=
          core_steps rfl
        simp only
        split_ifs
        · exact hrate.trans (noticeUser_steps ..)
        · exact hrate.trans (screenContent_steps ..)

/-- A text that is taken comes from a user who may transmit, under a callsign that is permitted. -/
theorem screen_cleared {o : Outlet} {st : State} {m : Moment} {uid : UserId} {text : Text}
    {timing : AirTiming} {s : Screened} (h : (o.screen st m uid text timing).1 = some s) :
    (o.acceptance st uid true).cleared = true := by
  unfold screen at h
  split_ifs at h with hoff hmay
  split at h
  · cases h
  · rename_i call hcall
    split_ifs at h with hdenied
    simp only [Bool.not_eq_true, Bool.not_eq_false'] at hmay hdenied
    simp [acceptance, Acceptance.cleared, hmay, hcall, hdenied]

/-- Only the configuration of the policy decides who is cleared. -/
theorem acceptance_core {o o' : Outlet} (h : o'.core = o.core) (st : State) (uid : UserId)
    (screened : Bool) : o'.acceptance st uid screened = o.acceptance st uid screened := by
  have hconfig : o'.policy.config = o.policy.config := congrArg Core.policy h
  have hallowed : o'.policy.stationAllowed = o.policy.stationAllowed := by
    funext call
    simp only [Policy.stationAllowed, hconfig]
  simp only [acceptance, hallowed]

theorem steps_config {o o' : Outlet} (h : OutletSteps A o o') :
    o'.cfg = o.cfg ∧ o'.policy.config = o.policy.config := by
  induction h with
  | refl => exact ⟨rfl, rfl⟩
  | tail _ hstep ih =>
    cases hstep with
    | book hcore => exact ⟨(congrArg Core.cfg hcore).trans ih.1, (congrArg Core.policy hcore).trans ih.2⟩
    | _ => exact ih

theorem steps_acceptance {o o' : Outlet} (h : OutletSteps A o o') (st : State) (uid : UserId)
    (screened : Bool) : o'.acceptance st uid screened = o.acceptance st uid screened := by
  have hallowed : o'.policy.stationAllowed = o.policy.stationAllowed := by
    funext call
    simp only [Policy.stationAllowed, (steps_config h).2]
  simp only [acceptance, hallowed]

theorem channelForAir_steps (o : Outlet) (st : State) (m : Moment) (uid : UserId) (chan : Channel)
    (text : Text) (notice : Bool) :
    OutletSteps A o (o.channelForAir st m uid chan text notice).2 := by
  have hrate : OutletSteps A o { o with
      policy := (o.policy.rfChannelRateOk (rateKey st uid ++ ':' :: chan.name) m.now).2 } :=
    core_steps rfl
  unfold channelForAir
  simp only
  split_ifs
  · exact hrate.trans (noticeUser_steps ..)
  · exact hrate.trans (screen_steps ..)
  · unfold noticeAirReason
    simp only
    split_ifs
    · exact .refl
    · exact .refl
    · have hnoted : OutletSteps A o { o with
          airNotices := o.airNotices.set (uid, lower chan.name) m.now } := core_steps rfl
      exact hnoted.trans (noticeUser_steps ..)
  · exact .refl

theorem channelForAir_cleared {o : Outlet} {st : State} {m : Moment} {uid : UserId} {chan : Channel}
    {text : Text} {notice : Bool} {s : Screened}
    (h : (o.channelForAir st m uid chan text notice).1 = some s) :
    (o.acceptance st uid true).cleared = true := by
  unfold channelForAir at h
  simp only at h
  split_ifs at h
  obtain ⟨o', hs, hcore⟩ : ∃ o' : Outlet,
      (o'.screen st m uid ((chatForAir text notice).getD text) .now).1 = some s ∧
        o'.core = o.core := ⟨_, h, rfl⟩
  rw [← acceptance_core hcore]
  exact screen_cleared hs

theorem cleared_licensed {A : OutletLicence} (hA : ∀ uid acc text, acc.cleared = true → A.aired ⟨.ip uid acc, text⟩)
    {uid : UserId} {acc : Acceptance} (hacc : acc.cleared = true) (nick mask target text : Text)
    (notice truncated : Bool) :
    (Delivery.privmsg nick mask target text notice truncated (.ip uid acc)).Licensed A.aired := by
  intro presence e he r hr
  have horigin : r.origin = .ip uid acc := by
    cases notice with
    | true => simp [Delivery.rfEmission] at he
    | false =>
      simp only [Delivery.rfEmission] at he
      split at he
      · split_ifs at he
        · obtain rfl := Option.some.inj he
          obtain rfl := Option.some.inj hr
          rfl
        · cases he
      · obtain rfl := Option.some.inj he
        obtain rfl := Option.some.inj hr
        rfl
  obtain ⟨origin, said⟩ := r
  obtain rfl : origin = _ := horigin
  exact hA uid acc said hacc

theorem offerMailbox_steps {A : OutletLicence}
    (hA : ∀ uid acc text, acc.cleared = true → A.aired ⟨.ip uid acc, text⟩) (o : Outlet) (st : State)
    (m : Moment) (uid : UserId) (sender target text : Text) (notice : Bool) :
    OutletSteps A o (o.offerMailbox st m uid sender target text notice) := by
  have hnumeric : ∀ code params, OutletSteps A o (o.numeric st uid code params) :=
    fun code params => core_steps (numeric_core ..)
  unfold offerMailbox
  extract_lets noSuchNick accepted
  split
  · rename_i air call _ _
    split_ifs
    · exact hnumeric _ _
    · have hscreen : OutletSteps A o (o.screen st m uid air .held).2 := screen_steps ..
      split <;> rename_i heq
      · rw [heq] at hscreen
        exact hscreen
      · rename_i s o'
        rw [heq] at hscreen
        have hcleared : accepted.cleared = true := screen_cleared (congrArg Prod.fst heq)
        have hheld : OutletSteps A o' { o' with mailbox :=
            (o'.mailbox.store call ⟨sender, s.text, notice, s.truncated, m.now, .ip uid accepted⟩).2 } :=
          .single (.hold (hA uid accepted s.text hcleared))
        simp only
        split
        · exact (hscreen.trans hheld).trans (noticeUser_steps ..)
        · exact (hscreen.trans hheld).trans (noticeUser_steps ..)
  · exact hnumeric _ _

theorem privateMessage_steps {A : OutletLicence}
    (hA : ∀ uid acc text, acc.cleared = true → A.aired ⟨.ip uid acc, text⟩) (o : Outlet) (st : State)
    (m : Moment) (uid : UserId) (sender : User) (target text : Text) (notice : Bool)
    (targetId : UserId) :
    OutletSteps A o (o.privateMessage st m uid sender target text notice targetId) := by
  unfold privateMessage
  extract_lets send
  have hsend : ∀ (o : Outlet) (text : Text) (truncated screened : Bool),
      (targetId.isRf = true → (o.acceptance st uid screened).cleared = true) →
      OutletSteps A o (send o text truncated screened) := by
    intro o text truncated screened hacc
    simp only [send]
    split
    · have hline := numeric_core o st uid "301" [target, (by assumption)]
      refine (core_steps hline).trans (deliver_steps _ _ _ fun hrf => ?_)
      rw [acceptance_core hline]
      exact cleared_licensed hA (hacc hrf) _ _ _ _ _ _
    · exact deliver_steps _ _ _ fun hrf => cleared_licensed hA (hacc hrf) _ _ _ _ _ _
  split_ifs with hrf
  · split
    · exact noticeUser_steps ..
    · rename_i air _
      have hscreen : OutletSteps A o (o.screen st m uid air .now).2 := screen_steps ..
      split <;> rename_i heq
      · rw [heq] at hscreen
        exact hscreen
      · rw [heq] at hscreen
        refine hscreen.trans (hsend _ _ _ _ fun _ => ?_)
        rw [steps_acceptance hscreen]
        exact screen_cleared (congrArg Prod.fst heq)
  · exact hsend _ _ _ _ fun h => absurd h hrf

/-! ### Held mail -/

theorem dropFront_thin (mb : Mailbox) (call j : Callsign) :
    (mb.dropFront call).queue j ⊆ mb.queue j := by
  unfold Mailbox.dropFront
  cases hq : mb.boxes.get call with
  | none => exact List.Subset.refl _
  | some q =>
    simp only [Mailbox.queue]
    split_ifs
    · rw [Table.get_erase]
      split_ifs
      · exact List.nil_subset _
      · exact List.Subset.refl _
    · rw [Table.get_set]
      split_ifs with hj
      · rw [hj, hq]
        exact fun x hx => List.mem_of_mem_tail hx
      · exact List.Subset.refl _

theorem expire_thin (mb : Mailbox) (now : ℕ) (j : Callsign) : (mb.expire now).queue j ⊆ mb.queue j := by
  simp only [Mailbox.queue, Mailbox.expire, Table.get_filterMap]
  cases hq : mb.boxes.get j with
  | none => exact List.Subset.refl _
  | some q =>
    simp only [Option.bind_some]
    split_ifs
    · exact List.nil_subset _
    · exact List.filter_subset_self _

theorem flushOne_steps (o : Outlet) (m : Moment) (call : Callsign) {mail : StoredMessage}
    (h : mail ∈ o.mailbox.queue call) (hstation : A.station call) :
    OutletSteps A o (o.flushOne m call mail).2 := by
  have hhanded : ∀ (accepted : Bool) (op : RadioOp), A.MayPerform op →
      OutletSteps A o (if accepted = true then
        (true, { (o.perform op).record mail.origin mail.text with
          mailbox := ((o.perform op).record mail.origin mail.text).mailbox.dropFront call })
        else (accepted, o.perform op)).2 := by
    intro accepted op hop
    have hmail : mail ∈ (o.perform op).mailbox.queue call := h
    split_ifs
    · exact ((perform_steps o op hop).tail (.recordMail hmail)).tail (.take hstation)
    · exact perform_steps o op hop
  unfold flushOne
  extract_lets age handed stored
  split_ifs
  · exact .refl
  · exact hhanded _ _ trivial
  · exact .refl
  · exact .refl
  · exact hhanded _ _ trivial

theorem flushBatch_steps (m : Moment) {call : Callsign} (hstation : A.station call) (n : ℕ)
    (o : Outlet) : OutletSteps A o (o.flushBatch m call n) := by
  induction n generalizing o with
  | zero => exact .refl
  | succ n ih =>
    unfold flushBatch
    split
    · exact .refl
    · rename_i mail hpeek
      have hone : OutletSteps A o (o.flushOne m call mail).2 :=
        flushOne_steps o m call (List.mem_of_head? hpeek) hstation
      split <;> rename_i heq <;> rw [heq] at hone
      · exact hone.trans (ih _)
      · exact hone

theorem flushMailbox_steps (o : Outlet) (m : Moment) {call : Callsign} (hstation : A.station call) :
    OutletSteps A o (o.flushMailbox m call) := by
  unfold flushMailbox
  split_ifs
  · exact .refl
  · exact .refl
  · exact flushBatch_steps m hstation _ o

end Outlet

end ServerOutput
