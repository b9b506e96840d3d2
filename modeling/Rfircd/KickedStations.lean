import Rfircd.StationRecords

/-! A station that the operator has removed.
It stays out until it says `HELLO` or `JOIN` again, whatever else it sends. -/
namespace KickedStations

open Basics Ax25 Airc AircSession KeyedTable MessageText HostKey IrcMessage IrcState RadioSessions
open ServerOutput ServerCore ServerCore.Server Bridge ServerSteps ServerInvariants ServerRuns
open StateConsistency StationRecords TransitionSystem AirTrace RadioGateway

variable {s t r : Server} {call : Callsign} {verifies : Text → Text → Prop} {reader : BeaconReader}

/-- The line is an operator's `RADIO KICK` of the station, and the operator is not flooding. -/
structure Kicks (s : Server) (m : Moment) (id : ℕ) (msg : Message) (call : Callsign) : Prop where
  command : msg.command = "RADIO"
  sub : (msg.param 0).map (fun t => t.map toAsciiUpper) = some "KICK"
  target : (msg.param 1).bind Callsign.fromStr = some call
  operator : (s.user (.ip id)).any (fun u => u.registered && u.oper) = true
  rate : (s.outlet.policy.ipCmdRateOk (natText id) m.now).1 = true

/-- No message that begins as a `HELLO` or `JOIN` is half received. -/
def NoLogin (_ : UInt16) (r : Reassembly) : Prop := r.kind ≠ .hello ∧ r.kind ≠ .join

/-- The station is out, and nothing that it has begun to say lets it in. -/
structure KeptOut (call : Callsign) (s : Server) : Prop where
  grounded : Grounded s
  linked : Linked s.state
  absent : s.user (.rf call) = none
  banned : s.outlet.sessions.isBanned call = true
  buffers : BuffersHold NoLogin (s.outlet.sessions.record call)

/-- The frame, if it comes from the station, is no `HELLO` and no `JOIN`. -/
def SendsNoLogin (reader : BeaconReader) (call : Callsign) (s : Server)
    (e : Moment × ServerRuns.Event) : Prop :=
  ∀ frame, e.2 = .rf frame → frame.source.call = call →
    ∀ f ∈ aircFrame (heard s.cfg reader frame), f.kind ≠ .hello ∧ f.kind ≠ .join

/-! ### While it is out -/

/-- The licence under which the station stays out. -/
def outside (call : Callsign) (now : ℕ) : Licence :=
  ⟨{ OutletLicence.free with
      received := fun src f => src = call → f.kind ≠ .hello ∧ f.kind ≠ .join
      station := fun other => other ≠ call
      expires := fun n => n = now },
    fun _ => True, fun _ => True, fun _ _ => True, fun _ => True, fun _ => True⟩

theorem stored_noLogin {f : AircFrame} (hf : f.kind ≠ .hello ∧ f.kind ≠ .join) :
    StoresAs NoLogin f := by
  intro _ cfg p now forUs hp
  have hbuffer : NoLogin f.seq
      (bufferFor (evictReasm p f.seq cfg.maxReasm) f now (forUs && f.wantsAck)) := by
    unfold bufferFor
    dsimp only
    split
    · exact hf
    · rename_i r hr
      split_ifs
      · exact hf
      · exact hp.evict _ _ _ r hr
  exact hbuffer

theorem steps_keptOut {now : ℕ} (hsteps : Steps (outside call now) s t) (h : KeptOut call s) :
    KeptOut call t ∧ MailKept call now s.outlet.mailbox t.outlet.mailbox := by
  have hout : ¬ (outside call now).station call := fun hne => hne rfl
  have hframes : ∀ f, (outside call now).received call f → StoresAs NoLogin f :=
    fun f hf => stored_noLogin (hf rfl)
  induction hsteps with
  | refl => exact ⟨h, .refl ..⟩
  | tail _ hstep ih =>
    obtain ⟨h, hmail⟩ := ih
    have hchanges := step_sessions hstep
    have hgrounded := h.grounded
    refine ⟨⟨⟨?_, ?_, ?_⟩, ?_, ?_, ?_, ?_⟩, hmail.trans ?_⟩
    · exact step_standing hstep hgrounded.standing
    · exact step_named hstep hgrounded.named
    · exact step_topics hstep hgrounded.topics
    · exact step_linked hstep hgrounded.standing h.linked
    · exact step_absent hstep hout h.absent
    · exact changes_banned hchanges hout h.banned
    · exact changes_hold hchanges hframes h.buffers
    · exact step_mail hstep hout fun _ hn => hn

theorem handedOver_noLogin {f msg : AircFrame} (hf : f.kind ≠ .hello ∧ f.kind ≠ .join)
    (h : HandedOver NoLogin f msg) : msg.kind ≠ .hello ∧ msg.kind ≠ .join := by
  rcases h with ⟨rfl, -, -⟩ | ⟨r, hr, -, rfl⟩
  · exact hf
  · exact hr

/-- Whatever happens, the station is let in by nothing but its own login. -/
theorem outside_licensed {e : Moment × ServerRuns.Event} (h : KeptOut call s)
    (hg : SendsNoLogin reader call s e) (he : ServerRuns.Enabled verifies s e) :
    EventLicence (outside call e.1.now) reader s e := by
  have hrecording : Recording (outside call e.1.now) :=
    ⟨fun _ _ => trivial, fun _ => trivial, fun _ => trivial, fun _ => trivial, fun _ => trivial⟩
  refine recording_licensed hrecording (fun _ _ => trivial) h.grounded.standing he (fun frame hframe _ => ?_) rfl
    (fun _ _ _ _ _ => trivial) fun _ _ => trivial
  have hg : frame.source.call = call → ∀ f forUs broadcast,
      heard s.cfg reader frame = .airc f forUs broadcast → f.kind ≠ .hello ∧ f.kind ≠ .join := by
    intro hsrc f forUs broadcast hheard
    exact hg frame hframe hsrc f (by rw [hheard]; rfl)
  refine ⟨fun f forUs broadcast hheard hsrc => hg hsrc f forUs broadcast hheard, ?_, ?_⟩
  · intro f forUs broadcast hheard msg hmsg hlogin hsrc
    have hkind := hg hsrc f forUs broadcast hheard
    have hdeliver := (Option.filter_eq_some_iff.mp hmsg).1
    rw [hsrc] at hdeliver
    obtain ⟨hhello, hjoin⟩ := handedOver_noLogin hkind
      ((onReceive_hold h.buffers (stored_noLogin hkind) e.1.now forUs).2 msg hdeliver)
    exact hlogin.elim hhello hjoin
  · intro hfree hsrc
    rw [hsrc, h.banned] at hfree
    cases hfree

theorem next_keptOut {e : Moment × ServerRuns.Event} (h : KeptOut call s)
    (hg : SendsNoLogin reader call s e) (he : ServerRuns.Enabled verifies s e) :
    KeptOut call (s.next reader e) ∧
      MailKept call e.1.now s.outlet.mailbox (s.next reader e).outlet.mailbox :=
  have hsteps := next_steps h.grounded.standing h.grounded.named he trivial
    (outside_licensed h hg he)
  steps_keptOut hsteps h

/-! ### The kick -/

theorem radioKick_order {m : Moment} {id : ℕ} {msg : Message}
    (hsub : (msg.param 0).map (fun t => t.map toAsciiUpper) = some "KICK")
    (htarget : (msg.param 1).bind Callsign.fromStr = some call)
    (hoper : r.isOper (.ip id) = true) :
    r.command m id msg "RADIO" =
      ((r.perform (.ban call)).quitUser m (.rf call) "Removed by control operator").noticeUser m
        (.ip id) "Station removed." := by
  have hword : String.ofList (((msg.param 0).getD "STATUS").map toAsciiUpper) = "KICK" := by
    obtain ⟨w, hw, hmap⟩ := Option.map_eq_some_iff.mp hsub
    rw [hw, Option.getD_some, hmap]
    rfl
  have hradio : r.command m id msg "RADIO" = r.cmdRadio m (.ip id) msg := rfl
  have hkick : r.radioCommand m (.ip id) msg "KICK" = r.radioKick m (.ip id) msg := rfl
  rw [hradio, cmdRadio, hword, if_neg (by decide), requireOper, if_pos hoper, hkick, radioKick, htarget]

/-- A flood limit counts, and the user was active just now; then the order is carried out. -/
theorem kick_next (reader : BeaconReader) {m : Moment} {id : ℕ} {line : Text} {msg : Message}
    (hparse : Message.parse line = some msg) (h : Kicks s m id msg call) :
    ∃ r, Steps (outside call m.now) s r ∧ r.user (.rf call) = s.user (.rf call) ∧
      r.outlet.sessions = s.outlet.sessions ∧
      s.next reader (m, .line id line) =
        (((r.perform (.ban call)).quitUser m (.rf call) "Removed by control operator").noticeUser m
          (.ip id) "Station removed.").reapEvictedPeers m := by
  obtain ⟨u, hu, hboth⟩ := Option.any_eq_true .. |>.mp h.operator
  obtain ⟨hreg, hoper⟩ := Bool.and_eq_true .. |>.mp hboth
  have hcmd : String.ofList msg.command = "RADIO" := by
    rw [h.command]
    rfl
  refine ⟨admitted s m id, admitted_steps s m id, (admitted_user ..).trans (if_neg (by simp)), rfl, ?_⟩
  have hline : s.handleLine m id line = (admitted s m id).command m id msg "RADIO" :=
    handleLine_command hparse hcmd hu hreg (by simp [listenOnlyCommand]) rfl h.rate
  have hoper' : (admitted s m id).isOper (.ip id) = true := by
    rw [isOper, admitted_user, if_pos rfl, hu]
    exact hoper
  rw [Server.next]
  dsimp only
  rw [hline, radioKick_order h.sub h.target hoper']

theorem linked_inductive {guard : Server → Moment × ServerRuns.Event → Prop} :
    Inductive (ServerRuns.system reader verifies) guard fun s => Grounded s ∧ Linked s.state := by
  refine .ofNext (fun s h => ⟨initial_grounded h, ?_⟩) fun s e ⟨hs, hl⟩ hg he => ⟨?_, ?_⟩
  · obtain ⟨cfg, attached, tnc, accounts, unix, rfl⟩ := h
    exact (consistent_initial ⟨cfg, unix, rfl⟩).toLinked
  · exact grounded_inductive.step s e _ hs hg ⟨he, rfl⟩
  · exact steps_linked (next_anything hs he) hs.standing hl

/-- A station that was there is forgotten, with all that it has begun to say. Of another one nothing
is forgotten. -/
theorem kick_keptOut {m : Moment} {id : ℕ} {line : Text} {msg : Message}
    (hs : Grounded s) (hl : Linked s.state)
    (hparse : Message.parse line = some msg) (hkick : Kicks s m id msg call)
    (hclear : (s.user (.rf call)).isSome = true ∨
      BuffersHold NoLogin (s.outlet.sessions.record call)) :
    KeptOut call (s.next reader (m, .line id line)) := by
  obtain ⟨r, hsteps, huser, hsessions, hnext⟩ := kick_next reader hparse hkick
  let banned := r.perform (.ban call)
  let gone := banned.quitUser m (.rf call) "Removed by control operator"
  have hbanned : Steps (outside call m.now) s banned := hsteps.trans (perform_steps r _ trivial)
  have hgone : Steps (outside call m.now) banned gone := quitUser_steps ..
  have hall := hbanned.trans hgone
  obtain ⟨habsent, hforgotten⟩ := quitUser_station banned m call "Removed by control operator"
  have hout : ¬ (outside call m.now).station call := fun hne => hne rfl
  have hban : banned.outlet.sessions.isBanned call = true :=
    decide_eq_true (List.mem_cons_self : call ∈ (r.outlet.sessions.ban call).radioKicked)
  have hrecord : banned.outlet.sessions.record call = s.outlet.sessions.record call := by
    rw [← hsessions]
    rfl
  have hkeptOut : KeptOut call gone := by
    refine ⟨steps_grounded hall hs, ?_, habsent, ?_, ?_⟩
    · exact steps_linked hall hs.standing hl
    · exact changes_banned (steps_sessions hgone) hout hban
    · cases hu : s.user (.rf call) with
      | some u =>
        have hthere : (banned.user (.rf call)).isSome = true := by
          rw [show banned.user (.rf call) = r.user (.rf call) from rfl, huser, hu]
          rfl
        rw [Sessions.record, hforgotten hthere]
        exact record_new_hold 0
      | none =>
        have hsame : gone = banned := by
          have hnone : banned.user (.rf call) = none := huser.trans hu
          simp only [gone, quitUser, hnone]
        rw [hsame, hrecord]
        exact hclear.resolve_left (by simp [hu])
  have hend : Steps (outside call m.now) gone
      ((gone.noticeUser m (.ip id) "Station removed.").reapEvictedPeers m) :=
    (noticeUser_steps ..).trans (reapEvictedPeers_steps _ m trivial)
  rw [hnext]
  exact (steps_keptOut hend hkeptOut).1

/-- The station is out: it is no user and no member, and nothing that waits for it is sent. -/
structure StaysOut (verifies : Text → Text → Prop) (reader : BeaconReader) (call : Callsign)
    (s : Server) : Prop where
  absent : s.user (.rf call) = none
  nowhere : ∀ key, ¬ Holds s.state key (.rf call)
  unsent : ∀ e, SendsNoLogin reader call s e → ServerRuns.Enabled verifies s e →
    MailKept call e.1.now s.outlet.mailbox (s.next reader e).outlet.mailbox

/-- A kick of a station that is there, or has begun no login, holds in every run until the station
logs in again. -/
theorem kick_holds {m : Moment} {id : ℕ} {line : Text} {msg : Message}
    (hs : Reachable (ServerRuns.system reader verifies) everyStep s)
    (hparse : Message.parse line = some msg) (hkick : Kicks s m id msg call)
    (hclear : (s.user (.rf call)).isSome = true ∨
      BuffersHold NoLogin (s.outlet.sessions.record call))
    (hrun : Execution (ServerRuns.system reader verifies) (SendsNoLogin reader call)
      (s.next reader (m, .line id line)) t) : StaysOut verifies reader call t := by
  obtain ⟨hgrounded, hlinked⟩ := linked_inductive.reachable hs
  have hkept : KeptOut call t := by
    induction hrun with
    | refl => exact kick_keptOut hgrounded hlinked hparse hkick hclear
    | tail _ hg hstep ih =>
      obtain ⟨he, rfl⟩ := hstep
      exact (next_keptOut ih hg he).1
  refine ⟨hkept.absent, fun key hmember => ?_, fun e hg he => (next_keptOut hkept hg he).2⟩
  have hpresent := hkept.linked.member_present hmember
  rw [show t.state.user (.rf call) = none from hkept.absent] at hpresent
  cases hpresent

/-- An operator, and a station that is there and is kicked. -/
def operator : List ServerRuns.Event :=
  Small.joins 1 "anna" false ++ [.line 1 "OPER root secret"]

def kick : Text := "RADIO KICK SM0ABC-7"

def online : Server := Small.run (operator ++ [Small.airc Small.station .hello 1 []])

/-- The station goes on talking. -/
def talk : Moment × ServerRuns.Event :=
  (Small.second 7, Small.airc Small.station .msg 2 ["#rf", "hello"])

def kicked (s : Server) : Server := s.next Small.noBeacon (Small.second 6, .line 1 kick)

def kickMessage : Message := ⟨none, "RADIO", ["KICK", "SM0ABC-7"]⟩

theorem kicked_station_talks :
    StaysOut Eq Small.noBeacon Small.station ((kicked online).next Small.noBeacon talk) := by
  have hreached : Small.Feasible (operator ++ [Small.airc Small.station .hello 1 []]) := by
    decide +kernel
  have htalk : SendsNoLogin Small.noBeacon Small.station (kicked online) talk := by
    rintro _ ⟨rfl⟩ _
    decide +kernel
  have hparse : Message.parse kick = some kickMessage := by decide +kernel
  have hkick : Kicks online (Small.second 6) 1 kickMessage Small.station :=
    ⟨by decide, by decide, by decide, by decide +kernel, by decide +kernel⟩
  have hthere : (online.user (.rf Small.station)).isSome = true := by decide +kernel
  exact kick_holds (Small.reachable hreached) hparse hkick (.inl hthere)
    (.tail (.refl _) htalk ⟨trivial, rfl⟩)

/-! ### A login that was begun before -/

/-- One of two parts of a message with number 1. -/
def part (kind : Kind) (index : UInt8) : ServerRuns.Event :=
  Small.frame Small.station
    { AircFrame.new kind 1 [] with fragIndex := index, fragTotal := 2 }.encode

/-- Half a `HELLO` is received. -/
def halfLogin : Server := Small.run (operator ++ [part .hello 0])

/-- The other half comes as a `MSG`. -/
def otherHalf : Moment × ServerRuns.Event := (Small.second 7, part .msg 1)

theorem half_login_comes_back :
    Reachable (ServerRuns.system Small.noBeacon Eq) everyStep halfLogin ∧
      Message.parse kick = some kickMessage ∧
      Kicks halfLogin (Small.second 6) 1 kickMessage Small.station ∧
      Execution (ServerRuns.system Small.noBeacon Eq) (SendsNoLogin Small.noBeacon Small.station)
        (kicked halfLogin) ((kicked halfLogin).next Small.noBeacon otherHalf) ∧
      ¬ StaysOut Eq Small.noBeacon Small.station
        ((kicked halfLogin).next Small.noBeacon otherHalf) := by
  have hguard : SendsNoLogin Small.noBeacon Small.station (kicked halfLogin) otherHalf := by
    rintro _ ⟨rfl⟩ _
    decide +kernel
  refine ⟨Small.reachable (by decide +kernel), by decide +kernel,
    ⟨by decide, by decide, by decide, by decide +kernel, by decide +kernel⟩,
    .tail (.refl _) hguard ⟨trivial, rfl⟩, fun h => ?_⟩
  have hback : (((kicked halfLogin).next Small.noBeacon otherHalf).user
      (.rf Small.station)).isSome = true := by decide +kernel
  rw [h.absent] at hback
  cases hback

end KickedStations
