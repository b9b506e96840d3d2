import Rfircd.ServerSteps

/-! What users do in channels, as steps of the server. -/
namespace ServerSteps

open Basics KeyedTable MessageText HostKey IrcMessage IrcState HeldMail AprsCodec AirTrace AirPolicy
open AircSession RadioGateway AirScreen Accounts ServerOutput ServerCore
open ServerOutput.Outlet ServerCore.Server

/-- The user gave the key, if there is one, and there was room. -/
def Admissible (r : Joined) : Prop :=
  (∀ key ∈ r.key, r.given = some key) ∧ ∀ limit ∈ r.limit, r.members < limit

/-- The sender had voice, if the channel asked for it. -/
def Entitled (r : Relayed) : Prop :=
  r.moderated = true → r.flags.op = true ∨ r.flags.voice = true

/-- A licence that allows what commands of Internet users do. -/
structure Fair (L : Licence) : Prop where
  cleared : ∀ uid acc text, acc.cleared = true → L.aired ⟨.ip uid acc, text⟩
  admissible : ∀ r, r.user.isRf = false → Admissible r → L.joined r
  entitled : ∀ r, r.sender.isRf = false → Entitled r → L.relayed r

variable {L : Licence}

/-! ### Lines and content -/

theorem outlet_steps {s : Server} {o : Outlet} (h : OutletSteps L.toOutletLicence s.outlet o) :
    Steps L s { s with outlet := o } := by
  induction h with
  | refl => exact .refl
  | tail _ hstep ih => exact ih.tail (.outlet hstep)

theorem send_steps {s : Server} {f : Outlet → State → Outlet}
    (h : OutletSteps L.toOutletLicence s.outlet (f s.outlet s.state)) : Steps L s (s.send f) :=
  outlet_steps h

theorem send_core_steps {s : Server} {f : Outlet → State → Outlet}
    (h : (f s.outlet s.state).core = s.outlet.core) : Steps L s (s.send f) :=
  outlet_steps (core_steps h)

theorem foldl_steps {α : Type*} {f : Server → α → Server} (h : ∀ s x, Steps L s (f s x))
    (s : Server) (xs : List α) : Steps L s (xs.foldl f s) := by
  induction xs generalizing s with
  | nil => exact .refl
  | cons x xs ih => exact (h s x).trans (ih _)

theorem perform_steps (s : Server) (op : RadioOp) (h : L.MayPerform op) :
    Steps L s (s.perform op) :=
  send_steps (Outlet.perform_steps _ op h)

theorem numeric_steps (s : Server) (uid : UserId) (code : Text) (params : List Text) :
    Steps L s (s.numeric uid code params) :=
  send_core_steps (numeric_core ..)

theorem noticeUser_steps (s : Server) (m : Moment) (uid : UserId) (text : Text) :
    Steps L s (s.noticeUser m uid text) :=
  send_steps (Outlet.noticeUser_steps ..)

theorem noticeAccountError_steps (s : Server) (m : Moment) (uid : UserId) (e : AccountError) :
    Steps L s (s.noticeAccountError m uid e) :=
  send_steps (Outlet.noticeUser_steps ..)

theorem announceMode_steps (s : Server) (channel setter changes : Text) (args : List Text) :
    Steps L s (s.announceMode channel setter changes args) :=
  send_core_steps (sendToMembers_core ..)

theorem closeLink_steps (s : Server) (uid : UserId) (line : Text) :
    Steps L s (s.closeLink uid line) := by
  cases uid with
  | ip id =>
    change Steps L s (s.send fun o _ => o.sendRaw id line)
    exact send_core_steps rfl
  | rf call => exact .refl

/-- Leaving, and a new nick, are not told on the air. -/
theorem quit_licensed {A : Aired → Prop} {nick mask reason : Text} :
    (Delivery.quit nick mask reason).Licensed A := by
  intro presence e he
  cases he

theorem nickChange_licensed {A : Aired → Prop} {old mask new : Text} :
    (Delivery.nickChange old mask new).Licensed A := by
  intro presence e he
  cases he

/-- A presence notice has no text of anybody. -/
theorem join_licensed {A : Aired → Prop} {nick mask channel : Text} :
    (Delivery.join nick mask channel).Licensed A := by
  intro presence e he r hr
  simp only [Delivery.rfEmission] at he
  split_ifs at he
  · obtain rfl := Option.some.inj he
    cases hr
  · cases he

theorem part_licensed {A : Aired → Prop} {nick mask channel reason : Text} :
    (Delivery.part nick mask channel reason).Licensed A := by
  intro presence e he r hr
  simp only [Delivery.rfEmission] at he
  split_ifs at he
  · obtain rfl := Option.some.inj he
    cases hr
  · cases he

theorem quitUser_steps (s : Server) (m : Moment) (uid : UserId) (reason : Text) :
    Steps L s (s.quitUser m uid reason) := by
  unfold quitUser
  split
  · exact .refl
  · rename_i u _
    extract_lets told rfChannels outlet removed gone
    have htold : Steps L s told := by
      simp only [told]
      split_ifs
      · exact send_steps (broadcastPeers_steps _ _ _ _ _ quit_licensed)
      · exact .refl
    have hremoved : Steps L told removed := by
      have hnotices : Steps L { told with state := told.state.removeUser uid } removed :=
        outlet_steps (core_steps rfl)
      exact (Relation.ReflTransGen.single .remove).trans hnotices
    have hgone : Steps L removed gone := by
      simp only [gone]
      cases uid with
      | ip id =>
        change Steps L removed (removed.send fun o _ => { o with clients := o.clients.disconnect id })
        exact send_core_steps rfl
      | rf call =>
        have hnone : removed.user (.rf call) = none :=
          (State.user_removeUser ..).trans (if_pos rfl)
        exact .single (.forget hnone)
    refine ((htold.trans hremoved).trans hgone).trans (foldl_steps (fun s c => ?_) _ _)
    split_ifs
    · exact .refl
    · exact send_core_steps (noticeRfAudience_core ..)

/-! ### Privileges -/

theorem reapplyFlags_steps (s : Server) (uid : UserId) : Steps L s (s.reapplyFlags uid) := by
  unfold reapplyFlags
  extract_lets nick
  apply foldl_steps
  intro s ch
  have hflags : Steps L s { s with state := (s.state.applyIntendedFlags uid ch).2 } := .single .flags
  cases hnew : s.state.applyIntendedFlags uid ch with
  | mk changed st =>
    rw [hnew] at hflags
    cases changed with
    | none => exact .refl
    | some flags =>
      refine hflags.trans ?_
      have hop : ∀ s : Server, Steps L s (if flags.1.op ≠ flags.2.op then
          s.announceMode ch s.cfg.name (if flags.2.op then "+o" else "-o") [nick] else s) := by
        intro s
        split_ifs <;> first | exact announceMode_steps .. | exact .refl
      have hvoice : ∀ s : Server, Steps L s (if flags.1.voice ≠ flags.2.voice then
          s.announceMode ch s.cfg.name (if flags.2.voice then "+v" else "-v") [nick] else s) := by
        intro s
        split_ifs <;> first | exact announceMode_steps .. | exact .refl
      exact (hop _).trans (hvoice _)

/-- What is stripped from others comes after one's own privileges. -/
theorem refreshRfTx_cases (s : Server) (strip : Server → Callsign → Server) (uid : UserId) :
    s.refreshRfTx strip uid = recompute s uid ∨
      ∃ call, s.refreshRfTx strip uid = strip (recompute s uid) call := by
  unfold recompute refreshRfTx
  cases s.user uid with
  | none => exact .inl rfl
  | some u =>
    simp only
    split_ifs
    · exact .inl rfl
    all_goals
      split
      · exact .inr ⟨_, rfl⟩
      · exact .inl rfl

theorem refreshRfTx_steps {s : Server} {strip : Server → Callsign → Server}
    (hstrip : ∀ s c, Steps L s (strip s c)) (uid : UserId) :
    Steps L (recompute s uid) (s.refreshRfTx strip uid) := by
  rcases refreshRfTx_cases s strip uid with h | ⟨call, h⟩
  · rw [h]
  · rw [h]
    exact hstrip _ _

theorem clearCallsign_steps (s : Server) (uid : UserId) :
    Steps L s (s.modifyUser uid fun u => { u with callsign := none }) :=
  .single (.touch (fun _ => ⟨rfl, rfl, rfl, rfl, rfl, rfl, rfl⟩) fun _ => rfl)

theorem stripWith_steps (s : Server) {refresh : Server → UserId → Server}
    (hrefresh : ∀ s uid, Steps L s (refresh s uid)) (m : Moment) (call : Callsign)
    (keep : Option UserId) (notice : Text) : Steps L s (s.stripWith refresh m call keep notice) := by
  unfold stripWith
  extract_lets victims
  apply foldl_steps
  intro s u
  exact ((clearCallsign_steps s u.id).trans (noticeUser_steps ..)).trans (hrefresh ..)

/-- The induction is on the rounds that are left. -/
theorem refreshWith_settles (n : ℕ) (s : Server) (m : Moment) (uid : UserId) :
    Steps L (recompute s uid) (refreshWith n s m uid) := by
  induction n generalizing s uid with
  | zero => exact (refreshRfTx_steps (fun _ _ => .refl) uid).trans (reapplyFlags_steps ..)
  | succ n ih =>
    have hrefresh : ∀ s v, Steps L s (refreshWith n s m v) :=
      fun s v => (Relation.ReflTransGen.single .recompute).trans (ih s v)
    exact (refreshRfTx_steps (fun s c => stripWith_steps s hrefresh ..) uid).trans
      (reapplyFlags_steps ..)

/-- The privileges of the user come first. -/
theorem refreshPrivileges_settles (s : Server) (m : Moment) (uid : UserId) :
    Steps L (recompute s uid) (s.refreshPrivileges m uid) :=
  refreshWith_settles ..

theorem refreshPrivileges_steps (s : Server) (m : Moment) (uid : UserId) :
    Steps L s (s.refreshPrivileges m uid) :=
  (Relation.ReflTransGen.single .recompute).trans (refreshPrivileges_settles ..)

theorem stripCallsignClaims_steps (s : Server) (m : Moment) (call : Callsign) (keep : Option UserId)
    (notice : Text) : Steps L s (s.stripCallsignClaims m call keep notice) :=
  stripWith_steps s (fun s v => refreshPrivileges_steps s m v) ..

/-! ### Joining and leaving -/

theorem announceJoin_steps (s : Server) (m : Moment) (id : ℕ) (name : Text) (flags : MemberFlags) :
    Steps L s (s.announceJoin m (.ip id) name flags) := by
  unfold announceJoin
  rcases s.signature (.ip id) with ⟨nick, mask⟩
  dsimp -zeta only
  extract_lets real told op voice shown
  have htold : Steps L s told := send_steps (broadcastChannelEx_steps _ _ _ _ _ fun _ => join_licensed)
  have hop : Steps L told op := by
    simp only [op]
    split_ifs
    · exact announceMode_steps ..
    · exact .refl
  have hvoice : Steps L op voice := by
    simp only [voice]
    split_ifs
    · exact announceMode_steps ..
    · exact .refl
  have hshown : Steps L voice shown :=
    send_core_steps ((sendNames_core ..).trans (sendTopic_core ..))
  have hall := ((htold.trans hop).trans hvoice).trans hshown
  split_ifs
  · exact hall.trans (send_core_steps (noticeRfJoin_core ..))
  · exact hall

/-- The key and the room were checked. -/
theorem doJoin_steps (hL : Fair L) (hcreates : L.changes .creates) (s : Server) (m : Moment) (id : ℕ) (name key : Text) :
    Steps L s (s.doJoin m (.ip id) name key) := by
  unfold doJoin
  extract_lets chan real made
  split_ifs with hname hmember hmany hkey hlimit
  · exact numeric_steps ..
  · exact send_core_steps ((sendNames_core ..).trans (sendTopic_core ..))
  · exact numeric_steps ..
  · exact numeric_steps ..
  · exact numeric_steps ..
  · have hmade : Steps L s made := .single (.ensure hcreates)
    have hadmissible : Admissible (joinedRecord made (.ip id) name (some key)) := by
      have hchan : (made.state.channel name = chan ∨
          made.state.channel name = some (.new name false)) := by
        simp only [made, State.ensureChannel]
        split_ifs with hold
        · exact .inl rfl
        · exact .inr (Table.get_set_self ..)
      rcases hchan with hchan | hchan
      · constructor
        · intro k hk
          simp only [joinedRecord, hchan, Option.mem_def] at hk
          obtain ⟨c, hc, hck⟩ := Option.bind_eq_some_iff.mp hk
          by_contra hne
          refine hkey ?_
          rw [hc]
          simp only [joinedRecord, Option.some.injEq] at hne
          simpa [hck] using Ne.symm hne
        · intro l hl
          simp only [joinedRecord, hchan, Option.mem_def] at hl ⊢
          obtain ⟨c, hc, hcl⟩ := Option.bind_eq_some_iff.mp hl
          rw [hc] at hlimit ⊢
          simpa [hcl] using hlimit
      · constructor
        · intro k hk
          simp [joinedRecord, hchan, Channel.new] at hk
        · intro l hl
          simp [joinedRecord, hchan, Channel.new] at hl
    split
    · exact hmade
    · rename_i hjoin
      have hjoined := Relation.ReflTransGen.single (Step.join hjoin (hL.admissible _ rfl hadmissible))
      exact (hmade.trans hjoined).trans (announceJoin_steps ..)

theorem doPart_steps (s : Server) (m : Moment) (uid : UserId) (name reason : Text) :
    Steps L s (s.doPart m uid name reason) := by
  unfold doPart
  split
  · exact numeric_steps ..
  · split_ifs
    · exact numeric_steps ..
    · have htold : ∀ chan : Channel, ∀ nick mask, Steps L s (s.send fun o st =>
          o.broadcastChannel st m chan.name (.part nick mask chan.name reason) none) :=
        fun chan nick mask => send_steps (broadcastChannelEx_steps _ _ _ _ _ fun _ => part_licensed)
      exact (htold _ _ _).tail .part

theorem cmdJoin_steps (hL : Fair L) (hcreates : L.changes .creates) (s : Server) (m : Moment) (id : ℕ) (msg : Message) :
    Steps L s (s.cmdJoin m (.ip id) msg) := by
  unfold cmdJoin
  split
  · exact numeric_steps ..
  · split_ifs
    · exact foldl_steps (fun s key => doPart_steps ..) _ _
    · exact foldl_steps (fun s e => doJoin_steps hL hcreates ..) _ _

theorem cmdPart_steps (s : Server) (m : Moment) (uid : UserId) (msg : Message) :
    Steps L s (s.cmdPart m uid msg) := by
  unfold cmdPart
  split
  · exact numeric_steps ..
  · exact foldl_steps (fun s name => doPart_steps ..) _ _

/-! ### Topics -/

/-- What is radiated at once has passed the gate. What is stored has not, always. -/
theorem setTopic_steps (hL : Fair L) (s : Server) (m : Moment) (uid : UserId) (chan : Channel)
    (topic : Text) : Steps L s (s.setTopic m uid chan topic) := by
  unfold setTopic
  rcases s.signature uid with ⟨nick, mask⟩
  dsimp -zeta only
  extract_lets stored origin kept
  have hstored : Steps L s stored := .single (.channel (.inr fun _ => ⟨rfl, rfl, rfl⟩)
    ⟨fun _ => rfl, fun _ => rfl, fun _ => rfl, fun _ => .inl rfl⟩ fun _ _ _ => rfl)
  have hgate : ∀ gate : Bool × Server, (if chan.rf && chan.hasRfMembers && stored.outlet.gateway.available then
      stored.screenForAir m uid topic else (false, stored)) = gate → Steps L stored gate.2 ∧
      (gate.1 = true → (gate.2.outlet.acceptance gate.2.state uid true).cleared = true) := by
    rintro gate rfl
    split_ifs
    · have hscreen : OutletSteps L.toOutletLicence stored.outlet
          (stored.outlet.screen stored.state m uid topic .now).2 := screen_steps ..
      refine ⟨outlet_steps hscreen, fun hok => ?_⟩
      obtain ⟨x, hx⟩ := Option.isSome_iff_exists.mp hok
      exact (congrArg Acceptance.cleared (steps_acceptance hscreen ..)).trans (screen_cleared hx)
    · exact ⟨.refl, fun h => absurd h (by simp)⟩
  have hgate := hgate _ rfl
  have hkept : Steps L _ kept :=
    .single (.channel (.inr fun _ => ⟨rfl, rfl, rfl⟩)
      ⟨fun _ => rfl, fun _ => rfl, fun _ => rfl, fun _ => .inr fun _ _ h => by cases h⟩
      fun _ _ _ => rfl)
  refine ((hstored.trans hgate.1).trans hkept).trans (send_steps ?_)
  refine broadcastChannelEx_steps _ _ _ _ _ fun hrf => ?_
  intro presence e he r hr
  obtain rfl := Option.some.inj he
  obtain rfl := Option.some.inj hr
  refine hL.cleared uid _ _ ?_
  rw [hrf]
  exact hgate.2 hrf

theorem cmdTopic_steps (hL : Fair L) (s : Server) (m : Moment) (uid : UserId) (msg : Message) :
    Steps L s (s.cmdTopic m uid msg) := by
  unfold cmdTopic
  split
  · exact numeric_steps ..
  · split
    · exact numeric_steps ..
    · exact send_core_steps (sendTopic_core ..)
    · split
      · exact numeric_steps ..
      · split_ifs
        · exact numeric_steps ..
        · exact .refl
        · exact setTopic_steps hL ..

/-! ### Modes -/

/-- A mode changes; whoever is in the channel stays in it. -/
theorem modifyChannel_steps (hmodes : L.changes .modes) (s : Server) {name : Text}
    {f : Channel → Channel} (hf : Edits f) (hmembers : ∀ c uid, (f c).isMember uid = c.isMember uid) :
    Steps L s (s.modifyChannel name f) :=
  .single (.channel (.inl hmodes) hf fun c _ => hmembers c)

/-- Modes and members change; the topic stays. -/
theorem edits_of {f : Channel → Channel}
    (h : ∀ c, (f c).name = c.name ∧ (f c).operators = c.operators ∧
      (f c).configured = c.configured ∧ (f c).topicOrigin = c.topicOrigin) : Edits f :=
  ⟨fun c => (h c).1, fun c => (h c).2.1, fun c => (h c).2.2.1, fun c => .inl (h c).2.2.2⟩

theorem modeFlag_steps (hmodes : L.changes .modes) (s : Server) (c : ModeChange) (l : ModeLine) (letter : Char)
    (get : Channel → Bool) {set : Channel → Channel} (hset : Edits set)
    (hmembers : ∀ c uid, (set c).isMember uid = c.isMember uid) :
    Steps L s (s.modeFlag c l letter get set).1 := by
  unfold modeFlag
  split_ifs
  · exact modifyChannel_steps hmodes s hset hmembers
  · exact .refl

theorem modeBridge_steps (hmodes : L.changes .modes) (s : Server) (c : ModeChange) (l : ModeLine) :
    Steps L s (s.modeBridge c l).1 := by
  unfold modeBridge
  split_ifs
  · exact numeric_steps ..
  · split
    · exact .refl
    · rename_i ch _
      by_cases hsame : ch.rf = l.adding
      · rw [if_pos hsame]
      · rw [if_neg hsame]
        refine modifyChannel_steps hmodes s (edits_of fun ch => ?_) fun ch uid => ?_
        · unfold bridged
          split_ifs <;> exact ⟨rfl, rfl, rfl, rfl⟩
        · unfold bridged Channel.isMember
          split_ifs
          · rw [Table.get_filterMap]
            cases ch.members.get uid <;> rfl
          · rfl

theorem modeKey_steps (hmodes : L.changes .modes) (s : Server) (c : ModeChange) (l : ModeLine) :
    Steps L s (s.modeKey c l).1 := by
  unfold modeKey
  extract_lets key l'
  clear_value key
  split_ifs
  · split
    · exact numeric_steps ..
    · exact numeric_steps ..
    · split_ifs
      · exact modifyChannel_steps hmodes s (edits_of fun _ => ⟨rfl, rfl, rfl, rfl⟩) fun _ _ => rfl
      · exact .refl
  · exact modifyChannel_steps hmodes s (edits_of fun _ => ⟨rfl, rfl, rfl, rfl⟩) fun _ _ => rfl
  · exact .refl

theorem modeLimit_steps (hmodes : L.changes .modes) (s : Server) (c : ModeChange) (l : ModeLine) :
    Steps L s (s.modeLimit c l).1 := by
  unfold modeLimit
  extract_lets raw l'
  split_ifs
  · split
    · exact numeric_steps ..
    · split_ifs
      · exact modifyChannel_steps hmodes s (edits_of fun _ => ⟨rfl, rfl, rfl, rfl⟩) fun _ _ => rfl
      · exact .refl
  · exact modifyChannel_steps hmodes s (edits_of fun _ => ⟨rfl, rfl, rfl, rfl⟩) fun _ _ => rfl
  · exact .refl

theorem modeMember_steps (hmodes : L.changes .modes) (s : Server) (c : ModeChange) (l : ModeLine) (letter : Char) :
    Steps L s (s.modeMember c l letter).1 := by
  unfold modeMember
  extract_lets who l'
  clear_value who
  split_ifs
  · exact numeric_steps ..
  · split
    · exact numeric_steps ..
    · split
      · exact numeric_steps ..
      · split
        · exact numeric_steps ..
        · rename_i flags hflags
          refine .single (.channel (.inl hmodes) (edits_of fun _ => ⟨rfl, rfl, rfl, rfl⟩) fun ch hch uid => ?_)
          rw [hch] at hflags
          simp only [Channel.isMember, Table.get_set]
          split_ifs with huid
          · rw [huid, show ch.members.get _ = some flags from hflags]
            rfl
          · rfl

theorem modeChar_steps (hmodes : L.changes .modes) (s : Server) (c : ModeChange) (l : ModeLine) (letter : Char) :
    Steps L s (s.modeChar c l letter).1 := by
  unfold modeChar
  split_ifs
  · exact .refl
  · exact .refl
  · exact numeric_steps ..
  · exact modeFlag_steps hmodes s c l _ _ (edits_of fun _ => ⟨rfl, rfl, rfl, rfl⟩) fun _ _ => rfl
  · exact modeFlag_steps hmodes s c l _ _ (edits_of fun _ => ⟨rfl, rfl, rfl, rfl⟩) fun _ _ => rfl
  · exact modeBridge_steps hmodes ..
  · exact modeKey_steps hmodes ..
  · exact modeLimit_steps hmodes ..
  · exact modeMember_steps hmodes ..
  · exact .refl

theorem letters_steps (hmodes : L.changes .modes) (c : ModeChange) (letters : Text)
    (e : Server × ModeLine) : Steps L e.1
      (letters.foldl (fun (e : Server × ModeLine) letter => e.1.modeChar c e.2 letter) e).1 := by
  induction letters generalizing e with
  | nil => exact .refl
  | cons letter letters ih => exact (modeChar_steps hmodes ..).trans (ih _)

theorem changeModes_steps (hmodes : L.changes .modes) (s : Server) (m : Moment) (c : ModeChange)
    (changes : Text) : Steps L s (s.changeModes m c changes) := by
  have hchanges := letters_steps hmodes c changes (s, .start)
  unfold changeModes
  generalize changes.foldl (fun (e : Server × ModeLine) letter => e.1.modeChar c e.2 letter)
    (s, .start) = e at hchanges
  obtain ⟨t, l⟩ := e
  dsimp only at hchanges ⊢
  split_ifs
  · exact hchanges
  · exact (hchanges.trans (announceMode_steps ..)).trans
      (foldl_steps (fun s member => refreshPrivileges_steps ..) _ _)

theorem cmdMode_steps (hmodes : L.changes .modes) (s : Server) (m : Moment) (uid : UserId) (msg : Message) :
    Steps L s (s.cmdMode m uid msg) := by
  unfold cmdMode
  split
  · exact numeric_steps ..
  · split_ifs
    · exact numeric_steps ..
    · exact numeric_steps ..
    · split
      · exact numeric_steps ..
      · exact numeric_steps ..
      · split_ifs
        · exact numeric_steps ..
        · exact changeModes_steps hmodes ..

/-! ### Removal and messages -/

theorem cmdKick_steps (s : Server) (m : Moment) (uid : UserId) (msg : Message) :
    Steps L s (s.cmdKick m uid msg) := by
  unfold cmdKick
  split
  · exact numeric_steps ..
  · exact numeric_steps ..
  · split
    · exact numeric_steps ..
    · split_ifs
      · exact numeric_steps ..
      · split
        · exact numeric_steps ..
        · split_ifs
          · exact numeric_steps ..
          · extract_lets mask line told removed
            have hremoved : Steps L s removed :=
              (send_core_steps (sendToMembers_core ..)).tail .part
            split
            · exact hremoved
            · exact (hremoved.trans (perform_steps _ _ (by trivial))).trans (perform_steps _ _ (by trivial))

theorem relay_steps {s : Server} {m : Moment} {sender : UserId} {channel : Text} {d : Delivery}
    {allowRf : Bool} (hd : allowRf = true → d.Licensed L.aired)
    (hr : L.relayed ⟨sender, channel, (s.state.channel channel).any Channel.moderated,
      ((s.state.channel channel).bind fun c => c.members.get sender).getD .default⟩) :
    Steps L s (s.relay m sender channel d allowRf) :=
  (send_steps (broadcastChannelEx_steps _ _ _ _ _ hd)).tail (.relayed hr)

/-- The sender's voice was checked in the channel that the message goes to. -/
theorem channelMessage_steps (hL : Fair L) (s : Server) (m : Moment) {uid : UserId} (hip : uid.isRf = false)
    (sender : User) {chan : Channel} (text : Text) (notice : Bool)
    (hchan : s.state.channel chan.name = some chan)
    (hvoice : chan.moderated = true → ∃ flags, chan.members.get uid = some flags ∧
      (flags.op = true ∨ flags.voice = true)) :
    Steps L s (s.channelMessage m uid sender chan text notice) := by
  unfold channelMessage
  rcases hair : s.outlet.channelForAir s.state m uid chan text notice with ⟨screened, o⟩
  have hscreen : OutletSteps L.toOutletLicence s.outlet o := by
    have h : OutletSteps L.toOutletLicence s.outlet (s.outlet.channelForAir s.state m uid chan text notice).2 :=
      channelForAir_steps ..
    rwa [hair] at h
  have hcleared : ∀ x, screened = some x → (s.outlet.acceptance s.state uid true).cleared = true :=
    fun x hx => channelForAir_cleared ((congrArg Prod.fst hair).trans hx)
  dsimp -zeta only
  extract_lets accepted s' d relayed
  have hrelayed : Steps L s' relayed := by
    refine relay_steps (fun hrf => ?_) (hL.entitled _ hip ?_)
    · obtain ⟨x, hx⟩ := Option.isSome_iff_exists.mp hrf
      simp only [d, accepted]
      rw [hrf]
      exact cleared_licensed hL.cleared (hcleared x hx) _ _ _ _ _ _
    · intro hmod
      have hchan' : s'.state.channel chan.name = some chan := hchan
      simp only [hchan', Option.any_some] at hmod
      obtain ⟨flags, hflags, hv⟩ := hvoice hmod
      simp only [hchan', Option.bind_some, hflags, Option.getD_some]
      exact hv
  have hall := (outlet_steps hscreen).trans hrelayed
  split_ifs
  · exact hall.trans (noticeUser_steps ..)
  · exact hall

theorem cmdPrivmsg_steps (hL : Fair L) {s : Server} (hnamed : Named s) (m : Moment) {uid : UserId}
    (hip : uid.isRf = false) (msg : Message) (notice : Bool) :
    Steps L s (s.cmdPrivmsg m uid msg notice) := by
  unfold cmdPrivmsg
  split
  · exact numeric_steps ..
  · exact numeric_steps ..
  · exact numeric_steps ..
  · split
    · exact .refl
    · split_ifs
      · split
        · exact numeric_steps ..
        · rename_i chan hchan
          split
          · exact numeric_steps ..
          · rename_i flags hflags
            split_ifs with hmod
            · exact numeric_steps ..
            · refine channelMessage_steps hL s m hip _ _ _ (hnamed.lookup hchan) fun h => ?_
              exact ⟨flags, hflags, by simpa [h, or_iff_not_imp_left] using hmod⟩
      · split
        · exact send_steps (offerMailbox_steps hL.cleared ..)
        · exact send_steps (privateMessage_steps hL.cleared ..)

end ServerSteps
