import Rfircd.AccessFrames

/-! Commands that let nobody in, whoever gives them. Joining a channel is for whom it is allowed. -/
namespace AccessCommands

open Basics KeyedTable MessageText HostKey IrcMessage IrcState AirPolicy AirScreen Accounts
open RadioGateway ServerOutput ServerCore ServerCore.Server ServerSteps LateResults AccessFrames

variable {G : Gain} {s t r : Server} {m : Moment} {uid : UserId} {id : ℕ} {msg : Message}
  {user : User} {call : Callsign}

/-! ### Channels -/

theorem within_announceJoin (s : Server) (m : Moment) (name : Text) (flags : MemberFlags) :
    Within G s (s.announceJoin m uid name flags) := by
  unfold announceJoin
  dsimp only
  split_ifs <;> simp only [within_send, within_announceMode, within_self]

theorem within_doJoin (hmay : G.mark .member uid) (s : Server) (m : Moment) (name key : Text) :
    Within G s (s.doJoin m uid name key) := by
  unfold doJoin
  extract_lets chan real made
  split_ifs
  · simp
  · simp
  · simp only [within_numeric, within_self]
  · simp only [within_numeric, within_self]
  · simp only [within_numeric, within_self]
  · have hmade : Within G s made :=
      (within_congr (r := made) (t := s) (State.users_ensureChannel ..) rfl).mpr (within_self s)
    split
    · exact hmade
    · rename_i hjoin
      exact (within_join (.inr hmay) hjoin hmade).trans (within_announceJoin ..)

theorem within_doPart (s : Server) (m : Moment) (name reason : Text) :
    Within G s (s.doPart m uid name reason) := by
  unfold doPart
  split
  · simp
  · split_ifs
    · simp
    · exact within_part uid _ (by simp)

theorem within_cmdJoin (hmay : G.mark .member uid) (s : Server) (m : Moment) (msg : Message) :
    Within G s (s.cmdJoin m uid msg) := by
  unfold cmdJoin
  split
  · simp only [within_needMore, within_self]
  · split_ifs
    · exact within_foldl (fun s key => within_doPart ..) _ (within_self s)
    · exact within_foldl (fun s e => within_doJoin hmay ..) _ (within_self s)

theorem within_cmdPart (s : Server) (m : Moment) (msg : Message) :
    Within G s (s.cmdPart m uid msg) := by
  unfold cmdPart
  split
  · simp only [within_needMore, within_self]
  · exact within_foldl (fun s name => within_doPart ..) _ (within_self s)

theorem within_setTopic (s : Server) (m : Moment) (chan : Channel) (topic : Text) :
    Within G s (s.setTopic m uid chan topic) := by
  unfold setTopic screenForAir
  dsimp only
  split_ifs <;> simp

theorem within_cmdTopic (s : Server) (m : Moment) (msg : Message) :
    Within G s (s.cmdTopic m uid msg) := by
  unfold cmdTopic
  split
  · simp only [within_needMore, within_self]
  · split
    · simp
    · simp
    · split
      · simp
      · split_ifs <;> first | exact within_setTopic .. | simp

theorem within_modeFlag (s : Server) (c : ModeChange) (l : ModeLine) (letter : Char)
    (get : Channel → Bool) (set : Channel → Channel) :
      Within G s (s.modeFlag c l letter get set).1 := by
  unfold modeFlag
  split_ifs <;> simp

theorem within_modeBridge (s : Server) (c : ModeChange) (l : ModeLine) :
    Within G s (s.modeBridge c l).1 := by
  unfold modeBridge
  split_ifs
  · simp only [within_numeric, within_self]
  · split
    · simp
    · split_ifs <;> simp

theorem within_modeKey (s : Server) (c : ModeChange) (l : ModeLine) :
    Within G s (s.modeKey c l).1 := by
  unfold modeKey
  extract_lets key l'
  clear_value key
  split_ifs
  · split
    · simp only [within_needMore, within_self]
    · simp only [within_needMore, within_self]
    · split_ifs <;> simp
  · simp
  · simp

theorem within_modeLimit (s : Server) (c : ModeChange) (l : ModeLine) :
    Within G s (s.modeLimit c l).1 := by
  unfold modeLimit
  extract_lets raw l'
  split_ifs
  · split
    · simp only [within_needMore, within_self]
    · split_ifs <;> simp
  · simp
  · simp

theorem within_modeMember (s : Server) (c : ModeChange) (l : ModeLine) (letter : Char) :
    Within G s (s.modeMember c l letter).1 := by
  unfold modeMember
  extract_lets who l'
  clear_value who
  split_ifs
  · simp only [within_numeric, within_self]
  · split
    · simp only [within_needMore, within_self]
    · split
      · simp only [within_numeric, within_self]
      · split <;> simp only [within_numeric, within_self, within_modifyChannel]

theorem within_modeChar (s : Server) (c : ModeChange) (l : ModeLine) (letter : Char) :
    Within G s (s.modeChar c l letter).1 := by
  unfold modeChar
  split_ifs
  · exact within_self s
  · exact within_self s
  · simp only [within_numeric, within_self]
  · exact within_modeFlag ..
  · exact within_modeFlag ..
  · exact within_modeBridge ..
  · exact within_modeKey ..
  · exact within_modeLimit ..
  · exact within_modeMember ..
  · exact within_self s

theorem within_changeModes (s : Server) (m : Moment) (c : ModeChange) (changes : Text) :
    Within G s (s.changeModes m c changes) := by
  have hletters : ∀ (letters : Text) (e : Server × ModeLine), Within G e.1
      (letters.foldl (fun (e : Server × ModeLine) letter => e.1.modeChar c e.2 letter) e).1 := by
    intro letters
    induction letters with
    | nil => exact fun e => within_self _
    | cons letter letters ih => exact fun e => (within_modeChar ..).trans (ih _)
  have hchanges := hletters changes (s, .start)
  unfold changeModes
  generalize changes.foldl (fun (e : Server × ModeLine) letter => e.1.modeChar c e.2 letter)
    (s, .start) = e at hchanges
  obtain ⟨t, l⟩ := e
  dsimp only at hchanges ⊢
  split_ifs
  · exact hchanges
  · exact within_foldl (fun s member => within_refreshPrivileges (within_self s)) _
      (by simpa using hchanges)

theorem within_cmdMode (s : Server) (m : Moment) (msg : Message) :
    Within G s (s.cmdMode m uid msg) := by
  unfold cmdMode
  repeat' split
  all_goals first
    | exact within_changeModes ..
    | simp only [within_needMore, within_self, within_numeric, within_noSuchChannel,
      within_opNeeded]

theorem within_cmdKick (s : Server) (m : Moment) (msg : Message) :
    Within G s (s.cmdKick m uid msg) := by
  unfold cmdKick
  split
  · simp only [within_needMore, within_self]
  · simp only [within_needMore, within_self]
  · split
    · simp
    · split_ifs
      · simp
      · split
        · simp only [within_numeric, within_self]
        · split_ifs
          · simp only [within_numeric, within_self]
          · extract_lets mask line told removed
            have hremoved : Within G s removed := within_part _ _ (by simp [told])
            split
            · exact hremoved
            · simpa using hremoved

theorem within_channelMessage (s : Server) (m : Moment) (sender : User) (chan : Channel)
    (text : Text)
    (notice : Bool) : Within G s (s.channelMessage m uid sender chan text notice) := by
  unfold channelMessage
  dsimp only
  split_ifs <;> simp

theorem within_cmdPrivmsg (s : Server) (m : Moment) (msg : Message) (notice : Bool) :
    Within G s (s.cmdPrivmsg m uid msg notice) := by
  unfold cmdPrivmsg
  repeat' split
  all_goals first
    | exact within_channelMessage ..
    | simp only [within_numeric, within_self, within_noSuchChannel, within_send]

/-! ### Password jobs -/

theorem within_authRateOk {ok : Bool} (h : s.authRateOk m uid = (ok, t)) : Within G s t := by
  obtain rfl := congrArg Prod.snd h
  unfold authRateOk
  dsimp only
  split_ifs <;> simp only [within_mk, within_self, within_noticeUser]

theorem within_runArgon2 {kind : AuthKind} {nick : Text} {work : Work}
    (hjob : ∀ id, uid = .ip id → G.job ⟨id, kind, nick, work⟩) (h : Within G s t) :
    Within G s (t.runArgon2 uid kind nick work) := by
  cases uid with
  | rf call => exact h
  | ip id =>
    refine h.trans ⟨fun _ v hv => .inr ⟨v, hv, .refl v⟩, fun j hj => ?_⟩
    rcases List.mem_append.mp hj with hold | hnew
    · exact .inl hold
    · exact .inr (List.mem_singleton.mp hnew ▸ hjob id rfl)

theorem within_withPassword (s : Server) (m : Moment) (msg : Message) (command : Text)
    {f : Server → User → Text → Server} (hf : ∀ t user password, Within G t (f t user password)) :
    Within G s (s.withPassword m uid msg command f) := by
  unfold withPassword
  split
  · simp
  · rcases hauth : s.authRateOk m uid with ⟨ok, t⟩
    have hcounted : Within G s t := within_authRateOk hauth
    cases ok with
    | false => exact hcounted
    | true =>
      dsimp only
      split
      · exact hcounted
      · exact hcounted.trans (hf ..)

theorem within_registerWith (hjobs : ∀ j : Job, j.kind ≠ .oper → G.job j) (s : Server) (m : Moment)
    (user : User) (password : Text) : Within G s (s.registerWith m uid user password) := by
  unfold registerWith
  split_ifs
  · simp only [within_noticeUser, within_self]
  · simp only [within_noticeAccountError, within_self]
  · simp only [within_noticeAccountError, within_self]
  · simp only [within_noticeAccountError, within_self]
  · exact within_runArgon2 (fun _ _ => hjobs _ (AuthKind.noConfusion)) (within_self s)

theorem within_verifyWith (hjobs : ∀ j : Job, j.kind ≠ .oper → G.job j) (s : Server) (m : Moment)
    {kind : AuthKind} (hkind : kind ≠ .oper) (user : User) (password : Text) :
    Within G s (s.verifyWith m uid kind user password) := by
  unfold verifyWith
  split
  · simp only [within_noticeAccountError, within_self]
  · exact within_runArgon2 (fun _ _ => hjobs _ hkind) (within_self s)

/-! ### Operators -/

theorem within_requireOper (s : Server) {f : Server → Server} (hf : Within G s (f s)) :
    Within G s (s.requireOper uid f) := by
  unfold requireOper
  split_ifs
  · exact hf
  · simp

theorem within_grantRfTx (s : Server) (m : Moment) (nick : Text) (grant : Bool) :
    Within G s (s.grantRfTx m uid nick grant) := by
  unfold grantRfTx
  split
  · exact (within_noticeUser _).mpr (within_self s)
  · exact (within_noticeAccountError _).mpr (within_self s)
  · rename_i accounts _
    have hstored : Within G s { s with accounts := accounts } := (within_mk ..).mpr (within_self s)
    dsimp only
    refine (within_noticeUser _).mpr ?_
    split
    · exact hstored
    · exact (within_noticeUser _).mpr (within_refreshPrivileges hstored)

theorem within_cmdKline (s : Server) (m : Moment) (msg : Message) :
    Within G s (s.cmdKline m uid msg) := by
  refine within_requireOper s ?_
  split
  · simp only [within_needMore, within_self]
  · extract_lets key banned victims closed
    split_ifs
    · simp only [within_noticeUser, within_self]
    · have hbanned : Within G s banned := (within_mk ..).mpr (within_self s)
      have hclosed : Within G s closed :=
        within_foldl (fun s u => within_quitUser _ ((within_closeLink _).mpr (within_self s))) _
          hbanned
      simpa using hclosed

theorem within_cmdUnkline (s : Server) (m : Moment) (msg : Message) :
    Within G s (s.cmdUnkline m uid msg) := by
  refine within_requireOper s ?_
  split
  · simp only [within_needMore, within_self]
  · split
    · exact (within_noticeUser _).mpr ((within_mk ..).mpr (within_self s))
    · simp only [within_noticeUser, within_self]

/-! ### Accounts and callsigns -/

theorem within_bindSessionCallsign (takenNotice : Text) (h : Within G s t) :
    Within G s (t.bindSessionCallsign m uid takenNotice) := by
  unfold bindSessionCallsign
  split
  · exact h
  · split
    · exact h
    · split
      · exact (within_noticeUser _).mpr (within_stripCallsignClaims _ _ ((within_mk ..).mpr h))
      · exact (within_noticeUser _).mpr (within_modifyUser (fun _ => .of_same rfl) h)
      · exact (within_noticeAccountError _).mpr h

theorem within_finishIdentify (s : Server) (m : Moment) (user : User) :
    Within G s (s.finishIdentify m uid user) := by
  have hidentified : Within G s (s.modifyUser uid identified) :=
    within_modifyUser (fun _ => .of_same rfl) (within_self s)
  unfold finishIdentify
  split_ifs
  · simp only [within_noticeAccountError, within_self]
  · exact within_refreshPrivileges
      (within_bindSessionCallsign _ ((within_noticeUser _).mpr hidentified))

theorem within_finishRegister (s : Server) (m : Moment) (user : User) (hash : Option Text) :
    Within G s (s.finishRegister m uid user hash) := by
  unfold finishRegister
  split
  · simp only [within_noticeAccountError, within_self]
  · split_ifs
    · split
      · simp only [within_noticeAccountError, within_self]
      · exact (within_noticeUser _).mpr ((within_mk ..).mpr (within_self s))
    · split
      · simp only [within_noticeAccountError, within_self]
      · rename_i accounts _
        have hidentified : Within G s ({ s with accounts := accounts }.modifyUser uid identified) :=
          within_modifyUser (fun _ => .of_same rfl) ((within_mk ..).mpr (within_self s))
        exact within_refreshPrivileges
          ((within_noticeUser _).mpr (within_bindSessionCallsign _ hidentified))

theorem within_finishUnregister (s : Server) (m : Moment) (user : User) :
    Within G s (s.finishUnregister m uid user) := by
  unfold finishUnregister
  split
  · simp only [within_noticeAccountError, within_self]
  · rename_i accounts _
    have hdisowned : Within G s ({ s with accounts := accounts }.modifyUser uid disowned) :=
      within_modifyUser (fun _ => .of_same rfl) ((within_mk ..).mpr (within_self s))
    exact within_refreshPrivileges ((within_noticeUser _).mpr hdisowned)

theorem within_cmdDropnick (s : Server) (m : Moment) (msg : Message) :
    Within G s (s.cmdDropnick m uid msg) := by
  refine within_requireOper s ?_
  split
  · simp only [within_needMore, within_self]
  · split
    · simp only [within_noticeAccountError, within_self]
    · rename_i accounts _
      have hdropped : Within G s { s with accounts := accounts } :=
        (within_mk ..).mpr (within_self s)
      refine (within_noticeUser _).mpr ?_
      dsimp only
      split
      · exact hdropped
      · exact within_refreshPrivileges
          ((within_noticeUser _).mpr (within_modifyUser (fun _ => .of_same rfl) hdropped))

theorem within_cmdUnclaim (s : Server) (m : Moment) (msg : Message) :
    Within G s (s.cmdUnclaim m uid msg) := by
  refine within_requireOper s ?_
  split
  · simp only [within_needMore, within_self]
  · split
    · simp only [within_noticeUser, within_self]
    · split
      · exact (within_noticeUser _).mpr
          (within_stripCallsignClaims _ _ ((within_mk ..).mpr (within_self s)))
      · simp only [within_noticeUser, within_self]
      · simp only [within_noticeAccountError, within_self]

theorem within_bindClaim (h : s.bindClaim m uid user call = .ok t) : Within G s t := by
  unfold bindClaim at h
  split_ifs at h
  · cases haccounts : s.accounts.setCallsign user.nick (callText call) with
    | error e =>
      rw [haccounts] at h
      cases h
    | ok accounts =>
      rw [haccounts] at h
      obtain rfl := Except.ok.inj h
      exact within_stripCallsignClaims _ _ ((within_mk ..).mpr (within_self s))
  · obtain rfl := Except.ok.inj h
    exact within_self s

theorem within_claimCallsign (s : Server) (m : Moment) (user : User) (call : Callsign) :
    Within G s (s.claimCallsign m uid user call) := by
  unfold claimCallsign
  split
  · simp only [within_noticeAccountError, within_self]
  · rename_i t hbound
    have hclaimed : Within G s (t.modifyUser uid fun u => { u with callsign := some call }) :=
      within_modifyUser (fun _ => .of_same rfl) (within_bindClaim hbound)
    exact within_refreshPrivileges
      ((within_noticeUser _).mpr ((within_noticeUser _).mpr hclaimed))

theorem within_cmdCallsign (s : Server) (m : Moment) (msg : Message) :
    Within G s (s.cmdCallsign m uid msg) := by
  unfold cmdCallsign
  repeat' split
  all_goals first | exact within_claimCallsign .. | simp only [within_noticeUser, within_self]

/-! ### The radio, and the rest -/

theorem within_cmdKill (s : Server) (m : Moment) (msg : Message) :
    Within G s (s.cmdKill m uid msg) := by
  refine within_requireOper s ?_
  split
  · simp only [within_needMore, within_self]
  · split <;> simp only [within_numeric, within_self, within_closeLink, within_quitUser]

theorem within_cmdPasswd (s : Server) (m : Moment) (msg : Message) :
    Within G s (s.cmdPasswd m uid msg) := by
  refine within_requireOper s ?_
  split
  · simp only [within_needMore, within_self]
  · simp only [within_needMore, within_self]
  · split_ifs <;> simp only [within_noticeUser, within_mk, within_self]

theorem within_radioKick (s : Server) (m : Moment) (msg : Message) :
    Within G s (s.radioKick m uid msg) := by
  unfold radioKick
  split <;> simp only [within_noticeUser, within_self, within_perform, within_quitUser]

theorem within_radioGrant (s : Server) (m : Moment) (msg : Message) (grant : Bool) :
    Within G s (s.radioGrant m uid msg grant) := by
  unfold radioGrant
  split
  · exact (within_noticeUser _).mpr (within_self s)
  · exact within_grantRfTx ..

theorem within_radioCommand (s : Server) (m : Moment) (msg : Message) (sub : String) :
    Within G s (s.radioCommand m uid msg sub) := by
  unfold radioCommand
  split
  · exact (within_send _).mpr (within_self s)
  · exact (within_send _).mpr (within_self s)
  · exact (within_send _).mpr (within_self s)
  · exact (within_send _).mpr (within_self s)
  · exact (within_send _).mpr (within_self s)
  · exact (within_send _).mpr (within_self s)
  · exact (within_send _).mpr (within_self s)
  · exact (within_send _).mpr (within_self s)
  · exact within_radioKick ..
  · exact within_radioGrant ..
  · exact within_radioGrant ..
  · exact (within_noticeUser _).mpr (within_self s)

theorem within_cmdRadio (s : Server) (m : Moment) (msg : Message) :
    Within G s (s.cmdRadio m uid msg) := by
  unfold cmdRadio
  extract_lets sub
  split_ifs
  · exact (within_send _).mpr (within_self s)
  · exact within_requireOper s (within_radioCommand ..)

theorem within_cmdAway (s : Server) (msg : Message) : Within G s (s.cmdAway uid msg) := by
  unfold cmdAway
  extract_lets away t
  have ht : Within G s t := within_modifyUser (fun _ => .of_same rfl) (within_self s)
  split_ifs <;> simpa using ht

end AccessCommands
