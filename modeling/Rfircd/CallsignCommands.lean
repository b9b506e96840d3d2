import Rfircd.CallsignFrames

/-! Commands that leave the callsigns alone. -/
namespace CallsignCommands

open Basics KeyedTable MessageText HostKey IrcMessage IrcState AirPolicy AirScreen Accounts
open ServerOutput ServerCore ServerCore.Server ServerSteps LateResults CallsignCascade
open CallsignRecords CallsignFrames

variable {s t r : Server} {m : Moment} {uid : UserId} {id : ℕ} {msg : Message} {user : User}

/-! ### Registration of a connection -/

theorem calm_cmdPass (s : Server) (msg : Message) : Calm s (s.cmdPass uid msg) := by
  unfold cmdPass
  split
  · simp only [calm_needMore, calm_self]
  · exact calm_modifyUser (fun _ => ⟨rfl, rfl, fun hi => ⟨hi, rfl⟩⟩) (calm_self s)

@[simp] theorem calm_welcome (h : Calm s t) : Calm s (t.welcome m uid user) := by
  unfold welcome
  dsimp only
  split_ifs <;> simpa only [calm_noticeUser, calm_send, calm_numeric] using h

@[simp] theorem calm_tryCompleteRegistration (h : Calm s t) :
    Calm s (t.tryCompleteRegistration m uid) := by
  unfold tryCompleteRegistration
  split
  · exact h
  · split_ifs
    · exact h
    · simp only [calm_closeLink, calm_numeric, h, calm_quitUser]
    · exact calm_welcome (calm_modifyUser (fun _ => ⟨rfl, rfl, fun hi => ⟨hi, rfl⟩⟩) h)

theorem calm_cmdUser (s : Server) (m : Moment) (msg : Message) : Calm s (s.cmdUser m uid msg) := by
  unfold cmdUser
  split_ifs
  · simp only [calm_numeric, calm_self]
  · split
    · split
      · simp only [calm_numeric, calm_self]
      · exact calm_tryCompleteRegistration
          (calm_modifyUser (fun _ => ⟨rfl, rfl, fun hi => ⟨hi, rfl⟩⟩) (calm_self s))
    · simp only [calm_needMore, calm_self]

/-! ### Nicks -/

/-- Nobody who owns a nick takes another one. -/
theorem calm_setNick {nick : Text} {ok : Bool} {st : State}
    (hset : t.state.setNick uid nick = (ok, st))
    (howns : ∀ u, t.user uid = some u → u.nickIdentified = true → lower nick = lower u.nick)
    (h : Calm s t) : Calm s { t with state := st } := by
  cases ok with
  | false =>
    obtain rfl := State.setNick_false hset
    exact h
  | true =>
    refine calm_users (fun j v hv => .inr ?_) h
    cases hu : t.user uid with
    | none =>
      have hu' : t.state.users.get uid = none := hu
      simp [State.setNick, hu'] at hset
    | some u =>
      rw [(State.setNick_true hu hset).1] at hv
      split_ifs at hv with hj
      · obtain rfl := Option.some.inj hv
        exact ⟨u, hj ▸ hu, rfl, rfl, fun hi => ⟨hi, howns u hu hi⟩⟩
      · exact ⟨v, hv, .refl v⟩

theorem calm_recaseNick {nick : Text} (hu : s.user uid = some user)
    (hsame : lower user.nick = lower nick) : Calm s (s.recaseNick m uid user nick) := by
  have hnamed : Calm s { s with state := (s.state.setNick uid nick).2 } := by
    have hset : s.state.setNick uid nick =
        ((s.state.setNick uid nick).1, (s.state.setNick uid nick).2) := rfl
    refine calm_setNick hset (fun u hu' _ => ?_) (calm_self s)
    obtain rfl := Option.some.inj (hu'.symm.trans hu)
    exact hsame.symm
  unfold recaseNick
  dsimp only
  split_ifs <;> simp [hnamed]

theorem calm_takeNick {nick : Text} (s : Server) (m : Moment) :
    Calm s (s.takeNick m (.ip id) user nick) := by
  unfold takeNick
  rcases hset : s.state.setNick (.ip id) nick with ⟨ok, st⟩
  cases ok with
  | false => simp only [calm_numeric, calm_self]
  | true =>
    dsimp -zeta only
    extract_lets claimed named taken told
    -- whoever takes a nick starts without a callsign
    have htaken : Calm s taken := by
      refine ⟨fun hs => ⟨.refl _, fun j v hv => ?_⟩⟩
      have hv' := (State.user_modifyUser st (.ip id) _ j).symm.trans hv
      cases hu : s.user (.ip id) with
      | none =>
        have hu' : s.state.users.get (.ip id) = none := hu
        simp [State.setNick, hu'] at hset
      | some u =>
        obtain ⟨husers, -⟩ := State.setNick_true hu hset
        by_cases hj : j = .ip id
        · rw [if_pos hj] at hv'
          obtain ⟨w, hw, rfl⟩ := Option.map_eq_some_iff.mp hv'
          rw [husers, if_pos rfl] at hw
          obtain rfl := Option.some.inj hw
          rw [hj]
          exact .inl ⟨hs.known _ u hu, rfl, rfl⟩
        · rw [if_neg hj, husers, if_neg hj] at hv'
          exact .inr ⟨v, hv', .refl v⟩
    have htold : Calm s told := by
      simp only [told]
      split_ifs <;> simpa using htaken
    split_ifs <;> simp [htold]

theorem calm_cmdNick (s : Server) (m : Moment) (msg : Message) : Calm s (s.cmdNick m (.ip id) msg) := by
  unfold cmdNick
  split
  · simp only [calm_numeric, calm_self]
  · split
    · simp only [calm_numeric, calm_self]
    · split
      · simp only [calm_numeric, calm_self]
      · split
        · simp
        · rename_i hu
          split_ifs with hown
          · exact calm_recaseNick hu hown.2.2
          · simp only [calm_numeric, calm_self]
          · exact calm_takeNick s m

/-! ### Password jobs -/

theorem calm_authRateOk {ok : Bool} (h : s.authRateOk m uid = (ok, t)) : Calm s t := by
  obtain rfl := congrArg Prod.snd h
  unfold authRateOk
  dsimp only
  split_ifs <;> simp only [calm_mk, calm_self, calm_noticeUser]

@[simp] theorem calm_runArgon2 (kind nick work) :
    Calm s (t.runArgon2 uid kind nick work) ↔ Calm s t := by
  cases uid <;> exact calm_congr rfl rfl

theorem calm_withPassword (s : Server) (m : Moment) (msg : Message) (command : Text)
    {f : Server → User → Text → Server} (hf : ∀ t user password, Calm t (f t user password)) :
    Calm s (s.withPassword m uid msg command f) := by
  unfold withPassword
  split
  · simp
  · rcases hauth : s.authRateOk m uid with ⟨ok, t⟩
    have hcounted : Calm s t := calm_authRateOk hauth
    cases ok with
    | false => exact hcounted
    | true =>
      dsimp only
      split
      · exact hcounted
      · exact hcounted.trans (hf ..)

theorem calm_registerWith (s : Server) (m : Moment) (user : User) (password : Text) :
    Calm s (s.registerWith m uid user password) := by
  unfold registerWith
  split_ifs <;> simp only [calm_noticeUser, calm_self, calm_noticeAccountError, calm_runArgon2]

theorem calm_verifyWith (s : Server) (m : Moment) (kind : AuthKind) (user : User) (password : Text) :
    Calm s (s.verifyWith m uid kind user password) := by
  unfold verifyWith
  split <;> simp

/-! ### Operators -/

theorem calm_grantOper (s : Server) (m : Moment) : Calm s (s.grantOper m uid) := by
  refine calm_refreshPrivileges ((calm_numeric ..).mpr ?_)
  exact calm_modifyUser (fun _ => ⟨rfl, rfl, fun hi => ⟨hi, rfl⟩⟩) (calm_self s)

theorem calm_cmdOper (s : Server) (m : Moment) (msg : Message) : Calm s (s.cmdOper m uid msg) := by
  unfold cmdOper
  split
  · rcases hauth : s.authRateOk m uid with ⟨ok, t⟩
    have hcounted : Calm s t := calm_authRateOk hauth
    cases ok with
    | false => exact hcounted
    | true =>
      refine hcounted.trans ?_
      dsimp only
      unfold operWith
      split
      · split_ifs <;> simp
      · split_ifs
        · simp
        · simp
        · exact calm_grantOper t m
  · simp only [calm_needMore, calm_self]

theorem calm_requireOper (s : Server) {f : Server → Server} (hf : Calm s (f s)) :
    Calm s (s.requireOper uid f) := by
  unfold requireOper
  split_ifs
  · exact hf
  · simp

/-! ### Accounts -/

/-- Whoever gives a nick up keeps the callsign, for this session. -/
theorem calm_finishUnregister (s : Server) (m : Moment) (user : User) :
    Calm s (s.finishUnregister m uid user) := by
  unfold finishUnregister
  split
  · simp
  · rename_i accounts hdrop
    have hdropped : Calm s { s with accounts := accounts } :=
      calm_accounts (keeps_dropNick hdrop) (calm_self s)
    have hdisowned : Calm s ({ s with accounts := accounts }.modifyUser uid disowned) :=
      calm_modifyUser (fun _ => ⟨rfl, rfl, fun hi => (by cases hi)⟩) hdropped
    exact calm_refreshPrivileges ((calm_noticeUser _).mpr hdisowned)

theorem calm_grantRfTx (s : Server) (m : Moment) (nick : Text) (grant : Bool) :
    Calm s (s.grantRfTx m uid nick grant) := by
  unfold grantRfTx
  split
  · exact (calm_noticeUser _).mpr (calm_self s)
  · exact (calm_noticeAccountError _).mpr (calm_self s)
  · rename_i accounts hgrant
    have hkeeps : Keeps s.accounts accounts := by
      refine keeps_modify ?_ ?_ hgrant <;> exact fun _ => rfl
    have hstored : Calm s { s with accounts := accounts } := calm_accounts hkeeps (calm_self s)
    dsimp only
    refine (calm_noticeUser _).mpr ?_
    split
    · exact hstored
    · exact (calm_noticeUser _).mpr (calm_refreshPrivileges hstored)

theorem calm_bans {a : Store} (ha : a.nicks = s.accounts.nicks) (bans : List Text) :
    Calm s { s with accounts := a, admissionBans := bans } := by
  have haccounts : Calm s { s with accounts := a } := calm_accounts (keeps_of_nicks ha) (calm_self s)
  refine (calm_congr ?_ ?_).mpr haccounts <;> rfl

theorem calm_cmdKline (s : Server) (m : Moment) (msg : Message) : Calm s (s.cmdKline m uid msg) := by
  refine calm_requireOper s ?_
  split
  · simp only [calm_needMore, calm_self]
  · extract_lets key banned victims closed
    split_ifs
    · simp only [calm_noticeUser, calm_self]
    · have hbanned : Calm s banned := calm_bans (banIp_nicks ..) _
      have hclosed : Calm s closed := calm_foldl (fun s u => by simp only [calm_closeLink, calm_self, calm_quitUser]) _ hbanned
      simpa using hclosed

theorem calm_cmdUnkline (s : Server) (m : Moment) (msg : Message) :
    Calm s (s.cmdUnkline m uid msg) := by
  refine calm_requireOper s ?_
  split
  · simp only [calm_needMore, calm_self]
  · rename_i host _
    have hnicks := unbanIp_nicks s.accounts host
    split
    · rename_i hunban
      rw [hunban] at hnicks
      exact (calm_noticeUser _).mpr (calm_bans hnicks _)
    · simp only [calm_noticeUser, calm_self]

/-! ### The radio, and the rest -/

theorem calm_cmdKill (s : Server) (m : Moment) (msg : Message) : Calm s (s.cmdKill m uid msg) := by
  refine calm_requireOper s ?_
  split
  · simp only [calm_needMore, calm_self]
  · split <;> simp only [calm_numeric, calm_self, calm_closeLink, calm_quitUser]

theorem calm_cmdPasswd (s : Server) (m : Moment) (msg : Message) :
    Calm s (s.cmdPasswd m uid msg) := by
  refine calm_requireOper s ?_
  split
  · simp only [calm_needMore, calm_self]
  · simp only [calm_needMore, calm_self]
  · split_ifs <;> simp only [calm_noticeUser, calm_mk, calm_self]

theorem calm_radioKick (s : Server) (m : Moment) (msg : Message) :
    Calm s (s.radioKick m uid msg) := by
  unfold radioKick
  split <;> simp only [calm_noticeUser, calm_self, calm_perform, calm_quitUser]

theorem calm_radioGrant (s : Server) (m : Moment) (msg : Message) (grant : Bool) :
    Calm s (s.radioGrant m uid msg grant) := by
  unfold radioGrant
  split
  · exact (calm_noticeUser _).mpr (calm_self s)
  · exact calm_grantRfTx ..

theorem calm_radioCommand (s : Server) (m : Moment) (msg : Message) (sub : String) :
    Calm s (s.radioCommand m uid msg sub) := by
  unfold radioCommand
  split
  · exact (calm_send _).mpr (calm_self s)
  · exact (calm_send _).mpr (calm_self s)
  · exact (calm_send _).mpr (calm_self s)
  · exact (calm_send _).mpr (calm_self s)
  · exact (calm_send _).mpr (calm_self s)
  · exact (calm_send _).mpr (calm_self s)
  · exact (calm_send _).mpr (calm_self s)
  · exact (calm_send _).mpr (calm_self s)
  · exact calm_radioKick ..
  · exact calm_radioGrant ..
  · exact calm_radioGrant ..
  · exact (calm_noticeUser _).mpr (calm_self s)

theorem calm_cmdRadio (s : Server) (m : Moment) (msg : Message) : Calm s (s.cmdRadio m uid msg) := by
  unfold cmdRadio
  extract_lets sub
  split_ifs
  · exact (calm_send _).mpr (calm_self s)
  · exact calm_requireOper s (calm_radioCommand ..)

theorem calm_cmdAway (s : Server) (msg : Message) : Calm s (s.cmdAway uid msg) := by
  unfold cmdAway
  extract_lets away t
  have ht : Calm s t := calm_modifyUser (fun _ => ⟨rfl, rfl, fun hi => ⟨hi, rfl⟩⟩) (calm_self s)
  split_ifs <;> simpa using ht

end CallsignCommands
