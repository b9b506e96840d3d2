import Rfircd.ChannelSteps
import Rfircd.Standing

/-! What users do about their nicks, passwords and callsigns, as steps of the server. -/
namespace ServerSteps

open Basics KeyedTable MessageText HostKey IrcMessage IrcState HeldMail AprsCodec AirTrace AirPolicy
open AircSession RadioGateway AirScreen Accounts ServerOutput ServerCore
open ServerOutput.Outlet ServerCore.Server

variable {L : Licence} {s : Server}

/-! ### Registration of a connection -/

theorem touch_steps (s : Server) (uid : UserId) {f : User → User}
    (hf : ∀ u, SameStanding u (f u))
    (hchannels : ∀ u, (f u).channels = u.channels := by exact fun _ => rfl) :
    Steps L s (s.modifyUser uid f) :=
  .single (.touch hf hchannels)

theorem cmdPass_steps (s : Server) (uid : UserId) (msg : Message) : Steps L s (s.cmdPass uid msg) := by
  unfold cmdPass
  split
  · exact numeric_steps ..
  · exact touch_steps s uid fun _ => ⟨rfl, rfl, rfl, rfl, rfl, rfl, rfl⟩

theorem welcome_steps (s : Server) (m : Moment) (uid : UserId) (user : User) :
    Steps L s (s.welcome m uid user) := by
  have hlines : ∀ s : Server, Steps L s (s.send fun o st => (o.sendLusers st uid).sendMotd st uid) :=
    fun s => send_core_steps ((sendMotd_core ..).trans (sendLusers_core ..))
  have hquiet : ∀ (s : Server) (p : Bool) (text : Text),
      Steps L s (if p then s.noticeUser m uid text else s) := by
    intro s p text
    split_ifs
    · exact noticeUser_steps ..
    · exact .refl
  unfold welcome
  extract_lets s₁ s₂ s₃ s₄ s₅ s₆ s₇ s₈ s₉
  have hnumerics : Steps L s s₅ := by
    have h₂ : Steps L s s₂ := (numeric_steps ..).trans (numeric_steps ..)
    exact ((h₂.trans (numeric_steps ..)).trans (numeric_steps ..)).trans (numeric_steps ..)
  have hnotices : Steps L s₅ s₉ :=
    (((hlines s₅).trans (hquiet ..)).trans (noticeUser_steps ..)).trans (noticeUser_steps ..)
  exact (hnumerics.trans hnotices).trans (hquiet ..)

theorem tryCompleteRegistration_steps (s : Server) (m : Moment) (uid : UserId) :
    Steps L s (s.tryCompleteRegistration m uid) := by
  unfold tryCompleteRegistration
  split
  · exact .refl
  · rename_i user hu
    split_ifs with hwait
    · exact .refl
    · exact ((numeric_steps ..).trans (closeLink_steps ..)).trans (quitUser_steps ..)
    · have hnick : ∀ u, s.user uid = some u → u.gotNick = true := by
        intro v hv
        obtain rfl := Option.some.inj (hu.symm.trans hv)
        simp only [Bool.or_eq_true, Bool.not_eq_true', not_or, Bool.not_eq_false] at hwait
        exact hwait.1.2
      exact (Relation.ReflTransGen.single (.register hnick)).trans (welcome_steps ..)

theorem cmdUser_steps (s : Server) (m : Moment) (uid : UserId) (msg : Message) :
    Steps L s (s.cmdUser m uid msg) := by
  unfold cmdUser
  split_ifs
  · exact numeric_steps ..
  · split
    · split
      · exact numeric_steps ..
      · refine (touch_steps s uid ?_).trans (tryCompleteRegistration_steps ..)
        exact fun _ => ⟨rfl, rfl, rfl, rfl, rfl, rfl, rfl⟩
    · exact numeric_steps ..

/-! ### Nicks -/

theorem recaseNick_steps (m : Moment) {uid : UserId} {user : User} {nick : Text}
    (hu : s.user uid = some user) (hsame : lower user.nick = lower nick) (hnick : nick ≠ ['*']) :
    Steps L s (s.recaseNick m uid user nick) := by
  unfold recaseNick
  extract_lets named t
  have hnamed : Steps L s named := .single (.recase hu hsame hnick)
  have ht : Steps L s t := by
    simp only [t]
    split_ifs
    · exact .refl
    · exact hnamed.trans (send_steps (broadcastPeers_steps _ _ _ _ _ nickChange_licensed))
    · exact hnamed
  split_ifs
  · exact ht
  · exact ht.trans (tryCompleteRegistration_steps ..)

/-- What a new nick does to its user. -/
def renamed (identifyBy : Option ℕ) (u : User) : User :=
  { u with gotNick := true, nickIdentified := false, callsign := none, identifyBy := identifyBy }

/-- The same, with the privilege given up as well. -/
def settled (identifyBy : Option ℕ) (u : User) : User :=
  { renamed identifyBy u with rfTx := if u.registered then u.oper else u.rfTx }

/-- The owner gives the nick up first, takes the new one, and has no privilege of the old. -/
theorem settled_steps {id : ℕ} {user : User} {nick : Text} {st : State} (deadline : Option ℕ)
    (hL : L.changes (.yields (.ip id)) ∨ user.registered = false ∧ user.nickIdentified = false)
    (hu : s.user (.ip id) = some user) (hnick : nick ≠ ['*'])
    (hset : s.state.setNick (.ip id) nick = (true, st)) :
    Steps L s { s with state := st.modifyUser (.ip id) (settled deadline) } := by
  let yielded (u : User) : User :=
    { u with
      nickIdentified := false
      callsign := none
      identifyBy := deadline
      rfTx := if u.registered then u.oper else u.rfTx }
  have hyields : Steps L s (s.modifyUser (.ip id) yielded) := by
    rcases hL with hL | ⟨hreg, hfree⟩
    · refine .single (.yields hL fun u => ⟨rfl, rfl, rfl, rfl, rfl, rfl, rfl, ?_⟩)
      simp only [yielded]
      cases hreg : u.registered with
      | true => exact .inl rfl
      | false => exact .inr ⟨rfl, rfl⟩
    · have hsame : s.modifyUser (.ip id) yielded = s.modifyUser (.ip id) fun u =>
          { u with callsign := none, identifyBy := deadline } := by
        rw [modifyUser, modifyUser, State.modifyUser_congr]
        intro u hu'
        obtain rfl := Option.some.inj (hu'.symm.trans hu)
        simp [yielded, hreg, hfree]
      rw [hsame]
      exact touch_steps s (.ip id) fun _ => ⟨rfl, rfl, rfl, rfl, rfl, rfl, rfl⟩
  have huser : (s.modifyUser (.ip id) yielded).user (.ip id) = some (yielded user) := by
    have h := State.user_modifyUser s.state (.ip id) yielded (.ip id)
    rw [if_pos rfl] at h
    exact h.trans (congrArg (Option.map yielded) hu)
  have hset' : (s.modifyUser (.ip id) yielded).state.setNick (.ip id) nick =
      (true, st.modifyUser (.ip id) yielded) := by
    have h := State.setNick_modifyUser s.state (.ip id) nick (f := yielded) (fun _ => rfl) fun _ => rfl
    rw [hset] at h
    exact h
  have hrename := Relation.ReflTransGen.tail hyields (.rename huser rfl hnick hset')
  have hnamed : Step L { s with state := st.modifyUser (.ip id) yielded }
      { s with state := (st.modifyUser (.ip id) yielded).modifyUser (.ip id) fun u =>
        { u with gotNick := true } } := by
    refine .named fun u hv => ?_
    have hv' := ((State.setNick_true huser hset').1 (.ip id)).symm.trans hv
    rw [if_pos rfl] at hv'
    obtain rfl := Option.some.inj hv'
    exact hnick
  have hall := hrename.tail hnamed
  rw [State.modifyUser_modifyUser] at hall
  exact hall

/-- Whoever is not identified has the privilege of an operator, and no other. -/
theorem recompute_renamed {t : Server} {id : ℕ} {u : User} {deadline : Option ℕ}
    (hu : t.user (.ip id) = some u) (hid : u.id = .ip id) (hreg : u.registered = true) :
    recompute (t.modifyUser (.ip id) (renamed deadline)) (.ip id) =
      t.modifyUser (.ip id) (settled deadline) := by
  have huser : (t.modifyUser (.ip id) (renamed deadline)).user (.ip id) = some (renamed deadline u) := by
    have h := State.user_modifyUser t.state (.ip id) (renamed deadline) (.ip id)
    rw [if_pos rfl] at h
    exact h.trans (congrArg (Option.map _) hu)
  have hrf : (renamed deadline u).isRf = false := by
    have hsame : (renamed deadline u).id = .ip id := hid
    rw [User.isRf, hsame]
    rfl
  unfold recompute refreshRfTx
  rw [huser]
  simp only [hrf]
  have hmodify : ∀ f, ((t.modifyUser (.ip id) (renamed deadline)).modifyUser (.ip id) f) =
      t.modifyUser (.ip id) fun u => f (renamed deadline u) := by
    intro f
    simp only [modifyUser, State.modifyUser_modifyUser]
  have hcongr : ∀ f g : User → User, f u = g u →
      t.modifyUser (.ip id) f = t.modifyUser (.ip id) g := by
    intro f g h
    simp only [modifyUser]
    rw [State.modifyUser_congr]
    intro v hv
    rw [Option.some.inj (hv.symm.trans hu)]
    exact h
  simp only [renamed, Bool.false_and, Bool.or_false, Bool.false_eq_true, if_false]
  refine (hmodify _).trans (hcongr _ _ ?_)
  simp [settled, renamed, hreg]

theorem broadcastNick_steps (s : Server) (m : Moment) (uid : UserId) (old mask new : Text) :
    Steps L s (s.send fun o st => o.broadcastPeers st m uid (.nickChange old mask new) true) :=
  send_steps (broadcastPeers_steps _ _ _ _ _ nickChange_licensed)

/-- A new nick was taken, and lines went out. -/
def afterNick (s : Server) (st : State) (uid : UserId) (deadline : Option ℕ) (o : Outlet) : Server :=
  { s with outlet := o, state := st.modifyUser uid (renamed deadline) }

section
variable {id : ℕ} {user : User} {nick : Text} {st : State} {deadline : Option ℕ} {o : Outlet}

theorem setNick_user (hu : s.user (.ip id) = some user)
    (hset : s.state.setNick (.ip id) nick = (true, st)) :
    st.user (.ip id) = some { user with nick := nick } :=
  ((State.setNick_true hu hset).1 _).trans (if_pos rfl)

/-- A registered user has its privileges computed anew. -/
theorem afterNick_registered (hL : L.changes (.yields (.ip id))) (hs : Standing s) (hu : s.user (.ip id) = some user)
    (hreg : user.registered = true) (hnick : nick ≠ ['*'])
    (hset : s.state.setNick (.ip id) nick = (true, st)) (ho : OutletSteps L.toOutletLicence s.outlet o) :
    Steps L s (recompute (afterNick s st (.ip id) deadline o) (.ip id)) := by
  have huser : Server.user { s with outlet := o, state := st } (.ip id) =
      some { user with nick := nick } := setNick_user hu hset
  have hrecompute : recompute (afterNick s st (.ip id) deadline o) (.ip id) =
      { s with outlet := o, state := st.modifyUser (.ip id) (settled deadline) } :=
    recompute_renamed huser (hs.users _ _ hu).known hreg
  rw [hrecompute]
  exact (settled_steps deadline (.inl hL) hu hnick hset).trans (outlet_steps ho)

/-- A user who is not registered has no privilege to lose. -/
theorem afterNick_unregistered (hs : Standing s) (hu : s.user (.ip id) = some user) (hreg : user.registered = false)
    (hnick : nick ≠ ['*']) (hset : s.state.setNick (.ip id) nick = (true, st))
    (ho : OutletSteps L.toOutletLicence s.outlet o) :
    Steps L s (afterNick s st (.ip id) deadline o) := by
  have hsame : st.modifyUser (.ip id) (renamed deadline) =
      st.modifyUser (.ip id) (settled deadline) := by
    apply State.modifyUser_congr
    intro v hv
    obtain rfl := Option.some.inj (hv.symm.trans (setNick_user hu hset))
    simp [settled, renamed, hreg]
  have hfree : user.nickIdentified = false := by
    by_contra hi
    have hreg' := ((hs.users _ _ hu).identified rfl (by simpa using hi)).1
    rw [hreg] at hreg'
    cases hreg'
  rw [afterNick, hsame]
  exact (settled_steps deadline (.inr ⟨hreg, hfree⟩) hu hnick hset).trans (outlet_steps ho)

end

/-- The nick is somebody else's, or it is taken, lines go out, and the privileges follow. -/
theorem takeNick_cases (s : Server) (m : Moment) (uid : UserId) (user : User) (nick : Text) :
    s.takeNick m uid user nick = s.numeric uid "433" [nick, "Nickname is already in use"] ∨
      ∃ st deadline o, s.state.setNick uid nick = (true, st) ∧
        OutletSteps L.toOutletLicence s.outlet o ∧
        s.takeNick m uid user nick = if user.registered then
            (afterNick s st uid deadline o).refreshPrivileges m uid
          else (afterNick s st uid deadline o).tryCompleteRegistration m uid := by
  unfold takeNick
  rcases hset : s.state.setNick uid nick with ⟨ok, st⟩
  cases ok with
  | false => exact .inl rfl
  | true =>
    dsimp -zeta only
    extract_lets claimed named taken told
    obtain ⟨deadline, o, ho, htold⟩ : ∃ deadline o, OutletSteps L.toOutletLicence s.outlet o ∧
        told = afterNick s st uid deadline o := by
      simp only [told]
      split_ifs
      · exact ⟨_, _, Outlet.noticeUser_steps .., rfl⟩
      · exact ⟨_, _, .refl, rfl⟩
    rw [htold]
    cases hreg : user.registered with
    | true =>
      have hall := ho.trans (broadcastPeers_steps o (afterNick s st uid deadline o).state m uid
        (d := .nickChange user.nick user.nickMask nick) true nickChange_licensed)
      exact .inr ⟨st, deadline, _, rfl, hall, rfl⟩
    | false => exact .inr ⟨st, deadline, o, rfl, ho, rfl⟩

theorem takeNick_steps (m : Moment) {id : ℕ} {user : User} {nick : Text}
    (hL : L.changes (.yields (.ip id))) (hs : Standing s)
    (hu : s.user (.ip id) = some user) (hnick : nick ≠ ['*']) :
    Steps L s (s.takeNick m (.ip id) user nick) := by
  rcases takeNick_cases (L := L) s m (.ip id) user nick with heq | ⟨st, deadline, o, hset, ho, heq⟩
  · rw [heq]
    exact numeric_steps ..
  · rw [heq]
    split_ifs with hreg
    · exact (afterNick_registered hL hs hu hreg hnick hset ho).trans (refreshPrivileges_settles ..)
    · have hunreg : user.registered = false := by simpa using hreg
      exact (afterNick_unregistered hs hu hunreg hnick hset ho).trans (tryCompleteRegistration_steps ..)

theorem validNick_ne_star {nick : Text} {n : ℕ} (h : isValidNick nick n = true) : nick ≠ ['*'] := by
  rintro rfl
  revert h
  simp [isValidNick, isAsciiAlphabetic, isAsciiUpper, isAsciiLower, isSpecial]

theorem cmdNick_steps (m : Moment) (id : ℕ) (msg : Message) (hL : L.changes (.yields (.ip id)))
    (hs : Standing s) :
    Steps L s (s.cmdNick m (.ip id) msg) := by
  unfold cmdNick
  split
  · exact numeric_steps ..
  · rename_i nick _
    split
    · exact numeric_steps ..
    · rename_i hvalid
      have hnick : nick ≠ ['*'] := validNick_ne_star (by simpa using hvalid)
      split
      · exact numeric_steps ..
      · split
        · exact .refl
        · rename_i user hu
          split_ifs with hown
          · exact recaseNick_steps m hu hown.2.2 hnick
          · exact numeric_steps ..
          · exact takeNick_steps m hL hs hu hnick

/-! ### Password jobs -/

theorem authRateOk_steps {t : Server} {m : Moment} {uid : UserId} {ok : Bool}
    (h : s.authRateOk m uid = (ok, t)) : Steps L s t ∧ t.state = s.state := by
  have hrate : Steps L s { s with outlet := { s.outlet with policy := (s.outlet.policy.identifyRateOk
      ((s.user uid).elim [] User.host) m.now).2 } } :=
    outlet_steps (core_steps rfl)
  obtain rfl := congrArg Prod.snd h
  unfold authRateOk
  dsimp only
  split_ifs
  · exact ⟨hrate, rfl⟩
  · exact ⟨hrate.trans (noticeUser_steps ..), rfl⟩

/-- Whoever gives a password is registered on the connection. -/
def Registered (s : Server) (uid : UserId) : Prop := ∃ u, s.user uid = some u ∧ u.registered = true

theorem runArgon2_steps {id : ℕ} (hreg : Registered s (.ip id)) (kind : AuthKind) (nick : Text)
    (work : Work) : Steps L s (s.runArgon2 (.ip id) kind nick work) := by
  obtain ⟨u, hu, hr⟩ := hreg
  have hstart : Step L s { s with jobs := s.jobs ++ [⟨id, kind, nick, work⟩] } := .start hu hr
  exact .single hstart

theorem registerWith_steps {id : ℕ} (hreg : Registered s (.ip id)) (m : Moment) (user : User)
    (password : Text) : Steps L s (s.registerWith m (.ip id) user password) := by
  unfold registerWith
  split_ifs
  · exact noticeUser_steps ..
  · exact noticeAccountError_steps ..
  · exact noticeAccountError_steps ..
  · exact noticeAccountError_steps ..
  · exact runArgon2_steps hreg ..

theorem verifyWith_steps {id : ℕ} (hreg : Registered s (.ip id)) (m : Moment) (kind : AuthKind)
    (user : User) (password : Text) :
    Steps L s (s.verifyWith m (.ip id) kind user password) := by
  unfold verifyWith
  split
  · exact noticeAccountError_steps ..
  · exact runArgon2_steps hreg ..

theorem withPassword_steps {id : ℕ} (hreg : Registered s (.ip id)) (m : Moment) (msg : Message)
    (command : Text) {f : Server → User → Text → Server}
    (hf : ∀ t user password, Registered t (.ip id) → Steps L t (f t user password)) :
    Steps L s (s.withPassword m (.ip id) msg command f) := by
  unfold withPassword
  split
  · exact numeric_steps ..
  · rcases hauth : s.authRateOk m (.ip id) with ⟨ok, t⟩
    obtain ⟨hrate, hstate⟩ := authRateOk_steps hauth
    cases ok with
    | false => exact hrate
    | true =>
      dsimp only
      split
      · exact hrate
      · refine hrate.trans (hf t _ _ ?_)
        rw [Registered, Server.user, hstate]
        exact hreg

theorem cmdRegister_steps {id : ℕ} (hreg : Registered s (.ip id)) (m : Moment) (msg : Message) :
    Steps L s (s.cmdRegister m (.ip id) msg) :=
  withPassword_steps hreg m msg _ fun _ user password h => registerWith_steps h m user password

theorem cmdIdentify_steps {id : ℕ} (hreg : Registered s (.ip id)) (m : Moment) (msg : Message) :
    Steps L s (s.cmdIdentify m (.ip id) msg) :=
  withPassword_steps hreg m msg _ fun _ user password h => verifyWith_steps h m _ user password

theorem cmdUnregister_steps {id : ℕ} (hreg : Registered s (.ip id)) (m : Moment) (msg : Message) :
    Steps L s (s.cmdUnregister m (.ip id) msg) :=
  withPassword_steps hreg m msg _ fun _ user password h => verifyWith_steps h m _ user password

/-! ### Operators -/

theorem grantOper_steps (s : Server) (m : Moment) (uid : UserId) : Steps L s (s.grantOper m uid) :=
  ((Relation.ReflTransGen.single .oper).trans (numeric_steps ..)).trans (refreshPrivileges_steps ..)

theorem operWith_steps {id : ℕ} (hreg : Registered s (.ip id)) (m : Moment) (name password : Text) :
    Steps L s (s.operWith m (.ip id) name password) := by
  unfold operWith
  split
  · split_ifs
    · exact runArgon2_steps hreg ..
    · exact numeric_steps ..
  · split_ifs
    · exact runArgon2_steps hreg ..
    · exact numeric_steps ..
    · exact grantOper_steps ..

theorem cmdOper_steps {id : ℕ} (hreg : Registered s (.ip id)) (m : Moment) (msg : Message) :
    Steps L s (s.cmdOper m (.ip id) msg) := by
  unfold cmdOper
  split
  · rcases hauth : s.authRateOk m (.ip id) with ⟨ok, t⟩
    obtain ⟨hrate, hstate⟩ := authRateOk_steps hauth
    cases ok with
    | false => exact hrate
    | true =>
      refine hrate.trans (operWith_steps ?_ m ..)
      rw [Registered, Server.user, hstate]
      exact hreg
  · exact numeric_steps ..

theorem requireOper_steps (s : Server) (uid : UserId) {f : Server → Server}
    (hf : Steps L s (f s)) : Steps L s (s.requireOper uid f) := by
  unfold requireOper
  split_ifs
  · exact hf
  · exact numeric_steps ..

/-! ### Accounts that stay -/

theorem insertHashed_extends {a b : Store} {nick hash : Text} {unix : ℕ}
    (h : a.insertHashed nick hash unix = .ok b) : Extends a b := by
  unfold Store.insertHashed at h
  split_ifs at h with hnew
  obtain rfl := Except.ok.inj h
  intro n x hx
  refine ⟨x, ?_, rfl⟩
  have hother : lower n ≠ lower nick := by
    intro heq
    refine hnew ?_
    rw [Store.isRegistered, Store.get, ← heq]
    exact Option.isSome_iff_exists.mpr ⟨x, hx⟩
  exact (Table.get_set_ne _ hother _).trans hx

theorem modify_extends {a b : Store} {nick : Text} {f : NickAccount → NickAccount}
    (h : a.modify nick f = .ok b) (hf : ∀ x, (f x).rfTx = x.rfTx) : Extends a b := by
  unfold Store.modify at h
  split at h
  · cases h
  · rename_i y hy
    obtain rfl := Except.ok.inj h
    intro n x hx
    by_cases hn : lower n = lower nick
    · have hxy : x = y := by
        rw [Store.get, hn] at hx
        exact Option.some.inj (hx.symm.trans hy)
      refine ⟨f y, ?_, hxy ▸ hf y⟩
      rw [Store.get, hn]
      exact Table.get_set_self ..
    · exact ⟨x, (Table.get_set_ne _ hn _).trans hx, rfl⟩

theorem setCallsign_extends {a b : Store} {nick callsign : Text}
    (h : a.setCallsign nick callsign = .ok b) : Extends a b := by
  unfold Store.setCallsign at h
  split_ifs at h
  exact modify_extends h fun _ => rfl

theorem clearCallsign_extends {a b : Store} {callsign owner : Text}
    (h : a.clearCallsign callsign = .ok (owner, b)) : Extends a b := by
  unfold Store.clearCallsign at h
  split at h
  · cases h
  · rename_i key y hbound
    obtain ⟨-, rfl⟩ := Prod.mk.inj (Except.ok.inj h)
    have hy : a.nicks.get key = some y := Table.mem_entries_iff.mp (List.mem_of_find?_eq_some hbound)
    intro n x hx
    by_cases hn : lower n = key
    · have hxy : x = y := by
        rw [Store.get, hn] at hx
        exact Option.some.inj (hx.symm.trans hy)
      refine ⟨{ y with callsign := none }, ?_, hxy ▸ rfl⟩
      rw [Store.get, hn]
      exact Table.get_set_self ..
    · exact ⟨x, (Table.get_set_ne _ hn _).trans hx, rfl⟩

theorem accounts_steps (s : Server) {a : Store} (h : Extends s.accounts a) :
    Steps L s { s with accounts := a } :=
  .single (.accounts h)

/-! ### Results -/

theorem bindSessionCallsign_steps (s : Server) (m : Moment) (uid : UserId) (takenNotice : Text) :
    Steps L s (s.bindSessionCallsign m uid takenNotice) := by
  unfold bindSessionCallsign
  split
  · exact .refl
  · split
    · exact .refl
    · split
      · rename_i hset
        exact ((accounts_steps s (setCallsign_extends hset)).trans (stripCallsignClaims_steps ..)).trans
          (noticeUser_steps ..)
      · exact (clearCallsign_steps ..).trans (noticeUser_steps ..)
      · exact noticeAccountError_steps ..

/-- The user who gave the password, and the licence to be the owner of the nick. -/
structure MayOwn (L : Licence) (s : Server) (uid : UserId) (user : User) : Prop where
  online : s.user uid = some user
  registered : user.registered = true
  owner : L.owner uid user.nick

theorem finishIdentify_steps {uid : UserId} {user : User} (h : MayOwn L s uid user) (m : Moment) :
    Steps L s (s.finishIdentify m uid user) := by
  unfold finishIdentify
  split_ifs with hacc
  · exact noticeAccountError_steps ..
  · have hknown : s.accounts.isRegistered user.nick = true := by simpa using hacc
    have hidentify : Steps L s (s.modifyUser uid identified) :=
      .single (.identify h.online h.registered hknown h.owner)
    exact ((hidentify.trans (noticeUser_steps ..)).trans (bindSessionCallsign_steps ..)).trans
      (refreshPrivileges_steps ..)

theorem insertHashed_registers {a b : Store} {nick hash : Text} {unix : ℕ}
    (h : a.insertHashed nick hash unix = .ok b) :
    b.get nick = some ⟨nick, hash, unix, false, none⟩ := by
  unfold Store.insertHashed at h
  split_ifs at h
  obtain rfl := Except.ok.inj h
  exact Table.get_set_self ..

theorem finishRegister_steps {uid : UserId} {user : User} (h : MayOwn L s uid user) (m : Moment)
    (hash : Option Text) : Steps L s (s.finishRegister m uid user hash) := by
  unfold finishRegister
  split
  · exact noticeAccountError_steps ..
  · split_ifs
    · split
      · exact noticeAccountError_steps ..
      · rename_i hset
        have hsame : Extends s.accounts _ := modify_extends hset fun _ => rfl
        exact (accounts_steps s hsame).trans (noticeUser_steps ..)
    · split
      · exact noticeAccountError_steps ..
      · rename_i accounts hnew
        have hknown : accounts.isRegistered user.nick = true := by
          rw [Store.isRegistered, insertHashed_registers hnew]
          rfl
        have hidentify : Steps L { s with accounts := accounts }
            ({ s with accounts := accounts }.modifyUser uid identified) :=
          .single (.identify h.online h.registered hknown h.owner)
        exact ((((accounts_steps s (insertHashed_extends hnew)).trans hidentify).trans
          (bindSessionCallsign_steps ..)).trans (noticeUser_steps ..)).trans (refreshPrivileges_steps ..)

theorem disowned_yields (u : User) : Yields u (disowned u) :=
  ⟨rfl, rfl, rfl, rfl, rfl, rfl, rfl, .inl rfl⟩

/-- The owner is disowned before the account goes. -/
theorem unregister_steps {uid : UserId} {user : User} {a : Store} (hu : s.user uid = some user)
    (hL : L.changes (.yields uid)) (ha : s.accounts.dropNick user.nick = .ok a)
    (hdrop : L.drop user.nick) : Steps L s ({ s with accounts := a }.modifyUser uid disowned) := by
  have huser : (s.modifyUser uid disowned).user uid = some (disowned user) := by
    have h := State.user_modifyUser s.state uid disowned uid
    rw [if_pos rfl] at h
    exact h.trans (congrArg (Option.map disowned) hu)
  have hyields : Steps L s (s.modifyUser uid disowned) := .single (.yields hL disowned_yields)
  exact hyields.tail (.drop ha hdrop (.inr ⟨uid, disowned user, huser, rfl, rfl⟩))

theorem finishUnregister_steps {uid : UserId} {user : User} (hu : s.user uid = some user)
    (hL : L.changes (.yields uid)) (hdrop : L.drop user.nick) (m : Moment) :
    Steps L s (s.finishUnregister m uid user) := by
  unfold finishUnregister
  split
  · exact noticeAccountError_steps ..
  · rename_i accounts ha
    exact ((unregister_steps hu hL ha hdrop).trans (noticeUser_steps ..)).trans
      (refreshPrivileges_steps ..)

/-- What a result may do to the nick that it was asked for. -/
structure Warrant (L : Licence) (s : Server) (id : ℕ) (kind : AuthKind) (nick : Text) : Prop where
  registered : ∀ u, s.user (.ip id) = some u → u.registered = true
  owner : kind = .identify ∨ kind = .register → ∀ u, s.user (.ip id) = some u →
    lower u.nick = lower nick → L.owner (.ip id) u.nick
  drop : kind = .unregister → ∀ u, s.user (.ip id) = some u → lower u.nick = lower nick →
    L.drop u.nick
  yields : kind = .unregister → L.changes (.yields (.ip id))

theorem finishAuth_steps {id : ℕ} {kind : AuthKind} {nick : Text}
    {result : Except AccountError (Option Text)}
    (h : ∀ v, result = .ok v → Warrant L s id kind nick) (m : Moment) :
    Steps L s (s.finishAuth m id kind nick result) := by
  unfold finishAuth
  extract_lets uid
  split
  · exact .refl
  · rename_i user hu
    split_ifs with hnick
    · exact noticeUser_steps ..
    · have hsame : lower user.nick = lower nick := not_not.mp hnick
      split
      · exact numeric_steps ..
      · exact noticeAccountError_steps ..
      · have hw := h _ rfl
        exact finishIdentify_steps ⟨hu, hw.registered _ hu, hw.owner (.inl rfl) _ hu hsame⟩ m
      · have hw := h _ rfl
        exact finishRegister_steps ⟨hu, hw.registered _ hu, hw.owner (.inr rfl) _ hu hsame⟩ m _
      · exact finishUnregister_steps hu ((h _ rfl).yields rfl) ((h _ rfl).drop rfl _ hu hsame) m
      · exact grantOper_steps ..

/-! ### Accounts, as operators change them -/

theorem grantRfTx_steps (s : Server) (m : Moment) (oper : UserId) (nick : Text) (grant : Bool) :
    Steps L s (s.grantRfTx m oper nick grant) := by
  unfold grantRfTx
  split
  · exact noticeUser_steps ..
  · exact noticeAccountError_steps ..
  · rename_i accounts ha
    extract_lets stored told
    have hgrant : Steps L s (withGrant s accounts nick) := .single (.grant ha)
    have htold : Steps L s told := by
      cases htarget : AirScreen.findTarget s.state nick with
      | none =>
        rw [withGrant, htarget] at hgrant
        simp only [told, stored, htarget]
        exact hgrant
      | some target =>
        rw [withGrant, htarget] at hgrant
        simp only [told, stored, htarget]
        exact (hgrant.trans (refreshPrivileges_settles ..)).trans (noticeUser_steps ..)
    exact htold.trans (noticeUser_steps ..)

/-- Whoever is online under the nick is disowned before the account goes. -/
theorem disown_steps (hs : Standing s) {nick : Text} {w : User} {a : Store}
    (hL : L.changes (.yields w.id))
    (hby : s.state.byNick nick = some w) (ha : s.accounts.dropNick nick = .ok a)
    (hdrop : L.drop nick) :
    Steps L s ({ s with accounts := a }.modifyUser w.id fun u => { disowned u with callsign := none }) := by
  obtain ⟨j, hj, hw⟩ := Option.bind_eq_some_iff.mp hby
  obtain rfl : w.id = j := (hs.users j w hw).known
  let f (u : User) : User := { disowned u with callsign := none }
  have hyields : Steps L s (s.modifyUser w.id f) :=
    .single (.yields hL fun _ => ⟨rfl, rfl, rfl, rfl, rfl, rfl, rfl, .inl rfl⟩)
  have hfree : ∀ u, (s.modifyUser w.id f).state.byNick nick = some u → u.nickIdentified = false := by
    intro u hu
    have hnicks : (s.modifyUser w.id f).state.nicks = s.state.nicks := State.nicks_modifyUser ..
    rw [State.byNick, hnicks, hj] at hu
    have hu' := (State.user_modifyUser s.state w.id f w.id).symm.trans hu
    rw [if_pos rfl] at hu'
    obtain ⟨v, -, rfl⟩ := Option.map_eq_some_iff.mp hu'
    rfl
  have hgone : Steps L s { s.modifyUser w.id f with accounts := a } :=
    hyields.tail (.drop ha hdrop (.inl hfree))
  exact hgone

theorem cmdDropnick_steps (hs : Standing s) (m : Moment) (uid : UserId) (msg : Message)
    (hL : ∀ uid, L.changes (.yields uid)) (hdrop : ∀ nick, L.drop nick) :
    Steps L s (s.cmdDropnick m uid msg) := by
  refine requireOper_steps s uid ?_
  split
  · exact numeric_steps ..
  · rename_i nick _
    split
    · exact noticeAccountError_steps ..
    · rename_i accounts ha
      extract_lets stored dropped
      have hdropped : Steps L s dropped := by
        simp only [dropped, stored, findTarget]
        cases hby : s.state.byNick nick with
        | none => exact .single (.drop ha (hdrop nick) (.inl fun u hu => by simp [hby] at hu))
        | some w =>
          exact ((disown_steps hs (hL _) hby ha (hdrop nick)).trans (noticeUser_steps ..)).trans
            (refreshPrivileges_steps ..)
      exact hdropped.trans (noticeUser_steps ..)

theorem cmdUnclaim_steps (s : Server) (m : Moment) (uid : UserId) (msg : Message) :
    Steps L s (s.cmdUnclaim m uid msg) := by
  refine requireOper_steps s uid ?_
  split
  · exact numeric_steps ..
  · split
    · exact noticeUser_steps ..
    · split
      · rename_i hclear
        exact ((accounts_steps s (clearCallsign_extends hclear)).trans
          (stripCallsignClaims_steps ..)).trans (noticeUser_steps ..)
      · exact noticeUser_steps ..
      · exact noticeAccountError_steps ..

/-! ### Callsigns -/

theorem bindClaim_steps {t : Server} {m : Moment} {uid : UserId} {user : User} {call : Callsign}
    (h : s.bindClaim m uid user call = .ok t) : Steps L s t := by
  unfold bindClaim at h
  split_ifs at h
  · cases hset : s.accounts.setCallsign user.nick (callText call) with
    | error e => simp [hset, Except.map] at h
    | ok accounts =>
      rw [hset] at h
      obtain rfl := Except.ok.inj h
      exact (accounts_steps s (setCallsign_extends hset)).trans (stripCallsignClaims_steps ..)
  · obtain rfl := Except.ok.inj h
    exact .refl

theorem claimCallsign_steps (s : Server) (m : Moment) (uid : UserId) (user : User) (call : Callsign) :
    Steps L s (s.claimCallsign m uid user call) := by
  unfold claimCallsign
  split
  · exact noticeAccountError_steps ..
  · rename_i t hbind
    extract_lets claimed told bound
    have hclaimed : Steps L t claimed := touch_steps t uid fun _ => ⟨rfl, rfl, rfl, rfl, rfl, rfl, rfl⟩
    exact ((((bindClaim_steps hbind).trans hclaimed).trans (noticeUser_steps ..)).trans
      (noticeUser_steps ..)).trans (refreshPrivileges_steps ..)

theorem cmdCallsign_steps (s : Server) (m : Moment) (uid : UserId) (msg : Message) :
    Steps L s (s.cmdCallsign m uid msg) := by
  unfold cmdCallsign
  split
  · exact .refl
  · exact noticeUser_steps ..
  · split
    · exact noticeUser_steps ..
    · split
      · exact noticeUser_steps ..
      · split
        · exact noticeUser_steps ..
        · split
          · exact noticeUser_steps ..
          · split
            · exact noticeUser_steps ..
            · exact claimCallsign_steps ..

end ServerSteps
