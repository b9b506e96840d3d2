import Rfircd.ServerInvariants

/-! A password is checked against the hash of the moment it was given.
The result comes back later and is applied by the name of the nick, whose account may be another by
then. -/
namespace LateResults

open Basics KeyedTable MessageText IrcState Accounts ServerOutput ServerCore ServerCore.Server
open Bridge ServerRuns ServerSteps ServerInvariants TransitionSystem

variable {L : Licence} {s t : Server} {verifies : Text → Text → Prop} {reader : BeaconReader}
  {guard : Server → Moment × ServerRuns.Event → Prop}

/-! ### Who leaves the accounts alone -/

theorem foldl_same {α β : Type*} (part : Server → β) {f : Server → α → Server}
    (h : ∀ s x, part (f s x) = part s) (s : Server) (xs : List α) :
    part (xs.foldl f s) = part s := by
  induction xs generalizing s with
  | nil => rfl
  | cons x xs ih => exact (ih _).trans (h s x)

theorem foldl_accounts {α : Type*} {f : Server → α → Server}
    (h : ∀ s x, (f s x).accounts = s.accounts) (s : Server) (xs : List α) :
    (xs.foldl f s).accounts = s.accounts := foldl_same Server.accounts h s xs

theorem quitUser_accounts (s : Server) (m : Moment) (uid : UserId) (reason : Text) :
    (s.quitUser m uid reason).accounts = s.accounts := by
  unfold quitUser
  split
  · rfl
  · refine (foldl_accounts (fun s c => ?_) ..).trans ?_
    · split_ifs <;> rfl
    · cases uid <;> (dsimp only; split_ifs <;> rfl)

theorem reapEvictedPeers_accounts (s : Server) (m : Moment) :
    (s.reapEvictedPeers m).accounts = s.accounts :=
  (foldl_accounts (fun _ _ => quitUser_accounts ..) ..).trans rfl

theorem reapplyFlags_accounts (s : Server) (uid : UserId) :
    (s.reapplyFlags uid).accounts = s.accounts := by
  refine foldl_accounts (fun s ch => ?_) s _
  rcases s.state.applyIntendedFlags uid ch with ⟨_ | ⟨old, new⟩, st⟩
  · rfl
  · dsimp only
    split_ifs <;> rfl

theorem stripWith_accounts {refresh : Server → UserId → Server}
    (h : ∀ s uid, (refresh s uid).accounts = s.accounts) (s : Server) (m : Moment)
    (call : Callsign) (keep : Option UserId) (notice : Text) :
    (s.stripWith refresh m call keep notice).accounts = s.accounts := by
  unfold stripWith
  extract_lets victims
  apply foldl_accounts
  intro s u
  exact h _ u.id

theorem refreshRfTx_accounts {strip : Server → Callsign → Server}
    (h : ∀ s c, (strip s c).accounts = s.accounts) (s : Server) (uid : UserId) :
    (s.refreshRfTx strip uid).accounts = s.accounts := by
  have hrecompute : (recompute s uid).accounts = s.accounts := by
    rcases recompute_cases s uid with ⟨-, heq⟩ | ⟨u, c, -, heq⟩ <;> rw [heq]
    rfl
  rcases refreshRfTx_cases s strip uid with heq | ⟨call, heq⟩
  · rw [heq, hrecompute]
  · rw [heq, h, hrecompute]

/-- The induction is on the rounds that are left. -/
theorem refreshWith_accounts (n : ℕ) (s : Server) (m : Moment) (uid : UserId) :
    (refreshWith n s m uid).accounts = s.accounts := by
  induction n generalizing s uid with
  | zero => exact (reapplyFlags_accounts ..).trans (refreshRfTx_accounts (fun _ _ => rfl) ..)
  | succ n ih =>
    exact (reapplyFlags_accounts ..).trans
      (refreshRfTx_accounts (fun s c => stripWith_accounts (fun s v => ih s v) ..) s uid)

theorem refreshPrivileges_accounts (s : Server) (m : Moment) (uid : UserId) :
    (s.refreshPrivileges m uid).accounts = s.accounts :=
  refreshWith_accounts ..

theorem stripCallsignClaims_accounts (s : Server) (m : Moment) (call : Callsign)
    (keep : Option UserId) (notice : Text) :
    (s.stripCallsignClaims m call keep notice).accounts = s.accounts :=
  stripWith_accounts (fun _ _ => refreshPrivileges_accounts ..) ..

/-! ### What becomes of the hashes -/

theorem hashFor_congr (a : Store) {n nick : Text} (h : lower n = lower nick) :
    a.hashFor n = a.hashFor nick := by
  rw [Store.hashFor, Store.get, h]
  rfl

theorem hashFor_modify {a b : Store} {nick : Text} {f : NickAccount → NickAccount}
    (h : a.modify nick f = .ok b) (hf : ∀ x, (f x).passwordHash = x.passwordHash) (n : Text) :
    b.hashFor n = a.hashFor n := by
  unfold Store.modify at h
  split at h
  · cases h
  · rename_i x hx
    obtain rfl := Except.ok.inj h
    simp only [Store.hashFor, Store.get, Table.get_set]
    split_ifs with hn
    · rw [hn]
      rw [Store.get] at hx
      rw [hx]
      exact congrArg some (hf x)
    · rfl

theorem hashFor_setCallsign {a b : Store} {nick callsign : Text}
    (h : a.setCallsign nick callsign = .ok b) (n : Text) : b.hashFor n = a.hashFor n := by
  unfold Store.setCallsign at h
  split_ifs at h
  exact hashFor_modify h (fun _ => rfl) n

theorem hashFor_insertHashed {a b : Store} {nick hash : Text} {unix : ℕ}
    (h : a.insertHashed nick hash unix = .ok b) : b.hashFor nick = some hash := by
  rw [Store.hashFor, insertHashed_registers h]
  rfl

theorem bindSessionCallsign_hashFor (s : Server) (m : Moment) (uid : UserId) (takenNotice nick : Text) :
    (s.bindSessionCallsign m uid takenNotice).accounts.hashFor nick = s.accounts.hashFor nick := by
  unfold bindSessionCallsign
  split
  · rfl
  · split
    · rfl
    · split
      · rename_i a hset
        have hkept : ∀ t : Server, ∀ call keep notice text,
            ((t.stripCallsignClaims m call keep notice).noticeUser m uid text).accounts = t.accounts :=
          fun t call keep notice text => stripCallsignClaims_accounts t m call keep notice
        rw [hkept]
        exact hashFor_setCallsign hset nick
      · rfl
      · rfl

/-! ### What a result does -/

/-- A licence under which nobody gets a nick and no account is dropped. -/
def nobody : Licence :=
  ⟨.free, fun _ => True, fun _ => True, fun _ _ => False, fun _ => False, fun _ => True⟩

/-- A licence under which one account may be dropped. -/
def dropsOnly (nick : Text) : Licence :=
  ⟨.free, fun _ => True, fun _ => True, fun _ _ => False, fun n => lower n = lower nick,
    fun _ => True⟩

/-- An account goes only when the licence has it dropped. -/
theorem steps_registered (hsteps : Steps L s t) {nick : Text}
    (hs : s.accounts.isRegistered nick = true) (ht : t.accounts.isRegistered nick = false) :
    ∃ n, L.drop n ∧ lower n = lower nick := by
  by_contra hnone
  have hkept : t.accounts.isRegistered nick = true := by
    clear ht
    induction hsteps with
    | refl => exact hs
    | @tail u v _ hstep ih =>
      cases hstep with
      | recompute =>
        rcases recompute_cases u (by assumption) with ⟨-, heq⟩ | ⟨w, c, -, heq⟩
        all_goals
          rw [heq]
          exact ih
      | join hjoin _ =>
        obtain ⟨⟨flags, st⟩, -, heq⟩ := Option.map_eq_some_iff.mp hjoin
        obtain ⟨-, rfl⟩ := Prod.mk.inj heq
        exact ih
      | accounts h => exact h.registered ih
      | @grant n rfTx a h =>
        have hgrant : a.isRegistered nick = true := by
          rw [Store.isRegistered, setRfTx_get h]
          split_ifs
          · rw [Option.isSome_map]
            exact ih
          · exact ih
        unfold withGrant
        split
        · exact hgrant
        · rcases recompute_cases { u with accounts := a } (by assumption) with ⟨-, heq⟩ | ⟨w, c, -, heq⟩
          all_goals
            rw [heq]
            exact hgrant
      | @drop n a h hdrop _ =>
        unfold Store.dropNick at h
        split_ifs at h
        obtain rfl := Except.ok.inj h
        have hother : lower nick ≠ lower n := fun heq => hnone ⟨n, hdrop, heq.symm⟩
        change (Table.get (Table.erase _ _) _).isSome = true
        rw [Table.get_erase, if_neg hother]
        exact ih
      | _ => exact ih
  rw [hkept] at ht
  cases ht

theorem finishIdentify_hashFor (s : Server) (m : Moment) (uid : UserId) (user : User) (nick : Text) :
    (s.finishIdentify m uid user).accounts.hashFor nick = s.accounts.hashFor nick := by
  unfold finishIdentify
  split_ifs
  · rfl
  · rw [refreshPrivileges_accounts, bindSessionCallsign_hashFor]
    rfl

/-- A registration that makes an owner stores the hash that the job computed. -/
theorem finishRegister_cases (s : Server) (m : Moment) (uid : UserId) (user : User)
    (hash : Option Text) :
    Steps nobody s (s.finishRegister m uid user hash) ∨
      ∃ x, hash = some x ∧ (s.finishRegister m uid user hash).accounts.hashFor user.nick = some x := by
  unfold finishRegister
  cases hash with
  | none => exact .inl (noticeAccountError_steps ..)
  | some x =>
    dsimp only
    split_ifs
    · split
      · exact .inl (noticeAccountError_steps ..)
      · rename_i a hset
        exact .inl ((accounts_steps s (modify_extends hset fun _ => rfl)).trans (noticeUser_steps ..))
    · split
      · exact .inl (noticeAccountError_steps ..)
      · rename_i a hnew
        refine .inr ⟨x, rfl, ?_⟩
        rw [refreshPrivileges_accounts]
        refine (bindSessionCallsign_hashFor ..).trans ?_
        exact hashFor_insertHashed hnew

/-- Whom a result makes the owner of a nick, and what the store has for it then. -/
def Earned (s t : Server) (id : ℕ) (kind : AuthKind) (nick : Text)
    (result : Except AccountError (Option Text)) (uid : UserId) (v : User) : Prop :=
  uid = .ip id ∧ lower v.nick = lower nick ∧
    (∃ u, s.user (.ip id) = some u ∧ lower u.nick = lower nick) ∧
    ((kind = .identify ∧ (∃ x, result = .ok x) ∧
        t.accounts.hashFor v.nick = s.accounts.hashFor v.nick) ∨
      (kind = .register ∧ ∃ x, result = .ok (some x) ∧ t.accounts.hashFor v.nick = some x))

theorem steps_sameOwners (hsteps : Steps L s t) (hL : ∀ uid nick, ¬ L.owner uid nick) :
    SameOwners s t := by
  intro uid v hv hi
  rcases steps_owner hsteps hv hi with h | ⟨nick, hown, -⟩
  · exact h
  · exact absurd hown (hL uid nick)

theorem finishAuth_owners {id : ℕ} {kind : AuthKind} {nick : Text} (m : Moment)
    {result : Except AccountError (Option Text)}
    (hreg : ∀ u, s.user (.ip id) = some u → u.registered = true) {uid : UserId} {v : User}
    (hv : (s.finishAuth m id kind nick result).user uid = some v) (hi : v.nickIdentified = true) :
    (∃ u, s.user uid = some u ∧ u.nickIdentified = true ∧ lower u.nick = lower v.nick) ∨
      Earned s (s.finishAuth m id kind nick result) id kind nick result uid v := by
  have hquiet : ∀ {t}, t.user uid = some v → Steps nobody s t →
      ∃ u, s.user uid = some u ∧ u.nickIdentified = true ∧ lower u.nick = lower v.nick :=
    fun ht hsteps => steps_sameOwners hsteps (fun _ _ h => h) uid v ht hi
  let owns : Licence :=
    ⟨.free, fun _ => True, fun _ => True, fun j n => j = .ip id ∧ lower n = lower nick, fun _ => True,
      fun _ => True⟩
  generalize ht : s.finishAuth m id kind nick result = t at hv ⊢
  unfold finishAuth at ht
  dsimp only at ht
  split at ht <;> rename_i hu
  · exact .inl ⟨v, ht ▸ hv, hi, rfl⟩
  · rename_i user
    split_ifs at ht with hnick
    · exact .inl (hquiet hv (ht ▸ noticeUser_steps ..))
    · have hmay : MayOwn owns s (.ip id) user := ⟨hu, hreg user hu, rfl, not_not.mp hnick⟩
      have honline : ∃ u, s.user (.ip id) = some u ∧ lower u.nick = lower nick :=
        ⟨user, hu, not_not.mp hnick⟩
      split at ht
      · exact .inl (hquiet hv (ht ▸ numeric_steps ..))
      · exact .inl (hquiet hv (ht ▸ noticeAccountError_steps ..))
      · -- the password of an account that is there
        rcases steps_owner (ht ▸ finishIdentify_steps hmay m) hv hi with h | ⟨n, ⟨huid, hn⟩, hlower⟩
        · exact .inl h
        · refine .inr ⟨huid, hlower.symm.trans hn, honline, .inl ⟨rfl, ⟨_, rfl⟩, ?_⟩⟩
          rw [← ht, finishIdentify_hashFor]
      · rename_i hash
        rcases finishRegister_cases s m (.ip id) user hash with hsteps | ⟨x, rfl, hstored⟩
        · exact .inl (hquiet hv (ht ▸ hsteps))
        · rcases steps_owner (ht ▸ finishRegister_steps hmay m (some x)) hv hi with h | ⟨n, ⟨huid, hn⟩, hlower⟩
          · exact .inl h
          · have hsame : lower v.nick = lower user.nick :=
              (hlower.symm.trans hn).trans (not_not.mp hnick).symm
            refine .inr ⟨huid, hlower.symm.trans hn, honline, .inr ⟨rfl, x, rfl, ?_⟩⟩
            rw [hashFor_congr _ hsame, ← ht, hstored]
      · have hsteps : Steps (dropsOnly user.nick) s (s.finishUnregister m (.ip id) user) :=
          finishUnregister_steps hu trivial rfl m
        exact .inl (steps_sameOwners (ht ▸ hsteps) (fun _ _ h => h) uid v hv hi)
      · exact .inl (hquiet hv (ht ▸ grantOper_steps ..))

/-- Only the account of the nick itself goes, while its user is online under it. -/
theorem finishAuth_removes {id : ℕ} {nick : Text} (m : Moment)
    {result : Except AccountError (Option Text)}
    (hreg : ∀ u, s.user (.ip id) = some u → u.registered = true) {n : Text}
    (hs : s.accounts.isRegistered n = true)
    (ht : (s.finishAuth m id .unregister nick result).accounts.isRegistered n = false) :
    lower n = lower nick ∧ (∃ x, result = .ok x) ∧
      ∃ u, s.user (.ip id) = some u ∧ lower u.nick = lower nick := by
  cases result with
  | error e =>
    have hsteps : Steps nobody s (s.finishAuth m id .unregister nick (.error e)) :=
      finishAuth_steps (fun v hv => by cases hv) m
    obtain ⟨_, hdrop, -⟩ := steps_registered hsteps hs ht
    exact absurd hdrop (fun h => h)
  | ok x =>
    let drops : Licence := ⟨.free, fun _ => True, fun _ => True, fun _ _ => False,
      fun k => lower k = lower nick ∧ ∃ u, s.user (.ip id) = some u ∧ lower u.nick = lower nick,
      fun _ => True⟩
    have hwarrant : Warrant drops s id .unregister nick :=
      ⟨hreg, fun h => (by rcases h with h | h <;> cases h), fun _ u hu hnick => ⟨hnick, u, hu, hnick⟩,
        fun _ => trivial⟩
    have hsteps : Steps drops s (s.finishAuth m id .unregister nick (.ok x)) :=
      finishAuth_steps (fun v _ => hwarrant) m
    obtain ⟨k, ⟨hdrop, honline⟩, hk⟩ := steps_registered hsteps hs ht
    exact ⟨hk.symm.trans hdrop, ⟨x, rfl⟩, honline⟩

/-! ### In every run -/

/-- The password that a job was given. -/
def given : Work → Option Text
  | .hash password => some password
  | .verify password _ => some password
  | .refuse => none

/-- The hash that a job looks at. -/
def checked : Work → Option Text
  | .verify _ hash => some hash
  | .hash _ | .refuse => none

/-- The password of a job verifies against the hash of a nick. -/
def Proven (verifies : Text → Text → Prop) (s : Server) (job : Job) (nick : Text) : Prop :=
  ∃ password hash, given job.work = some password ∧ s.accounts.hashFor nick = some hash ∧
    verifies password hash

/-- Whoever becomes the owner of a nick, and whoever removes an account, gave its password of that
moment. -/
structure Current (verifies : Text → Text → Prop) (s : Server) (e : Moment × ServerRuns.Event)
    (t : Server) : Prop where
  owner : ∀ id v, t.user (.ip id) = some v → v.nickIdentified = true →
    (∃ u, s.user (.ip id) = some u ∧ u.nickIdentified = true ∧ lower u.nick = lower v.nick) ∨
      ∃ job result, e.2 = .authFinished job result ∧ job.client = id ∧ Proven verifies t job v.nick
  removed : ∀ job result, e.2 = .authFinished job result → job.kind = .unregister → ∀ nick,
    s.accounts.isRegistered nick = true → t.accounts.isRegistered nick = false →
      Proven verifies s job nick

/-- A check that succeeds comes back while the store has the hash it was made against. -/
def Fresh (s : Server) (e : Moment × ServerRuns.Event) : Prop :=
  match e.2 with
  | .authFinished job (.ok _) => job.kind = .identify ∨ job.kind = .unregister →
      (∃ u ∈ s.user (.ip job.client), lower u.nick = lower job.nick) →
        ∀ hash ∈ s.accounts.hashFor job.nick, checked job.work = some hash
  | _ => True

instance (s : Server) (e : Moment × ServerRuns.Event) : Decidable (Fresh s e) := by
  unfold Fresh
  induction e.2 using ServerRuns.Event.casesOn with
  | authFinished job result => induction result using Except.casesOn <;> dsimp only <;> infer_instance
  | _ =>
    dsimp only
    infer_instance

/-- Nothing but a result makes anybody the owner of a nick. -/
theorem other_owners {e : Moment × ServerRuns.Event} (h : Grounded s)
    (he : ServerRuns.Enabled verifies s e) (hother : ∀ job result, e.2 ≠ .authFinished job result) :
    SameOwners s (s.next reader e) := by
  let keeps : Licence :=
    ⟨.free, fun _ => True, fun _ => True, fun _ _ => False, fun _ => True, fun _ => True⟩
  have hkeeps : Lenient keeps :=
    ⟨⟨fun _ _ => trivial, fun _ => trivial, fun _ => trivial, fun _ => trivial, fun _ => trivial⟩,
      fun _ _ => trivial, fun _ _ => trivial, fun _ => trivial, fun _ => trivial⟩
  have hlicensed : EventLicence keeps reader s e :=
    lenient_licensed hkeeps h.standing he (fun job v heq => absurd heq (hother job _))
      fun _ _ => trivial
  exact steps_sameOwners (next_steps h.standing h.named he trivial hlicensed) fun _ _ h => h

/-- The users after a result are those of the result, but for the stations that are gone. -/
theorem reaped_owner (m : Moment) {uid : UserId} {v : User}
    (hv : (t.reapEvictedPeers m).user uid = some v) (hi : v.nickIdentified = true) :
    ∃ u, t.user uid = some u ∧ u.nickIdentified = true ∧ lower u.nick = lower v.nick :=
  steps_sameOwners (L := nobody) (reapEvictedPeers_steps t m trivial) (fun _ _ h => h) uid v hv hi

theorem possible_hash {work : Work} {hash : Text} (h : Possible verifies work (.ok (some hash))) :
    ∃ password, work = .hash password ∧ verifies password hash := by
  cases work with
  | hash password => exact ⟨password, rfl, h⟩
  | verify _ _ => exact absurd h (fun h => h)
  | refuse => exact absurd h (fun h => h)

/-- A check that succeeded, against the hash that is still there. -/
theorem checked_proven {job : Job} {x : Option Text} {hash nick : Text}
    (hchecked : checked job.work = some hash) (h : Possible verifies job.work (.ok x))
    (hnow : s.accounts.hashFor nick = some hash) : Proven verifies s job nick := by
  unfold Proven
  cases hwork : job.work with
  | verify password old =>
    rw [hwork] at hchecked h
    obtain rfl := Option.some.inj hchecked
    cases x with
    | none => exact ⟨password, old, rfl, hnow, h⟩
    | some _ => exact absurd h (fun h => h)
  | hash _ => rw [hwork] at hchecked; cases hchecked
  | refuse => rw [hwork] at hchecked; cases hchecked

/-- In every run whose results come back while the store has the hash they were computed from, the
owner of a nick and the remover of an account gave the password of that moment. -/
theorem results_apply_to_current_hash
    (h : Reachable (system reader verifies) Fresh s) {e : Moment × ServerRuns.Event}
    (hg : Fresh s e) (he : ServerRuns.Enabled verifies s e) :
    Current verifies s e (s.next reader e) := by
  have hs := reachable_grounded h
  have hnext : Grounded (s.next reader e) := grounded_inductive.step s e _ hs hg ⟨he, rfl⟩
  obtain ⟨m, e⟩ := e
  refine ⟨fun id v hv hi => ?_, ?_⟩
  · by_cases hjob : ∃ job result, e = .authFinished job result
    · obtain ⟨job, result, rfl⟩ := hjob
      obtain ⟨u, hu, hui, hnick⟩ := reaped_owner m hv hi
      have haccounts : (s.next reader (m, .authFinished job result)).accounts =
          (s.finishJob m job result).accounts := reapEvictedPeers_accounts ..
      have hfinished := finishAuth_owners (s := { s with jobs := s.jobs.erase job }) m
        (hs.standing.jobs job he.1).2 hu hui
      rcases hfinished with ⟨w, hw, hwi, hlower⟩ | ⟨hid, hjob, honline, hcases⟩
      · exact .inl ⟨w, hw, hwi, hlower.trans hnick⟩
      · refine .inr ⟨job, result, rfl, (UserId.ip.inj hid).symm, ?_⟩
        have hhash := hashFor_congr (s.finishJob m job result).accounts hnick
        rcases hcases with ⟨hkind, ⟨x, rfl⟩, hkept⟩ | ⟨-, x, rfl, hstored⟩
        · -- the hash that the store has now is the one it had before, and so the one checked
          have hreg := ((hnext.standing.users _ v hv).identified rfl hi).2
          rw [haccounts] at hreg
          obtain ⟨a, ha⟩ := Option.isSome_iff_exists.mp hreg
          have hnow : (s.finishJob m job (.ok x)).accounts.hashFor v.nick = some a.passwordHash :=
            congrArg (Option.map NickAccount.passwordHash) ha
          have hbefore : s.accounts.hashFor job.nick = some a.passwordHash :=
            (hashFor_congr s.accounts hjob).symm.trans (hkept.symm.trans (hhash.trans hnow))
          exact checked_proven (hg (.inl hkind) honline _ hbefore) he.2 (haccounts ▸ hnow)
        · obtain ⟨password, hwork, hverifies⟩ := possible_hash he.2
          refine ⟨password, x, by rw [hwork]; rfl, ?_, hverifies⟩
          rw [haccounts, ← hhash]
          exact hstored
    · exact .inl (other_owners hs he (fun job result heq => hjob ⟨job, result, heq⟩) _ v hv hi)
  · rintro job result rfl hkind nick hreg hgone
    have hgone' : ({ s with jobs := s.jobs.erase job }.finishAuth m job.client .unregister job.nick
        result).accounts.isRegistered nick = false := by
      have haccounts : (s.next reader (m, .authFinished job result)).accounts =
          (s.finishJob m job result).accounts := reapEvictedPeers_accounts ..
      rw [haccounts, finishJob, hkind] at hgone
      exact hgone
    obtain ⟨hnick, ⟨x, rfl⟩, honline⟩ := finishAuth_removes (s := { s with jobs := s.jobs.erase job }) m
      (hs.standing.jobs job he.1).2 hreg hgone'
    obtain ⟨a, ha⟩ := Option.isSome_iff_exists.mp hreg
    have hnow : s.accounts.hashFor nick = some a.passwordHash :=
      congrArg (Option.map NickAccount.passwordHash) ha
    have hchecked := hg (.inr hkind) honline _ ((hashFor_congr _ hnick).symm.trans hnow)
    exact checked_proven hchecked he.2 hnow

/-! ### A removal that is late -/

/-- A job of one client for the nick `anna`. -/
def annaJob (kind : AuthKind) (work : Work) : Job := ⟨1, kind, "anna", work⟩

/-- The client registers its nick, asks for its removal, and gives it a new password. -/
def newPassword : List ServerRuns.Event :=
  Small.joins 1 "anna" false ++
    [.line 1 "REGISTER first-password",
      .authFinished (annaJob .register (.hash "first-password")) (.ok (some "first-password")),
      .line 1 "UNREGISTER first-password",
      .line 1 "REGISTER other-password",
      .authFinished (annaJob .register (.hash "other-password")) (.ok (some "other-password"))]

/-- The removal comes back at last. -/
def lateRemoval : Moment × ServerRuns.Event :=
  (Small.second 9,
    .authFinished (annaJob .unregister (.verify "first-password" "first-password")) (.ok none))

/-- The account goes for a password that is no longer its own. -/
theorem late_removal : Reachable (system Small.noBeacon Eq) everyStep (Small.run newPassword) ∧
    ServerRuns.Enabled Eq (Small.run newPassword) lateRemoval ∧
    ¬ Current Eq (Small.run newPassword) lateRemoval
      ((Small.run newPassword).next Small.noBeacon lateRemoval) := by
  refine ⟨Small.reachable (by decide +kernel), by decide +kernel, fun h => ?_⟩
  have hbefore : (Small.run newPassword).accounts.hashFor "anna" = some ("other-password" : Text) := by
    decide +kernel
  obtain ⟨password, hash, hgiven, hhash, hsame⟩ :=
    h.removed _ _ rfl rfl "anna" (by decide +kernel) (by decide +kernel)
  rw [hbefore] at hhash
  obtain rfl := Option.some.inj hhash
  obtain rfl := Option.some.inj hgiven
  exact absurd hsame (by decide)

/-- A first registration comes back. -/
def firstResult : Moment × ServerRuns.Event :=
  (Small.second 5, .authFinished (annaJob .register (.hash "first-password")) (.ok (some "first-password")))

theorem first_registration : Current Eq (Small.run (newPassword.take 4)) firstResult
    ((Small.run (newPassword.take 4)).next Small.noBeacon firstResult) := by
  have hfresh : Runs Fresh (ServerRuns.Enabled Eq) (Server.next Small.noBeacon) Small.start
      (Small.seconds (newPassword.take 4)) := by decide +kernel
  have hstart : Initial Small.start := ⟨Small.config, true, .default, .empty, 0, rfl⟩
  exact results_apply_to_current_hash ((Reachable.initial hstart).run hfresh)
    (by decide +kernel) (by decide +kernel)

end LateResults
