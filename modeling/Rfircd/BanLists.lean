import Rfircd.AddressText
import Rfircd.LateResults
import Rfircd.SocketAdmission

/-! The bans of the account store, and the list the gate keeps of them. -/
namespace BanLists

open Basics MessageText HostKey AddressText IrcMessage IrcState Accounts SocketAdmission
open ServerOutput ServerCore ServerCore.Server ServerRuns LateResults TransitionSystem

/-! ### The gate of the server -/

/-- The gate that the listeners ask, with the bans as the server gave them. -/
def gate (s : Server) : Admission :=
  { Admission.new s.cfg.maxClients s.cfg.maxConnsPerHost with bans := s.admissionBans.toFinset }

/-- `try_acquire` ends at its first step. -/
def RefusedAtAccept (s : Server) (host : Text) : Prop :=
  ((gate s).advance (.asked (hostKey host))).2 = .denied (hostKey host) .banned

def RefusedAtConnect (s : Server) (host : Text) : Prop := s.accounts.isIpBanned host = true

/-! ### Runs -/

inductive Event where
  | kline (m : Moment) (uid : UserId) (msg : Message)
  | unkline (m : Moment) (uid : UserId) (msg : Message)
  | restart (cfg : ServerConfig) (attached : Bool) (tnc : TransmitPump.TncConfig) (unix : ℕ)
  | other

/-- Both lists. -/
def lists (s : Server) : List Text × List Text := (s.accounts.ipBans, s.admissionBans)

/-- A restart loads the bans that were stored. Between the commands the server does what it likes
with all but the lists. -/
def Step (s : Server) : Event → Server → Prop
  | .kline m uid msg, t => t = s.cmdKline m uid msg
  | .unkline m uid msg, t => t = s.cmdUnkline m uid msg
  | .restart cfg attached tnc unix, t => t = .new cfg attached tnc s.accounts unix
  | .other, t => lists t = lists s

def system : System Server Event where
  Initial s := lists s = ([], [])
  Step := Step

/-! ### What the commands do to the lists -/

section

variable {s : Server}

theorem quitUser_lists (s : Server) (m : Moment) (uid : UserId) (reason : Text) :
    lists (s.quitUser m uid reason) = lists s := by
  unfold quitUser
  split
  · rfl
  · refine (foldl_same lists (fun s c => ?_) ..).trans ?_
    · split_ifs <;> rfl
    · cases uid <;> (dsimp only; split_ifs <;> rfl)

theorem lists_bans (s : Server) (a : Store) (bans : List Text) :
    lists { s with accounts := a, admissionBans := bans } = (a.ipBans, bans) := rfl

theorem closeLink_lists (s : Server) (uid : UserId) (line : Text) :
    lists (s.closeLink uid line) = lists s := by
  cases uid <;> rfl

theorem banIp_ipBans (a : Store) (host : Text) : (a.banIp host).2.ipBans =
    if hostBanKey host = [] ∨ a.isIpBanned host = true then a.ipBans
    else a.ipBans ++ [hostBanKey host] := by
  by_cases hkey : hostBanKey host = []
  · rw [if_pos (.inl hkey), Store.banIp, if_pos hkey]
  · by_cases hbanned : a.isIpBanned host = true
    · rw [if_pos (.inr hbanned), Store.banIp, if_neg hkey, if_pos hbanned]
    · rw [if_neg (not_or.mpr ⟨hkey, hbanned⟩), Store.banIp, if_neg hkey, if_neg hbanned]

/-- What `KLINE` adds to the lists. -/
def kline (host : Text) (l : List Text × List Text) : List Text × List Text :=
  let key := hostBanKey (hostBanKey host)
  if key = [] then l
  else (if ∃ b ∈ l.1, hostBanKey b = key then l.1 else l.1 ++ [key], l.2.insert key)

/-- What `UNKLINE` takes from the lists. -/
def unkline (host : Text) (l : List Text × List Text) : List Text × List Text :=
  let key := hostBanKey host
  if ∃ b ∈ l.1, hostBanKey b = key then
    (l.1.filter fun b => hostBanKey b ≠ key, l.2.erase (hostBanKey key))
  else l

theorem isIpBanned_iff (a : Store) (host : Text) :
    a.isIpBanned host = true ↔ ∃ b ∈ a.ipBans, hostBanKey b = hostBanKey host := by
  rw [Store.isIpBanned, List.any_eq_true]
  simp only [decide_eq_true_eq]

theorem requireOper_eq {uid : UserId} (h : s.isOper uid = true) (f : Server → Server) :
    s.requireOper uid f = f s := if_pos h

/-- The key of a host is made twice on its way into each list. -/
theorem cmdKline_lists (m : Moment) {uid : UserId} {msg : Message} {host : Text}
    (hoper : s.isOper uid = true) (hhost : msg.param 0 = some host) :
    lists (s.cmdKline m uid msg) = kline host (lists s) := by
  have hclosed : ∀ (s : Server) (victims : List User) (line reason : Text),
      lists (victims.foldl (fun s u => (s.closeLink u.id line).quitUser m u.id reason) s) = lists s :=
    fun s victims line reason => foldl_same lists
      (fun s u => (quitUser_lists ..).trans (closeLink_lists s u.id line)) s victims
  unfold cmdKline kline
  rw [requireOper_eq hoper, hhost]
  simp only
  by_cases hnone : hostBanKey host = []
  · have hkey : hostBanKey (hostBanKey host) = [] := by
      rw [hnone]
      decide +kernel
    rw [if_pos hnone, if_pos hkey]
    rfl
  rw [if_neg hnone]
  refine (hclosed _ _ _ _).trans ?_
  have hstored := isIpBanned_iff s.accounts (hostBanKey host)
  rw [lists_bans, banIp_ipBans]
  by_cases hkey : hostBanKey (hostBanKey host) = []
  · rw [if_pos (.inl hkey), if_pos hkey, if_pos hkey]
    rfl
  rw [if_neg hkey, if_neg hkey]
  by_cases hbanned : s.accounts.isIpBanned (hostBanKey host) = true
  · rw [if_pos (.inr hbanned), if_pos (show ∃ b ∈ (lists s).1, _ from hstored.mp hbanned)]
    rfl
  · rw [if_neg (not_or.mpr ⟨hkey, hbanned⟩),
      if_neg (show ¬ ∃ b ∈ (lists s).1, _ from mt hstored.mpr hbanned)]
    rfl

theorem cmdUnkline_lists (m : Moment) {uid : UserId} {msg : Message} {host : Text}
    (hoper : s.isOper uid = true) (hhost : msg.param 0 = some host) :
    lists (s.cmdUnkline m uid msg) = unkline host (lists s) := by
  have hstored := isIpBanned_iff s.accounts host
  unfold cmdUnkline unkline
  rw [requireOper_eq hoper, hhost]
  by_cases hbanned : s.accounts.isIpBanned host = true
  · have hunban : s.accounts.unbanIp host = (true, { s.accounts with
        ipBans := s.accounts.ipBans.filter fun h => hostBanKey h ≠ hostBanKey host }) := by
      rw [Store.unbanIp, hbanned]
      rfl
    simp only [hunban]
    rw [if_pos (show ∃ b ∈ (lists s).1, _ from hstored.mp hbanned)]
    rfl
  · have hunban : s.accounts.unbanIp host = (false, s.accounts) := by
      rw [Store.unbanIp, Bool.eq_false_of_not_eq_true hbanned]
      rfl
    simp only [hunban]
    rw [if_neg (show ¬ ∃ b ∈ (lists s).1, _ from mt hstored.mpr hbanned)]
    rfl

/-- Without the rights or a host nothing is changed. -/
theorem cmdKline_cases (s : Server) (m : Moment) (uid : UserId) (msg : Message) :
    lists (s.cmdKline m uid msg) = lists s ∨
      ∃ host, lists (s.cmdKline m uid msg) = kline host (lists s) := by
  by_cases hoper : s.isOper uid = true
  · cases hhost : msg.param 0 with
    | none =>
      left
      unfold cmdKline
      rw [requireOper_eq hoper, hhost]
      rfl
    | some host => exact .inr ⟨host, cmdKline_lists m hoper hhost⟩
  · left
    unfold cmdKline requireOper
    rw [if_neg hoper]
    rfl

theorem cmdUnkline_cases (s : Server) (m : Moment) (uid : UserId) (msg : Message) :
    lists (s.cmdUnkline m uid msg) = lists s ∨
      ∃ host, lists (s.cmdUnkline m uid msg) = unkline host (lists s) := by
  by_cases hoper : s.isOper uid = true
  · cases hhost : msg.param 0 with
    | none =>
      left
      unfold cmdUnkline
      rw [requireOper_eq hoper, hhost]
      rfl
    | some host => exact .inr ⟨host, cmdUnkline_lists m hoper hhost⟩
  · left
    unfold cmdUnkline requireOper
    rw [if_neg hoper]
    rfl

end

/-! ### The lists agree -/

/-- Both lists have the same keys, each once, and a key stands for itself. -/
structure Agree (l : List Text × List Text) : Prop where
  same : ∀ key, key ∈ l.2 ↔ key ∈ l.1
  stored : l.1.Nodup
  once : l.2.Nodup
  own : ∀ key ∈ l.1, hostBanKey key = key ∧ key ≠ []

section

variable {l : List Text × List Text}

theorem agree_empty : Agree ([], []) where
  same _ := Iff.rfl
  stored := .nil
  once := .nil
  own _ h := absurd h List.not_mem_nil

theorem Agree.kline (h : Agree l) (host : Text) : Agree (kline host l) := by
  unfold BanLists.kline
  simp only
  split_ifs with hnone hbanned
  · exact h
  · obtain ⟨b, hb, hkey⟩ := hbanned
    have hmem : hostBanKey (hostBanKey host) ∈ l.1 := by
      rw [← hkey, (h.own b hb).1]
      exact hb
    rw [List.insert_of_mem ((h.same _).mpr hmem)]
    exact h
  · have hnew : hostBanKey (hostBanKey host) ∉ l.1 :=
      fun hmem => hbanned ⟨_, hmem, hostBanKey_twice host⟩
    refine ⟨?_, ?_, h.once.insert, ?_⟩
    · intro key
      rw [List.mem_insert_iff, List.mem_append, List.mem_singleton, h.same, or_comm]
    · exact h.stored.append (List.nodup_singleton _) (List.disjoint_singleton.mpr hnew)
    · intro key hkey
      rcases List.mem_append.mp hkey with hkey | hkey
      · exact h.own key hkey
      · rw [List.mem_singleton.mp hkey]
        exact ⟨hostBanKey_twice host, hnone⟩

theorem Agree.unkline (h : Agree l) (host : Text) : Agree (unkline host l) := by
  unfold BanLists.unkline
  simp only
  split_ifs with hbanned
  · obtain ⟨b, hb, hkey⟩ := hbanned
    have hown : hostBanKey (hostBanKey host) = hostBanKey host := by
      rw [← hkey, (h.own b hb).1, (h.own b hb).1]
    refine ⟨?_, h.stored.filter _, h.once.erase _, ?_⟩
    · intro key
      rw [hown, h.once.mem_erase_iff, List.mem_filter, h.same, and_comm]
      refine and_congr_right fun hmem => ?_
      rw [(h.own key hmem).1, decide_eq_true_eq]
    · exact fun key hmem => h.own key (List.mem_of_mem_filter hmem)
  · exact h

/-- What a restart loads is what was there. -/
theorem Agree.restart (h : Agree l) :
    Agree (l.1, (l.1.map hostBanKey).filter fun key => key ≠ []) := by
  have hown : l.1.map hostBanKey = l.1 := by
    refine Eq.trans (List.map_congr_left fun key hkey => ?_) (List.map_id l.1)
    exact (h.own key hkey).1
  have hall : l.1.filter (fun key => key ≠ []) = l.1 :=
    List.filter_eq_self.mpr fun key hkey => by simpa using (h.own key hkey).2
  rw [hown, hall]
  exact ⟨fun _ => Iff.rfl, h.stored, h.stored, h.own⟩

end

theorem Agree.step {s t : Server} (h : Agree (lists s)) {e : Event} (hs : Step s e t) :
    Agree (lists t) := by
  cases e with
  | kline m uid msg =>
    obtain rfl := hs
    rcases cmdKline_cases s m uid msg with heq | ⟨host, heq⟩ <;> rw [heq]
    · exact h
    · exact h.kline host
  | unkline m uid msg =>
    obtain rfl := hs
    rcases cmdUnkline_cases s m uid msg with heq | ⟨host, heq⟩ <;> rw [heq]
    · exact h
    · exact h.unkline host
  | restart cfg attached tnc unix =>
    obtain rfl := hs
    exact h.restart
  | other => exact (show lists t = lists s from hs) ▸ h

theorem refusedAtAccept_iff (s : Server) (host : Text) :
    RefusedAtAccept s host ↔ hostBanKey host ∈ (lists s).2 := by
  have hbans : hostKey host ∈ (gate s).bans ↔ hostBanKey host ∈ (lists s).2 := List.mem_toFinset
  rw [RefusedAtAccept, Admission.advance, ← hbans]
  by_cases h : hostKey host ∈ (gate s).bans
  · simp [h]
  · simp [h]

theorem Agree.refusedAtConnect_iff {s : Server} (h : Agree (lists s)) (host : Text) :
    RefusedAtConnect s host ↔ hostBanKey host ∈ (lists s).1 := by
  rw [RefusedAtConnect, isIpBanned_iff]
  constructor
  · rintro ⟨b, hb, hkey⟩
    rw [← hkey, (h.own b hb).1]
    exact hb
  · exact fun hmem => ⟨_, hmem, (h.own _ hmem).1⟩

/-! ### Lifting a ban -/

/-- A host is refused in both places. -/
def Banned (s : Server) (key : Text) : Prop :=
  ∀ host, hostBanKey host = key → RefusedAtAccept s host ∧ RefusedAtConnect s host

/-- A host is refused in neither. -/
def Lifted (s : Server) (key : Text) : Prop :=
  ∀ host, hostBanKey host = key → ¬ RefusedAtAccept s host ∧ ¬ RefusedAtConnect s host

section

variable {s : Server}

theorem Agree.banned_iff (h : Agree (lists s)) {key : Text} (hown : hostBanKey key = key) :
    Banned s key ↔ key ∈ (lists s).1 := by
  constructor
  · intro hbanned
    have hkey := (h.refusedAtConnect_iff key).mp (hbanned key hown).2
    rwa [hown] at hkey
  · rintro hmem host rfl
    exact ⟨(refusedAtAccept_iff s host).mpr ((h.same _).mpr hmem),
      (h.refusedAtConnect_iff host).mpr hmem⟩

theorem Agree.lifted_iff (h : Agree (lists s)) {key : Text} (hown : hostBanKey key = key) :
    Lifted s key ↔ key ∉ (lists s).1 := by
  constructor
  · intro hlifted hmem
    exact (hlifted key hown).2 ((h.refusedAtConnect_iff key).mpr (by rwa [hown]))
  · rintro hnot host rfl
    exact ⟨fun hr => hnot ((h.same _).mp ((refusedAtAccept_iff s host).mp hr)),
      fun hr => hnot ((h.refusedAtConnect_iff host).mp hr)⟩

/-- The two lists refuse the same hosts after every run. A `KLINE` puts the key of the key of its host
in both; an `UNKLINE` of the same host lifts that ban if and only if the key of the host is its own
key, or there is no ban to lift. -/
theorem ban_lists (h : Reachable system (fun _ _ => True) s) :
    (∀ host, RefusedAtAccept s host ↔ RefusedAtConnect s host) ∧
    ∀ m uid msg host, s.isOper uid = true → msg.param 0 = some host →
      (hostBanKey (hostBanKey host) ≠ [] →
        Banned (s.cmdKline m uid msg) (hostBanKey (hostBanKey host))) ∧
      (Lifted (s.cmdUnkline m uid msg) (hostBanKey (hostBanKey host)) ↔
        hostBanKey (hostBanKey host) = hostBanKey host ∨
        Lifted s (hostBanKey (hostBanKey host))) := by
  have hinv : Inductive system (fun _ _ => True) fun s => Agree (lists s) := by
    refine ⟨?_, ?_⟩
    · intro s hs
      rw [show lists s = ([], []) from hs]
      exact agree_empty
    · intro s e t hs _ hstep
      exact hs.step hstep
  have hagree := hinv.reachable h
  refine ⟨fun host => ?_, ?_⟩
  · rw [refusedAtAccept_iff, hagree.refusedAtConnect_iff, hagree.same]
  intro m uid msg host hoper hhost
  have hown := hostBanKey_twice host
  have hkline := cmdKline_lists m hoper hhost
  have hunkline := cmdUnkline_lists m hoper hhost
  have hagree' : Agree (lists (s.cmdKline m uid msg)) := hkline ▸ hagree.kline host
  have hagree'' : Agree (lists (s.cmdUnkline m uid msg)) := hunkline ▸ hagree.unkline host
  constructor
  · intro hne
    rw [hagree'.banned_iff hown, hkline, kline]
    simp only [if_neg hne]
    split_ifs with hbanned
    · obtain ⟨b, hb, hkey⟩ := hbanned
      rw [← hkey, (hagree.own b hb).1]
      exact hb
    · exact List.mem_append_right _ List.mem_cons_self
  · rw [hagree''.lifted_iff hown, hagree.lifted_iff hown, hunkline, unkline]
    split_ifs with hbanned
    · obtain ⟨b, hb, hkey⟩ := hbanned
      have hsame : hostBanKey (hostBanKey host) = hostBanKey host := by
        rw [← hkey, (hagree.own b hb).1, (hagree.own b hb).1]
      refine iff_of_true ?_ (.inl hsame)
      intro hmem
      have hne := (List.mem_filter.mp hmem).2
      rw [decide_eq_true_eq, hown] at hne
      exact hne hsame
    · constructor
      · exact .inr
      · rintro (hsame | hnot)
        · exact fun hmem => hbanned ⟨_, hmem, hown.trans hsame⟩
        · exact hnot

end

/-! ### A host in brackets, with spaces -/

def bracketed (command : String) : Message := .new command.toList ["[ 10.0.0.1 ]".toList]

/-- A client that has become an operator. -/
def operated : Server := Small.run (Small.joins 1 "anna" false ++ [.line 1 "OPER root secret"])

def klined : Server := operated.cmdKline (Small.second 9) (.ip 1) (bracketed "KLINE")

theorem reachable_operated : Reachable system (fun _ _ => True) operated := by
  have hstart : lists Small.start = ([], []) := by decide +kernel
  have hsame : lists operated = lists Small.start := by decide +kernel
  have hreached : Reachable system (fun _ _ => True) Small.start := Reachable.initial hstart
  exact hreached.step (e := .other) trivial hsame

theorem reachable_klined : Reachable system (fun _ _ => True) klined :=
  reachable_operated.step (e := .kline (Small.second 9) (.ip 1) (bracketed "KLINE")) trivial rfl

/-- The ban stays in both lists when it is taken back with the same words. -/
theorem unkline_misses :
    Reachable system (fun _ _ => True) operated ∧ operated.isOper (.ip 1) = true ∧
    (bracketed "KLINE").param 0 = (bracketed "UNKLINE").param 0 ∧
    RefusedAtConnect (klined.cmdUnkline (Small.second 10) (.ip 1) (bracketed "UNKLINE"))
      "10.0.0.1".toList ∧
    RefusedAtAccept (klined.cmdUnkline (Small.second 10) (.ip 1) (bracketed "UNKLINE"))
      "10.0.0.1".toList := by
  refine ⟨reachable_operated, by decide +kernel, rfl, ?_, ?_⟩
  · unfold RefusedAtConnect
    decide +kernel
  · rw [refusedAtAccept_iff]
    decide +kernel

theorem ban_lists_klined :
    (∀ host, RefusedAtAccept klined host ↔ RefusedAtConnect klined host) ∧
    (Lifted (klined.cmdUnkline (Small.second 10) (.ip 1) (.new "UNKLINE" ["10.0.0.1".toList]))
      (hostBanKey (hostBanKey "10.0.0.1".toList))) := by
  obtain ⟨hagree, hlift⟩ := ban_lists reachable_klined
  refine ⟨hagree, ?_⟩
  refine (hlift (Small.second 10) (.ip 1) _ "10.0.0.1".toList (by decide +kernel) rfl).2.mpr (.inl ?_)
  decide +kernel

end BanLists
