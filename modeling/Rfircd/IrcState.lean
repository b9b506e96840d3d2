import Mathlib.Data.Char
import Mathlib.Data.List.Lex
import Rfircd.IrcMessage
import Rfircd.KeyedTable

/-! Who is connected, under which nick, and in which channels.
Users come from two places: over the Internet, and heard on the air. -/
namespace IrcState

open Basics KeyedTable MessageText HostKey

inductive UserId where
  | ip (client : ℕ)
  | rf (call : Callsign)
  deriving DecidableEq

namespace UserId

def isRf : UserId → Bool
  | rf _ => true
  | ip _ => false

def callsign : UserId → Option Callsign
  | rf c => some c
  | ip _ => none

end UserId

structure User where
  id : UserId
  nick : Text
  username : Text
  realname : Text
  host : Text
  callsign : Option Callsign
  registered : Bool
  nickIdentified : Bool
  identifyBy : Option ℕ
  oper : Bool
  away : Option Text
  channels : List Text
  connectedAt : ℕ
  lastActive : ℕ
  gotNick : Bool
  gotUser : Bool
  passOk : Bool
  rfTx : Bool
  listenOnly : Bool
  deriving DecidableEq

namespace User

def new (id : UserId) (host : Text) (now : ℕ) : User where
  id := id
  nick := ['*']
  username := ['*']
  realname := []
  host := host
  callsign := none
  registered := false
  nickIdentified := false
  identifyBy := none
  oper := false
  away := none
  channels := []
  connectedAt := now
  lastActive := now
  gotNick := false
  gotUser := false
  passOk := false
  rfTx := false
  listenOnly := false

/-- `nick!user@host`, as it stands in message prefixes. -/
def nickMask (u : User) : Text := u.nick ++ '!' :: u.username ++ '@' :: u.host

def isRf (u : User) : Bool := u.id.isRf

end User

/-- The manual flags were granted with MODE, and survive a recomputation. -/
structure MemberFlags where
  op : Bool
  voice : Bool
  opManual : Bool
  voiceManual : Bool
  deriving DecidableEq

namespace MemberFlags

def default : MemberFlags := ⟨false, false, false, false⟩

def sigil (f : MemberFlags) : Text := if f.op then ['@'] else if f.voice then ['+'] else []

end MemberFlags

/-! Where a text comes from. The record is for the history of what was put on the air; the
gateway decides nothing by it. -/

/-- What held of an Internet user and of the text when the text was taken. -/
structure Acceptance where
  mayTransmit : Bool
  callPermitted : Bool
  screened : Bool
  deriving DecidableEq

def Acceptance.cleared (a : Acceptance) : Bool := a.mayTransmit && a.callPermitted && a.screened

inductive Origin where
  | gateway
  | ip (author : UserId) (accepted : Acceptance)
  /-- A station's own words, sanitised. -/
  | station (call : Callsign) (original : Text)
  deriving DecidableEq

structure Channel where
  name : Text
  configured : Bool
  topic : Option Text
  topicOrigin : Origin
  topicSetter : Text
  topicTime : ℕ
  members : Table UserId MemberFlags
  rf : Bool
  moderated : Bool
  topicLocked : Bool
  key : Option Text
  limit : Option ℕ
  operators : List Text

namespace Channel

/-- RF channels start moderated. -/
def new (name : Text) (rf : Bool) : Channel where
  name := name
  configured := false
  topic := none
  topicOrigin := .gateway
  topicSetter := []
  topicTime := 0
  members := .empty
  rf := rf
  moderated := rf
  topicLocked := true
  key := none
  limit := none
  operators := []

def modeString (c : Channel) : Text :=
  ['+', 'n'] ++ (if c.rf then ['r'] else []) ++ (if c.moderated then ['m'] else []) ++
    (if c.topicLocked then ['t'] else []) ++ (if c.key.isSome then ['k'] else []) ++
    (if c.limit.isSome then ['l'] else [])

def hasRfMembers (c : Channel) : Bool := c.members.keys.any UserId.isRf

def rfMemberCount (c : Channel) : ℕ := (c.members.keys.filter UserId.isRf).length

def isMember (c : Channel) (id : UserId) : Bool := (c.members.get id).isSome

end Channel

structure State where
  users : Table UserId User
  nicks : Table Text UserId
  channels : Table Text Channel

namespace State

def empty : State := ⟨.empty, .empty, .empty⟩

def user (s : State) (id : UserId) : Option User := s.users.get id

def channel (s : State) (name : Text) : Option Channel := s.channels.get (lower name)

/-- Changes a user that is there. -/
def modifyUser (s : State) (id : UserId) (f : User → User) : State :=
  match s.users.get id with
  | none => s
  | some u => { s with users := s.users.set id (f u) }

/-- Changes a channel that is there. -/
def modifyChannel (s : State) (name : Text) (f : Channel → Channel) : State :=
  match s.channel name with
  | none => s
  | some c => { s with channels := s.channels.set (lower name) (f c) }

def insertUser (s : State) (u : User) : State := { s with users := s.users.set u.id u }

def byNick (s : State) (nick : Text) : Option User := (s.nicks.get (lower nick)).bind s.users.get

def nickTaken (s : State) (nick : Text) : Bool := (s.nicks.get (lower nick)).isSome

/-- Claims a nick and releases the old one, unless somebody else has it. -/
def setNick (s : State) (id : UserId) (nick : Text) : Bool × State :=
  match s.users.get id with
  | none => (false, s)
  | some u =>
    if (s.nicks.get (lower nick)).any (· ≠ id) then (false, s)
    else (true, { s with
      nicks := (s.nicks.erase (lower u.nick)).set (lower nick) id
      users := s.users.set id { u with nick := nick } })

def ensureChannel (s : State) (name : Text) (rf : Bool) : State :=
  if (s.channel name).isSome then s
  else { s with channels := s.channels.set (lower name) (.new name rf) }

/-- The flags that follow from who the user is. The first user of a local channel is operator. -/
def flagsForParts (s : State) (id : UserId) (rf first : Bool) (operators : List Text) :
    MemberFlags :=
  match s.users.get id with
  | none => .default
  | some u =>
    let configuredOp := decide (lower u.nick ∈ operators) && u.nickIdentified
    if rf then ⟨u.oper || configuredOp, u.callsign.isSome || u.oper, false, false⟩
    else ⟨(first && !id.isRf) || u.oper || configuredOp, false, false, false⟩

/-- Fails for a member, and for a user or a channel that is not there. -/
def join (s : State) (id : UserId) (channel : Text) : Option (MemberFlags × State) :=
  match s.users.get id, s.channels.get (lower channel) with
  | some u, some c =>
    if c.isMember id then none
    else
      let flags := s.flagsForParts id c.rf c.members.entries.isEmpty c.operators
      some (flags, { s with
        channels := s.channels.set (lower channel) { c with members := c.members.set id flags }
        users := s.users.set id { u with channels := u.channels.insert (lower channel) } })
  | _, _ => none

/-- Recomputes the derived part of a member's flags. Returns the old and the new ones if they
differ. -/
def applyIntendedFlags (s : State) (id : UserId) (channel : Text) :
    Option (MemberFlags × MemberFlags) × State :=
  match s.channels.get (lower channel) with
  | none => (none, s)
  | some c =>
    match c.members.get id with
    | none => (none, s)
    | some old =>
      let derived := s.flagsForParts id c.rf false c.operators
      let new : MemberFlags :=
        { old with op := derived.op || old.opManual, voice := derived.voice || old.voiceManual }
      if old = new then (none, s)
      else (some (old, new), { s with
        channels := s.channels.set (lower channel) { c with members := c.members.set id new } })

def ipUsers (s : State) : ℕ := (s.users.entries.filter fun e => !e.2.isRf).length

def ipCountFromHost (s : State) (host : Text) : ℕ :=
  (s.users.entries.filter fun e =>
    !e.2.isRf && decide (hostBanKey e.2.host = hostBanKey host)).length

/-- A channel that users made goes with its last member. -/
def reapChannel (s : State) (key : Text) : State :=
  if (s.channels.get key).any fun c => !c.configured && c.members.entries.isEmpty then
    { s with channels := s.channels.erase key }
  else s

/-- Takes a user out of the channel with this key. -/
def leave (s : State) (id : UserId) (key : Text) : State :=
  match s.channels.get key with
  | none => s.reapChannel key
  | some c =>
    { s with channels := s.channels.set key { c with members := c.members.erase id } }.reapChannel
      key

def part (s : State) (id : UserId) (channel : Text) : Bool × State :=
  let key := lower channel
  match s.channels.get key with
  | none => (false, s)
  | some c =>
    (c.isMember id,
      (s.modifyUser id fun u => { u with channels := u.channels.erase key }).leave id key)

def removeUser (s : State) (id : UserId) : State :=
  match s.users.get id with
  | none => s
  | some u =>
    u.channels.foldl (fun s key => s.leave id key)
      { s with users := s.users.erase id, nicks := s.nicks.erase (lower u.nick) }

def members (s : State) (channel : Text) : List UserId :=
  (s.channel channel).elim [] fun c => c.members.keys

/-- Everyone who shares a channel with the user. -/
def peersOf (s : State) (id : UserId) : List UserId :=
  match s.users.get id with
  | none => []
  | some u =>
    (u.channels.flatMap fun key => (s.channels.get key).elim [] fun c => c.members.keys).dedup.erase id

/-- The nicks of a channel's members behind their sigils, sorted. -/
def namesOf (s : State) (channel : Text) : List Text :=
  match s.channel channel with
  | none => []
  | some c =>
    (c.members.entries.filterMap fun e =>
      (s.users.get e.1).map fun u => e.2.sigil ++ u.nick).mergeSort fun a b => decide (a ≤ b)

/-! ### What the operations do to users, nicks and channels -/

@[simp] theorem user_modifyUser (s : State) (id : UserId) (f : User → User) (j : UserId) :
    (s.modifyUser id f).user j = if j = id then (s.user id).map f else s.user j := by
  unfold modifyUser user
  cases h : s.users.get id with
  | none =>
    split_ifs with hj
    · rw [hj, h]
      rfl
    · rfl
  | some u =>
    rw [Table.get_set]
    rfl

@[simp] theorem nicks_modifyUser (s : State) (id : UserId) (f : User → User) :
    (s.modifyUser id f).nicks = s.nicks := by
  unfold modifyUser
  split <;> rfl

@[simp] theorem channels_modifyUser (s : State) (id : UserId) (f : User → User) :
    (s.modifyUser id f).channels = s.channels := by
  unfold modifyUser
  split <;> rfl

theorem modifyUser_modifyUser (s : State) (id : UserId) (f g : User → User) :
    (s.modifyUser id f).modifyUser id g = s.modifyUser id fun u => g (f u) := by
  unfold modifyUser
  cases h : s.users.get id with
  | none => simp only [h]
  | some u => simp only [Table.get_set_self, Table.set_set]

theorem modifyUser_congr {s : State} {id : UserId} {f g : User → User}
    (h : ∀ u, s.user id = some u → f u = g u) : s.modifyUser id f = s.modifyUser id g := by
  unfold modifyUser
  cases hu : s.users.get id with
  | none => rfl
  | some u => simp only [h u hu]

@[simp] theorem users_modifyChannel (s : State) (name : Text) (f : Channel → Channel) :
    (s.modifyChannel name f).users = s.users := by
  unfold modifyChannel
  split <;> rfl

@[simp] theorem nicks_modifyChannel (s : State) (name : Text) (f : Channel → Channel) :
    (s.modifyChannel name f).nicks = s.nicks := by
  unfold modifyChannel
  split <;> rfl

theorem channel_modifyChannel (s : State) (name : Text) (f : Channel → Channel) (k : Text) :
    (s.modifyChannel name f).channels.get k =
      if k = lower name then (s.channel name).map f else s.channels.get k := by
  unfold modifyChannel
  cases h : s.channel name with
  | none =>
    split_ifs with hk
    · rw [hk]
      exact h
    · rfl
  | some c =>
    rw [Table.get_set]
    rfl

@[simp] theorem users_ensureChannel (s : State) (name : Text) (rf : Bool) :
    (s.ensureChannel name rf).users = s.users := by
  unfold ensureChannel
  split_ifs <;> rfl

@[simp] theorem nicks_ensureChannel (s : State) (name : Text) (rf : Bool) :
    (s.ensureChannel name rf).nicks = s.nicks := by
  unfold ensureChannel
  split_ifs <;> rfl

/-- A nick is claimed by nobody else, and the old one is free. -/
theorem setNick_true {s t : State} {id : UserId} {nick : Text} {u : User}
    (hu : s.user id = some u) (h : s.setNick id nick = (true, t)) :
    (∀ j, t.user j = if j = id then some { u with nick := nick } else s.user j) ∧
      (∀ k, t.nicks.get k = if k = lower nick then some id else
        if k = lower u.nick then none else s.nicks.get k) ∧
      t.channels = s.channels ∧ ∀ j, s.nicks.get (lower nick) = some j → j = id := by
  have hu' : s.users.get id = some u := hu
  unfold setNick at h
  rw [hu'] at h
  simp only at h
  split_ifs at h with htaken
  · exact absurd (congrArg Prod.fst h) (by simp)
  obtain rfl := (congrArg Prod.snd h).symm
  refine ⟨fun j => Table.get_set .., fun k => ?_, rfl, fun j hj => ?_⟩
  · simp only [Table.get_set, Table.get_erase]
  · by_contra hne
    exact htaken (by rw [hj]; simpa using hne)

theorem setNick_false {s t : State} {id : UserId} {nick : Text}
    (h : s.setNick id nick = (false, t)) : t = s := by
  unfold setNick at h
  split at h
  · exact (congrArg Prod.snd h).symm
  · split_ifs at h
    · exact (congrArg Prod.snd h).symm
    · exact absurd (congrArg Prod.fst h) (by simp)

/-- What a change leaves of the nick can be changed before. -/
theorem setNick_modifyUser (s : State) (id : UserId) (nick : Text) {f : User → User}
    (hnick : ∀ u, (f u).nick = u.nick)
    (hf : ∀ u, f { u with nick := nick } = { f u with nick := nick }) :
    (s.modifyUser id f).setNick id nick =
      ((s.setNick id nick).1, (s.setNick id nick).2.modifyUser id f) := by
  unfold setNick modifyUser
  cases h : s.users.get id with
  | none => simp only [h]
  | some u =>
    simp only [Table.get_set_self]
    split_ifs
    · simp only [h]
    · simp only [Table.get_set_self, Table.set_set, hnick, hf]

@[simp] theorem user_insertUser (s : State) (u : User) (j : UserId) :
    (s.insertUser u).user j = if j = u.id then some u else s.user j :=
  Table.get_set ..

@[simp] theorem users_reapChannel (s : State) (key : Text) : (s.reapChannel key).users = s.users := by
  unfold reapChannel
  split_ifs <;> rfl

@[simp] theorem nicks_reapChannel (s : State) (key : Text) : (s.reapChannel key).nicks = s.nicks := by
  unfold reapChannel
  split_ifs <;> rfl

@[simp] theorem users_leave (s : State) (id : UserId) (key : Text) :
    (s.leave id key).users = s.users := by
  unfold leave
  split <;> simp

@[simp] theorem nicks_leave (s : State) (id : UserId) (key : Text) :
    (s.leave id key).nicks = s.nicks := by
  unfold leave
  split <;> simp

theorem leaveAll_same (id : UserId) (keys : List Text) (s : State) :
    (keys.foldl (fun s key => s.leave id key) s).users = s.users ∧
      (keys.foldl (fun s key => s.leave id key) s).nicks = s.nicks := by
  induction keys generalizing s with
  | nil => exact ⟨rfl, rfl⟩
  | cons key keys ih =>
    obtain ⟨husers, hnicks⟩ := ih (s.leave id key)
    exact ⟨husers.trans (users_leave ..), hnicks.trans (nicks_leave ..)⟩

theorem user_removeUser (s : State) (id j : UserId) :
    (s.removeUser id).user j = if j = id then none else s.user j := by
  unfold removeUser user
  cases h : s.users.get id with
  | none =>
    split_ifs with hj
    · rw [hj, h]
    · rfl
  | some u => rw [(leaveAll_same id u.channels _).1, Table.get_erase]

theorem nicks_removeUser (s : State) (id : UserId) (k : Text) :
    (s.removeUser id).nicks.get k =
      if (s.user id).any (fun u => k = lower u.nick) then none else s.nicks.get k := by
  unfold removeUser user
  cases h : s.users.get id with
  | none => rfl
  | some u =>
    rw [(leaveAll_same id u.channels _).2, Table.get_erase]
    simp

/-- Joining changes the list of a user's channels, and nothing else about users. -/
theorem join_users {s t : State} {id : UserId} {channel : Text} {flags : MemberFlags}
    (h : s.join id channel = some (flags, t)) :
    t.nicks = s.nicks ∧ ∃ u, s.user id = some u ∧ ∀ j, t.user j =
      if j = id then some { u with channels := u.channels.insert (lower channel) } else s.user j := by
  unfold join at h
  split at h
  · rename_i u c hu hc
    split_ifs at h
    obtain ⟨-, rfl⟩ := Prod.mk.inj (Option.some.inj h)
    exact ⟨rfl, u, hu, fun j => Table.get_set ..⟩
  · cases h

theorem part_users (s : State) (id : UserId) (channel : Text) :
    (s.part id channel).2.nicks = s.nicks ∧
      ((s.part id channel).2.user = s.user ∨ (s.part id channel).2.user =
        (s.modifyUser id fun u => { u with channels := u.channels.erase (lower channel) }).user) := by
  unfold part
  simp only
  split
  · exact ⟨rfl, .inl rfl⟩
  · refine ⟨by simp, .inr ?_⟩
    funext j
    unfold user
    rw [users_leave]

theorem applyIntendedFlags_users (s : State) (id : UserId) (channel : Text) :
    (s.applyIntendedFlags id channel).2.users = s.users ∧
      (s.applyIntendedFlags id channel).2.nicks = s.nicks := by
  unfold applyIntendedFlags
  split
  · exact ⟨rfl, rfl⟩
  · split
    · exact ⟨rfl, rfl⟩
    · simp only
      split_ifs <;> exact ⟨rfl, rfl⟩

end State

end IrcState
