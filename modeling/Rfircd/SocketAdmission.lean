import Mathlib.Data.Finset.Basic
import Rfircd.HostKey
import Rfircd.KeyedTable

/-! Admission of a connection before the handshake. Sockets are accepted, and slots dropped, on many
threads at once: `try_acquire` and `release` are cut into their atomic steps. -/
namespace SocketAdmission

open Basics KeyedTable HostKey

/-- The same folding as `host_ban_key`, kept a second time beside the gate. -/
def hostKey (host : Text) : Text := hostBanKey host

inductive Deny where
  | banned
  | full
  | perHost
  deriving DecidableEq

/-- A limit of zero is none. -/
structure Admission where
  maxClients : ℕ
  maxConnsPerHost : ℕ
  total : ℕ
  perHost : Table Text ℕ
  bans : Finset Text

structure Slot where
  hostKey : Text
  countedTotal : Bool
  countedHost : Bool
  deriving DecidableEq

/-- How far the life of a slot has come. -/
inductive Call where
  | asked (key : Text)
  | admitted (key : Text)
  | overfull (key : Text)
  | counted (key : Text) (countedTotal : Bool)
  | refused (key : Text) (countedTotal : Bool)
  | denied (key : Text) (why : Deny)
  | live (slot : Slot)
  | releasing (slot : Slot)
  | halfReleased (slot : Slot)
  | released (slot : Slot)
  deriving DecidableEq

namespace Admission

def new (maxClients maxConnsPerHost : ℕ) : Admission := ⟨maxClients, maxConnsPerHost, 0, .empty, ∅⟩

def ban (a : Admission) (host : Text) : Admission :=
  let key := hostKey host
  if key = [] then a else { a with bans := insert key a.bans }

def unban (a : Admission) (host : Text) : Admission :=
  { a with bans := a.bans.erase (hostKey host) }

def loadBans (a : Admission) (hosts : List Text) : Admission :=
  { a with bans := ((hosts.map SocketAdmission.hostKey).filter (· ≠ [])).toFinset }

/-- How many slots the table has for a key. -/
def count (a : Admission) (key : Text) : ℕ := (a.perHost.get key).getD 0

/-- The next atomic step of `try_acquire`, or of `release` once the slot is dropped. -/
def advance (a : Admission) : Call → Admission × Call
  | .asked key => (a, if key ∈ a.bans then .denied key .banned else .admitted key)
  | .admitted key =>
    if 0 < a.maxClients then
      let n := a.total + 1
      ({ a with total := n }, if a.maxClients < n then .overfull key else .counted key true)
    else (a, .counted key false)
  | .overfull key => ({ a with total := a.total - 1 }, .denied key .full)
  | .counted key countedTotal =>
    if 0 < a.maxConnsPerHost then
      -- under the lock of the table, where the key gets an entry before it is looked at
      let entry := a.count key
      if a.maxConnsPerHost ≤ entry then
        ({ a with perHost := a.perHost.set key entry }, .refused key countedTotal)
      else ({ a with perHost := a.perHost.set key (entry + 1) }, .live ⟨key, countedTotal, true⟩)
    else (a, .live ⟨key, countedTotal, false⟩)
  | .refused key countedTotal =>
    (if countedTotal then { a with total := a.total - 1 } else a, .denied key .perHost)
  | .releasing slot =>
    (if slot.countedTotal then { a with total := a.total - 1 } else a, .halfReleased slot)
  | .halfReleased slot =>
    if slot.countedHost then
      match a.perHost.get slot.hostKey with
      | none => (a, .released slot)
      | some n =>
        if n - 1 = 0 then ({ a with perHost := a.perHost.erase slot.hostKey }, .released slot)
        else ({ a with perHost := a.perHost.set slot.hostKey (n - 1) }, .released slot)
    else (a, .released slot)
  | .denied key why => (a, .denied key why)
  | .live slot => (a, .live slot)
  | .released slot => (a, .released slot)

end Admission

/-! ### Runs -/

structure State where
  gate : Admission
  calls : List Call

inductive Event where
  | accept (host : Text)
  | step (i : ℕ)
  | drop (i : ℕ)
  | ban (host : Text)
  | unban (host : Text)
  | loadBans (hosts : List Text)

def next (s : State) : Event → State
  | .accept host => { s with calls := s.calls ++ [.asked (hostKey host)] }
  | .step i =>
    match s.calls[i]? with
    | none => s
    | some c => ⟨(s.gate.advance c).1, s.calls.set i (s.gate.advance c).2⟩
  | .drop i =>
    match s.calls[i]? with
    | some (.live slot) => { s with calls := s.calls.set i (.releasing slot) }
    | _ => s
  | .ban host => { s with gate := s.gate.ban host }
  | .unban host => { s with gate := s.gate.unban host }
  | .loadBans hosts => { s with gate := s.gate.loadBans hosts }

end SocketAdmission
