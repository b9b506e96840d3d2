import Rfircd.IrcState

/-! Messages held for stations that are not in range. -/
namespace HeldMail

open Basics KeyedTable IrcState

structure StoredMessage where
  sender : Text
  text : Text
  notice : Bool
  truncated : Bool
  storedAt : ℕ
  origin : Origin
  deriving DecidableEq

inductive StoreError where
  | disabled
  | stationFull
  | gatewayFull
  deriving DecidableEq

structure Mailbox where
  enabled : Bool
  perStation : ℕ
  total : ℕ
  ttl : ℕ
  boxes : Table Callsign (List StoredMessage)

namespace Mailbox

def new (enabled : Bool) (perStation total ttl : ℕ) : Mailbox :=
  ⟨enabled, perStation, total, ttl, .empty⟩

def queue (m : Mailbox) (call : Callsign) : List StoredMessage := (m.boxes.get call).getD []

def depth (m : Mailbox) (call : Callsign) : ℕ := (m.queue call).length

def len (m : Mailbox) : ℕ := (m.boxes.entries.map fun e => e.2.length).sum

/-- Returns how many wait for the station now. -/
def store (m : Mailbox) (dst : Callsign) (message : StoredMessage) :
    Except StoreError ℕ × Mailbox :=
  if !m.enabled || m.perStation = 0 then (.error .disabled, m)
  else if m.total ≤ m.len then (.error .gatewayFull, m)
  else if m.perStation ≤ m.depth dst then (.error .stationFull, m)
  else (.ok (m.depth dst + 1), { m with boxes := m.boxes.set dst (m.queue dst ++ [message]) })

def peek (m : Mailbox) (call : Callsign) : Option StoredMessage := (m.queue call).head?

def dropFront (m : Mailbox) (call : Callsign) : Mailbox :=
  match m.boxes.get call with
  | none => m
  | some q =>
    { m with
      boxes := if q.tail = [] then m.boxes.erase call else m.boxes.set call q.tail }

/-- The stations with mail, and how much. -/
def summary (m : Mailbox) : List (Callsign × ℕ) :=
  ((m.boxes.entries.filter fun e => e.2 ≠ []).map fun e => (e.1, e.2.length)).mergeSort fun a b =>
    decide (a.1.base < b.1.base ∨ a.1.base = b.1.base ∧ a.1.ssid ≤ b.1.ssid)

def expire (m : Mailbox) (now : ℕ) : Mailbox :=
  { m with
    boxes := m.boxes.filterMap fun _ q =>
      let kept := q.filter fun s => now - s.storedAt < m.ttl
      if kept = [] then none else some kept }

end Mailbox

end HeldMail
