import Mathlib.Data.Char
import Mathlib.Data.List.Lex
import Rfircd.HostKey
import Rfircd.KeyedTable

/-! Registered nicknames, and the hosts that are refused at connect.
The store is written in the background, so a change is seen at once and never fails for the disk. -/
namespace Accounts

open Basics KeyedTable MessageText HostKey

structure NickAccount where
  nick : Text
  passwordHash : Text
  createdUnix : ℕ
  rfTx : Bool
  callsign : Option Text
  deriving DecidableEq

inductive AccountError where
  | tooShort
  | tooLong
  | hash
  | io
  | taken
  | badPassword
  | notRegistered
  | callsignTaken
  deriving DecidableEq

structure Store where
  nicks : Table Text NickAccount
  ipBans : List Text

namespace Store

def empty : Store := ⟨.empty, []⟩

def get (s : Store) (nick : Text) : Option NickAccount := s.nicks.get (lower nick)

def isRegistered (s : Store) (nick : Text) : Bool := (s.get nick).isSome

def grantsRfTx (s : Store) (nick : Text) : Bool := (s.get nick).any NickAccount.rfTx

def hashFor (s : Store) (nick : Text) : Option Text := (s.get nick).map NickAccount.passwordHash

def insertHashed (s : Store) (nick hash : Text) (unix : ℕ) : Except AccountError Store :=
  if s.isRegistered nick then .error .taken
  else .ok { s with nicks := s.nicks.set (lower nick) ⟨nick, hash, unix, false, none⟩ }

/-- Changes an account that is there. -/
def modify (s : Store) (nick : Text) (f : NickAccount → NickAccount) : Except AccountError Store :=
  match s.get nick with
  | none => .error .notRegistered
  | some a => .ok { s with nicks := s.nicks.set (lower nick) (f a) }

def setPasswordHash (s : Store) (nick hash : Text) : Except AccountError Store :=
  s.modify nick fun a => { a with passwordHash := hash }

def setRfTx (s : Store) (nick : Text) (rfTx : Bool) : Except AccountError Store :=
  s.modify nick fun a => { a with rfTx := rfTx }

def dropNick (s : Store) (nick : Text) : Except AccountError Store :=
  if s.isRegistered nick then .ok { s with nicks := s.nicks.erase (lower nick) }
  else .error .notRegistered

/-- The account that is bound to a callsign, under its key. -/
def bound (s : Store) (callsign : Text) : Option (Text × NickAccount) :=
  s.nicks.entries.find? fun e => e.2.callsign.any fun c => lower c = lower callsign

def ownerOfCallsign (s : Store) (callsign : Text) : Option Text :=
  (s.bound callsign).map fun e => e.2.nick

def setCallsign (s : Store) (nick callsign : Text) : Except AccountError Store :=
  if !s.isRegistered nick then .error .notRegistered
  else if (s.ownerOfCallsign callsign).any fun owner => lower owner ≠ lower nick then
    .error .callsignTaken
  else s.modify nick fun a => { a with callsign := some callsign }

/-- Returns the nick that was bound. -/
def clearCallsign (s : Store) (callsign : Text) : Except AccountError (Text × Store) :=
  match s.bound callsign with
  | none => .error .notRegistered
  | some (key, a) => .ok (a.nick, { s with nicks := s.nicks.set key { a with callsign := none } })

/-- The accounts by nick. -/
def list (s : Store) : List NickAccount :=
  (s.nicks.entries.map Prod.snd).mergeSort fun a b => decide (lower a.nick ≤ lower b.nick)

/-! ### Refused hosts -/

def isIpBanned (s : Store) (host : Text) : Bool :=
  s.ipBans.any fun h => hostBanKey h = hostBanKey host

def banIp (s : Store) (host : Text) : Bool × Store :=
  let key := hostBanKey host
  if key = [] then (false, s)
  else if s.isIpBanned host then (false, s)
  else (true, { s with ipBans := s.ipBans ++ [key] })

def unbanIp (s : Store) (host : Text) : Bool × Store :=
  if !s.isIpBanned host then (false, s)
  else (true, { s with ipBans := s.ipBans.filter fun h => hostBanKey h ≠ hostBanKey host })

end Store

end Accounts
