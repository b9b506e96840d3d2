import Rfircd.Basics
import Mathlib.Data.List.Basic

/-! AX.25 UI frames, as far as the transmitter looks into them. -/
namespace Ax25

open Basics

def addressLen : ℕ := 7
def controlUi : UInt8 := 0x03
def pidNoL3 : UInt8 := 0xF0
def maxDigipeaters : ℕ := 8

structure Address where
  call : Callsign
  cBit : Bool
  last : Bool
  deriving DecidableEq

def Address.new (call : Callsign) : Address := ⟨call, false, false⟩

structure Ax25Frame where
  destination : Address
  source : Address
  digipeaters : List Address
  control : UInt8
  pid : Option UInt8
  info : List UInt8
  deriving DecidableEq

namespace Ax25Frame

/-- A command frame: the destination has the C bit. `none` when the path is too long. -/
def ui (source destination : Callsign) (path : List Callsign) (info : List UInt8) :
    Option Ax25Frame :=
  if maxDigipeaters < path.length then none
  else some ⟨{ Address.new destination with cBit := true }, .new source, path.map .new,
    controlUi, some pidNoL3, info⟩

/-- The length of the encoded frame. -/
def octets (f : Ax25Frame) : ℕ :=
  addressLen * (2 + f.digipeaters.length) + 1 + f.pid.toList.length + f.info.length

end Ax25Frame

/-- The sequence number of an AIRC payload, if the information field is one. -/
def aircSeq (info : List UInt8) : Option UInt16 :=
  match info with
  | a :: one :: _ :: _ :: hi :: lo :: _ :: _ :: _ =>
    if a = 0x41 ∧ one = 0x31 then some (.ofNat (hi.toNat * 256 + lo.toNat)) else none
  | _ => none

end Ax25
