import Rfircd.Bridge
import Rfircd.FieldLists

/-! The client program of a station: what it shows of the messages that it receives. -/
namespace StationDisplay

open Airc AircSession Ax25 Basics Bridge HostKey IrcMessage MessageText ServerOutput

structure Station where
  call : Callsign
  path : List Callsign
  quiet : Bool
  sessions : Sessions
  lastRx : Option ℕ
  output : List Text
  sent : List Ax25Frame

/-! ### Lines for the terminal -/

/-- What a terminal would obey is left out: controls, and the marks of writing direction. -/
def stripTerminalControls (t : Text) : Text :=
  t.filter fun c =>
    let n := c.toNat
    !(isControl c || (0x80 ≤ n && n ≤ 0x9F) || n = 0x200E || n = 0x200F ||
      (0x202A ≤ n && n ≤ 0x202E) || (0x2066 ≤ n && n ≤ 0x2069))

def humanAge (secs : ℕ) : Text :=
  if secs ≤ 90 then natText secs ++ "s"
  else if secs ≤ 5400 then natText (secs / 60) ++ "m"
  else natText (secs / 3600) ++ "h"

/-- The two shapes of a `NAMESREPLY`, told apart by how the second field ends. -/
def showNames (chan body : Text) (topic : Option Text) : List Text :=
  let told : Text := if ("here" : Text) <:+ body then
      "-- joined " ++ chan ++ " (" ++ body ++ "; /names to list them)"
    else "-- " ++ chan ++ " members: " ++ body
  told :: (topic.filter (· ≠ [])).toList.map fun topic => "-- " ++ chan ++ " topic: " ++ topic

/-- The lines for a message, before they are stripped. -/
def shown (quiet : Bool) (src : Callsign) (msg : AircFrame) : List Text :=
  let f := fieldTexts msg
  let field := fun i : ℕ => (f[i]?).getD []
  match msg.kind with
  | .msg | .notice =>
    let stale : Text := if msg.has Flags.retry then " (repeat)" else []
    let (target, sender, text) := if 3 ≤ f.length then (field 0, field 1, field 2)
      else (field 0, Callsign.toNick src, field 1)
    if target.head? = some '#' ∨ target.head? = some '&' then
      [target ++ " <" ++ sender ++ "> " ++ text ++ stale]
    else ["*" ++ sender ++ "* " ++ text ++ stale]
  | .stored =>
    let age : Text := (((f[3]?).bind (Outlet.parseNat (2 ^ 64))).map humanAge).getD "earlier"
    ["*" ++ field 1 ++ "* [held " ++ age ++ "] " ++ field 2]
  | .welcome => ["-- connected to " ++ field 0 ++ " : " ++ field 1]
  | .namesReply => showNames (field 0) (field 1) f[2]?
  | .presence =>
    let verb : Text := if field 2 = ['+'] then "joined" else "left"
    ["-- " ++ field 1 ++ " " ++ verb ++ " " ++ field 0]
  | .error => ["!! " ++ joinWith [' '] f]
  | .pong => if quiet then [] else ["-- pong"]
  | .id => if quiet then [] else ["-- " ++ joinWith [' '] f]
  | .hello | .join | .part | .names | .ping | .ack | .quit => []

/-! ### Reception -/

namespace Station

def say (st : Station) (line : Text) : Station :=
  { st with output := st.output ++ [stripTerminalControls line] }

/-- `taken` is the answer of the transmit queue. -/
def transmitTo (st : Station) (taken : Bool) (dest : Callsign) (f : AircFrame) : Station :=
  match Ax25Frame.ui st.call dest st.path f.encode with
  | some ax =>
    if taken then { st with sent := st.sent ++ [ax] }
    else st.say "!! transmit queue full, message dropped"
  | none => st.say "!! cannot build frame: too many digipeaters"

/-- The session layer takes the frame; what it answers goes out. -/
def take (st : Station) (src : Callsign) (f : AircFrame) (ours : Bool) (now : ℕ)
    (taken : ℕ → Bool) : Station × Option AircFrame :=
  let (sessions, outcome) := st.sessions.onReceive src f now ours
  let st := { st with lastRx := some now, sessions := sessions }
  (outcome.transmit.zipIdx.foldl (fun st e => st.transmitTo (taken e.2) src e.1) st,
    outcome.deliver)

/-- Traffic for another station is neither read nor acknowledged. -/
def handleRf (st : Station) (ax : Ax25Frame) (now : ℕ) (taken : ℕ → Bool) : Station :=
  let src := ax.source.call
  let dest := ax.destination.call
  if src = st.call then st
  else if Callsign.looksLikeAmateurCall dest ∧ dest ≠ st.call then st
  else match AircFrame.decode ax.info with
    | .error _ => st
    | .ok f =>
      match st.take src f (dest = st.call) now taken with
      | (st, none) => st
      | (st, some msg) => (shown st.quiet src msg).foldl say st

end Station

end StationDisplay
