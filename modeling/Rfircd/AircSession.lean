import Rfircd.Airc
import Rfircd.KeyedTable
import Mathlib.Data.Finset.Insert
import Mathlib.Data.Fintype.Pi
import Mathlib.Data.List.MinMax

/-! Per-station session state: sequencing, fragmentation, retransmission, duplicate
suppression and reassembly. Everything is driven with an explicit `now`. -/
namespace AircSession

open Basics Airc KeyedTable

structure SessionConfig where
  paclen : ℕ
  ackTimeout : ℕ
  maxRetries : ℕ
  reassemblyTimeout : ℕ
  peerIdleTimeout : ℕ
  maxQueue : ℕ
  dedupWindow : ℕ
  maxPeers : ℕ
  maxReasm : ℕ
  deriving DecidableEq

def SessionConfig.default : SessionConfig where
  paclen := 128
  ackTimeout := secs 12
  maxRetries := 3
  reassemblyTimeout := secs 60
  peerIdleTimeout := secs (30 * 60)
  maxQueue := 16
  dedupWindow := 64
  maxPeers := 256
  maxReasm := 4

def SessionConfig.maxPayload (cfg : SessionConfig) : ℕ := max (cfg.paclen - headerLen) 1

/-- `nextRetry` is `none` until the TNC reports the frame keyed. -/
structure Pending where
  frames : List AircFrame
  acked : List Bool
  attempts : ℕ
  nextRetry : Option ℕ
  deriving DecidableEq

structure Reassembly where
  kind : Kind
  flags : UInt8
  parts : List (Option (List UInt8))
  started : ℕ
  wantAck : Bool
  deriving DecidableEq

/-- No bitmap is the whole message. -/
structure OwedAck where
  seq : UInt16
  bitmap : Option (List UInt8)
  deriving DecidableEq

inductive Dialect where
  | aprs
  | airc
  deriving DecidableEq

structure Peer where
  channels : Finset String
  firstHeard : ℕ
  lastHeard : ℕ
  registered : Bool
  dropped : ℕ
  dialect : Dialect
  pending : Option Pending
  owedAck : Option OwedAck
  queue : List (List AircFrame)
  seen : List UInt16
  reasm : Table UInt16 Reassembly
  kicked : Finset String
  epoch : UInt16

namespace Peer

def new (now : ℕ) : Peer :=
  ⟨∅, now, now, false, 0, .aprs, none, none, [], [], .empty, ∅, 0⟩

def noteAirc (p : Peer) : Peer := { p with dialect := .airc }

def noteAprs (p : Peer) : Peer := if p.dialect = .airc then p else { p with dialect := .aprs }

def markKicked (p : Peer) (channel : String) : Peer :=
  { p with kicked := insert channel p.kicked, channels := p.channels.erase channel }

def clearKicked (p : Peer) (channel : String) : Peer :=
  { p with kicked := p.kicked.erase channel }

def queueDepth (p : Peer) : ℕ := p.queue.length + if p.pending.isSome then 1 else 0

def awaitingAck (p : Peer) : Bool := p.pending.isSome

end Peer

structure RxOutcome where
  deliver : Option AircFrame
  transmit : List AircFrame
  duplicate : Bool
  deriving DecidableEq

def RxOutcome.default : RxOutcome := ⟨none, [], false⟩

structure TickOutcome where
  transmit : List (Callsign × AircFrame)
  lost : List Callsign

structure SendOutcome where
  frames : List AircFrame
  accepted : Bool
  deriving DecidableEq

def SendOutcome.dropped : SendOutcome := ⟨[], false⟩

/-! ### Acknowledgements -/

def ackFor (seq : UInt16) : AircFrame := .new .ack seq (toBeBytes seq)

def ackWithBitmap (seq : UInt16) (bitmap : List UInt8) : AircFrame :=
  .new .ack seq (toBeBytes seq ++ bitmap)

def OwedAck.toFrame (o : OwedAck) : AircFrame :=
  match o.bitmap with
  | none => ackFor o.seq
  | some bitmap => ackWithBitmap o.seq bitmap

def oweAck (p : Peer) (seq : UInt16) (bitmap : Option (List UInt8)) : Peer :=
  { p with owedAck := some ⟨seq, bitmap⟩ }

def parseAckPayload : List UInt8 → Option (UInt16 × Option (List UInt8))
  | hi :: lo :: [] => some (fromBeBytes hi lo, none)
  | hi :: lo :: bitmap => some (fromBeBytes hi lo, some bitmap)
  | _ => none

def bitSet (bits : List UInt8) (i : ℕ) : Bool :=
  (bits[i / 8]?).any fun b => b.toNat.testBit (i % 8)

/-- One octet of a bitmap: bit `j` stands for part `base + j`. -/
def bitmapOctet (parts : List (Option (List UInt8))) (base : ℕ) : UInt8 :=
  .ofNat (((List.range 8).map fun j => if (parts[base + j]?).join.isSome then 2 ^ j else 0).sum)

def bitmapFromParts (parts : List (Option (List UInt8))) : List UInt8 :=
  (List.range (max ((parts.length + 7) / 8) 1)).map fun byte => bitmapOctet parts (8 * byte)

/-! ### Fragments -/

/-- `slice::chunks`; the fuel is the length of what is left. -/
def chunksWith (max : ℕ) : ℕ → List UInt8 → List (List UInt8)
  | 0, _ => []
  | fuel + 1, l => if l = [] then [] else l.take max :: chunksWith max fuel (l.drop max)

def chunks (max : ℕ) (l : List UInt8) : List (List UInt8) := chunksWith max l.length l

def chunkPayload (payload : List UInt8) (max : ℕ) (piggy : Bool) : List (List UInt8) :=
  let firstMax := if piggy then Nat.max (max - 2) 1 else max
  if payload.length ≤ firstMax then [payload]
  else payload.take firstMax :: chunks max (payload.drop firstMax)

/-- The fragments of one message; `total` and the indices are octets. -/
def fragments (kind : Kind) (seq : UInt16) (reliable : Bool) (parts : List (List UInt8)) :
    List AircFrame :=
  parts.mapIdx fun i part =>
    { AircFrame.new kind seq part with
      fragIndex := .ofNat i
      fragTotal := .ofNat parts.length
      flags := if reliable then Flags.ackReq else 0 }

/-! ### The message in flight -/

def startPending (p : Peer) (frames : List AircFrame) : Peer × List AircFrame :=
  ({ p with pending := some ⟨frames, frames.map fun _ => false, 0, none⟩ }, frames)

/-- The in-flight message is done; the next one of the queue goes out. -/
def releasePending (p : Peer) : Peer × List AircFrame :=
  match p.queue with
  | [] => ({ p with pending := none }, [])
  | next :: queue => startPending { p with queue := queue } next

def Pending.seq? (p : Pending) : Option UInt16 := p.frames.head?.map AircFrame.seq

def Pending.mark (p : Pending) (bits : List UInt8) : Pending :=
  { p with acked := p.acked.mapIdx fun i flag => flag || bitSet bits i }

def retryFrame (f : AircFrame) : AircFrame := { f with flags := f.flags ||| Flags.retry }

/-- The fragments not reported received, marked as retries. -/
def Pending.missing (p : Pending) : List AircFrame :=
  (p.frames.zipIdx.filter fun e => !(p.acked[e.2]?.getD false)).map fun e => retryFrame e.1

/-- Whether an acknowledgement completes a message. -/
def Pending.completedBy (p : Pending) (bitmap : Option (List UInt8)) : Bool :=
  match bitmap with
  | none => true
  | some bits => (p.mark bits).acked.all fun flag => flag

def applyAck (p : Peer) (seq : UInt16) (bitmap : Option (List UInt8)) : Peer × List AircFrame :=
  match p.pending with
  | none => (p, [])
  | some pending =>
    if pending.seq? ≠ some seq then (p, [])
    else if pending.completedBy bitmap then releasePending p
    else
      let marked := pending.mark (bitmap.getD [])
      if marked.acked = pending.acked then (p, [])
      else
        let pending := { marked with attempts := 0, nextRetry := none }
        ({ p with pending := some pending }, pending.missing)

/-! ### Receiving -/

def whitespace : List (List UInt8) :=
  [[9], [10], [11], [12], [13], [32], [0xC2, 0x85], [0xC2, 0xA0], [0xE1, 0x9A, 0x80]] ++
  (List.range 11).map (fun i => [0xE2, 0x80, .ofNat (0x80 + i)]) ++
  [[0xE2, 0x80, 0xA8], [0xE2, 0x80, 0xA9], [0xE2, 0x80, 0xAF], [0xE2, 0x81, 0x9F],
    [0xE3, 0x80, 0x80]]

def trimStart (ws : List (List UInt8)) : ℕ → List UInt8 → List UInt8
  | 0, s => s
  | fuel + 1, s =>
    match ws.find? (·.isPrefixOf s) with
    | some w => trimStart ws fuel (s.drop w.length)
    | none => s

/-- `str::trim`, on the encoded text. -/
def trim (s : List UInt8) : List UInt8 :=
  let s := trimStart whitespace s.length s
  (trimStart (whitespace.map List.reverse) s.length s.reverse).reverse

def hexDigit (b : UInt8) : Option ℕ :=
  if 48 ≤ b ∧ b ≤ 57 then some (b.toNat - 48)
  else if 65 ≤ b ∧ b ≤ 70 then some (b.toNat - 55)
  else if 97 ≤ b ∧ b ≤ 102 then some (b.toNat - 87)
  else none

/-- `u16::from_str_radix(s, 16)`, which takes a leading plus sign. -/
def parseHex16 (s : List UInt8) : Option UInt16 :=
  let digits := match s with
    | 43 :: rest => rest
    | s => s
  if digits = [] then none
  else match digits.mapM hexDigit with
    | none => none
    | some ds =>
      let v := ds.foldl (fun acc d => acc * 16 + d) 0
      if v < 65536 then some (.ofNat v) else none

def helloEpoch (f : AircFrame) : UInt16 :=
  ((f.field 1).bind fun s => parseHex16 (trim s)).getD 0

def backoff (cfg : SessionConfig) (attempt : ℕ) : ℕ := cfg.ackTimeout * min attempt 4

def rememberSeq (p : Peer) (seq : UInt16) (window : ℕ) : Peer :=
  { p with seen := (p.seen ++ [seq]).drop (p.seen.length + 1 - window) }

/-- A HELLO with a new epoch is a restart of the station. -/
def helloReset (p : Peer) (f : AircFrame) : Peer :=
  if f.kind = .hello ∧ helloEpoch f ≠ p.epoch then
    { p with seen := [], reasm := .empty, pending := none, owedAck := none, queue := []
             epoch := helloEpoch f }
  else p

/-- Room for one more incomplete message: the oldest makes way. -/
def evictReasm (p : Peer) (seq : UInt16) (maxReasm : ℕ) : Table UInt16 Reassembly :=
  if seq ∉ p.reasm.keys ∧ maxReasm ≤ p.reasm.size then
    match p.reasm.leastKey Reassembly.started with
    | some oldest => p.reasm.erase oldest
    | none => p.reasm
  else p.reasm

/-- The buffer a fragment goes to. A buffer for another number of parts is started anew. -/
def bufferFor (reasm : Table UInt16 Reassembly) (f : AircFrame) (now : ℕ) (wantAck : Bool) :
    Reassembly :=
  let fresh : Reassembly :=
    ⟨f.kind, f.flags, List.replicate f.fragTotal.toNat none, now, wantAck⟩
  match reasm.get f.seq with
  | none => fresh
  | some r => if r.parts.length ≠ f.fragTotal.toNat then fresh else r

def storePart (r : Reassembly) (f : AircFrame) (wantAck : Bool) : Reassembly :=
  { r with
    wantAck := r.wantAck || wantAck
    flags := if f.wantsAck then r.flags ||| Flags.ackReq else r.flags
    parts := r.parts.set f.fragIndex.toNat (some f.payload) }

def Reassembly.complete (r : Reassembly) : Bool := r.parts.all Option.isSome

def Reassembly.message (r : Reassembly) (seq : UInt16) : AircFrame :=
  (AircFrame.new r.kind seq (r.parts.filterMap fun part => part).flatten).withFlags r.flags

/-- The buffer a fragment goes to, with the fragment in it. -/
def stored (cfg : SessionConfig) (p : Peer) (f : AircFrame) (now : ℕ) (addressedToUs : Bool) :
    Reassembly :=
  let wantAck := addressedToUs && f.wantsAck
  storePart (bufferFor (evictReasm p f.seq cfg.maxReasm) f now wantAck) f wantAck

/-- Parts are still missing. A retry is told which ones are there. -/
def keepParts (cfg : SessionConfig) (p : Peer) (f : AircFrame) (addressedToUs : Bool)
    (r : Reassembly) : Peer :=
  let p := { p with reasm := (evictReasm p f.seq cfg.maxReasm).set f.seq r }
  if addressedToUs && f.wantsAck && f.has Flags.retry then
    oweAck p f.seq (some (bitmapFromParts r.parts))
  else p

def finishParts (cfg : SessionConfig) (p : Peer) (f : AircFrame) (addressedToUs : Bool)
    (r : Reassembly) : Peer :=
  let reasm := (evictReasm p f.seq cfg.maxReasm).erase f.seq
  let p := rememberSeq { p with reasm := reasm } f.seq cfg.dedupWindow
  if r.wantAck || addressedToUs && (f.wantsAck || r.flags &&& Flags.ackReq != 0) then
    oweAck p f.seq none
  else p

/-- A fragment of a message that has not been delivered. -/
def receiveFragment (cfg : SessionConfig) (p : Peer) (f : AircFrame) (now : ℕ)
    (addressedToUs : Bool) : Peer × Option AircFrame :=
  if cfg.maxPayload < f.payload.length then (p, none)
  else
    let r := stored cfg p f now addressedToUs
    if !r.complete then (keepParts cfg p f addressedToUs r, none)
    else (finishParts cfg p f addressedToUs r, some (r.message f.seq))

/-- Everything but the acknowledgements a frame carries. -/
def receiveMessage (cfg : SessionConfig) (p : Peer) (f : AircFrame) (now : ℕ)
    (addressedToUs : Bool) : Peer × Option AircFrame × Bool :=
  let acked := if addressedToUs && f.wantsAck then oweAck p f.seq none else p
  if f.seq ∈ p.seen then
    if f.kind = .hello then (acked, some f, false) else (acked, none, true)
  else if f.fragTotal = 1 then
    (rememberSeq acked f.seq cfg.dedupWindow, some f, false)
  else
    let (p, deliver) := receiveFragment cfg p f now addressedToUs
    (p, deliver, false)

def applyPiggyback (p : Peer) (f : AircFrame) : Peer × List AircFrame :=
  match f.piggybackSeq with
  | none => (p, [])
  | some seq => applyAck p seq none

def Peer.receive (cfg : SessionConfig) (p : Peer) (f : AircFrame) (now : ℕ)
    (addressedToUs : Bool) : Peer × RxOutcome :=
  let (p, released) := applyPiggyback (helloReset p.noteAirc f) f
  if f.kind = .ack then
    match parseAckPayload f.payload with
    | none => (p, ⟨none, released, false⟩)
    | some (seq, bitmap) =>
      let (p, next) := applyAck p seq bitmap
      (p, ⟨none, released ++ next, false⟩)
  else
    let (p, deliver, duplicate) := receiveMessage cfg p f now addressedToUs
    (p, ⟨deliver, released, duplicate⟩)

/-! ### Sending -/

/-- The acknowledgement a message can carry: a complete one, on a unicast that goes out now. -/
def takePiggyback (cfg : SessionConfig) (p : Peer) (reliable : Bool) : Option UInt16 × Peer :=
  if (!reliable || p.pending.isNone) && reliable && decide (2 < cfg.maxPayload) then
    match p.owedAck with
    | some ⟨seq, none⟩ => (some seq, { p with owedAck := none })
    | _ => (none, p)
  else (none, p)

def restorePiggyback (p : Peer) (piggy : Option UInt16) : Peer :=
  match piggy with
  | some seq => oweAck p seq none
  | none => p

def Peer.enqueue (cfg : SessionConfig) (p : Peer) (seq : UInt16) (kind : Kind)
    (payload : List UInt8) (reliable : Bool) : Peer × SendOutcome :=
  let (piggy, p) := takePiggyback cfg p reliable
  let parts := chunkPayload payload cfg.maxPayload piggy.isSome
  if 255 < parts.length then
    ({ restorePiggyback p piggy with dropped := p.dropped + 1 }, .dropped)
  else
    let frames := fragments kind seq reliable parts
    if !reliable then (p, ⟨frames, true⟩)
    else if p.pending.isSome then
      let p := restorePiggyback p piggy
      if cfg.maxQueue ≤ p.queue.length then ({ p with dropped := p.dropped + 1 }, .dropped)
      else ({ p with queue := p.queue ++ [frames] }, ⟨[], true⟩)
    else
      let (p, out) := startPending p frames
      (p, ⟨match piggy with
        | some acked => out.modifyHead (·.attachPiggyback acked)
        | none => out, true⟩)

/-! ### Timers -/

inductive TickFate where
  | keep
  | lost
  | givingUp
  deriving DecidableEq

def expiredReasm (cfg : SessionConfig) (now : ℕ) (r : Reassembly) : Bool :=
  cfg.reassemblyTimeout ≤ now - r.started

/-- Incomplete messages that took too long. What was received of them is reported. -/
def expireReasm (cfg : SessionConfig) (p : Peer) (now : ℕ) : Peer × List AircFrame :=
  ({ p with reasm := p.reasm.filterMap fun _ r => if expiredReasm cfg now r then none else some r },
    (p.reasm.entries.filter fun e => expiredReasm cfg now e.2 && e.2.wantAck).map fun e =>
      ackWithBitmap e.1 (bitmapFromParts e.2.parts))

def retryPending (cfg : SessionConfig) (pending : Pending) (now : ℕ) : Pending × List AircFrame :=
  let attempts := pending.attempts + 1
  ({ pending with attempts := attempts, nextRetry := some (now + backoff cfg attempts) },
    pending.missing)

/-- A deadline that has passed. -/
def Pending.due (p : Pending) (now : ℕ) : Bool := p.nextRetry.any (· ≤ now)

def Peer.tick (cfg : SessionConfig) (p : Peer) (now : ℕ) (retry : Bool) :
    Peer × List AircFrame × TickFate :=
  let (p, acks) := expireReasm cfg p now
  if cfg.peerIdleTimeout < now - p.lastHeard then (p, acks, .lost)
  else if !retry then (p, acks, .keep)
  else match p.pending with
    | none => (p, acks, .keep)
    | some pending =>
      if !pending.due now then (p, acks, .keep)
      else if cfg.maxRetries ≤ pending.attempts then (p, acks, .givingUp)
      else
        let (pending, frames) := retryPending cfg pending now
        ({ p with pending := some pending }, acks ++ frames, .keep)

/-- The message in flight is abandoned. Without another one the station is given up. -/
def Peer.abandon (p : Peer) : Option (Peer × List AircFrame) :=
  match p.queue with
  | [] => none
  | _ :: _ => some (releasePending { p with dropped := p.dropped + 1 })

def Peer.onKeyed (cfg : SessionConfig) (p : Peer) (seq : UInt16) (now : ℕ) : Peer :=
  match p.pending with
  | none => p
  | some pending =>
    if pending.seq? ≠ some seq then p
    else
      let nextRetry := some (now + backoff cfg (max pending.attempts 1))
      { p with pending := some { pending with nextRetry := nextRetry } }

/-! ### All stations -/

structure Sessions where
  config : SessionConfig
  peers : Table Callsign Peer
  nextSeq : UInt16
  evicted : List Callsign
  radioKicked : List Callsign

namespace Sessions

def new (config : SessionConfig) : Sessions := ⟨config, .empty, 1, [], []⟩

/-- Zero is never drawn. -/
def drawSeq (s : Sessions) : UInt16 × Sessions :=
  (s.nextSeq, { s with nextSeq := if s.nextSeq + 1 = 0 then 1 else s.nextSeq + 1 })

def peer (s : Sessions) (call : Callsign) : Option Peer := s.peers.get call

/-- The record of a station that was just heard, or a new one if there is room. -/
def touched (s : Sessions) (call : Callsign) (now : ℕ) : Option Peer :=
  match s.peers.get call with
  | some p => some { p with lastHeard := now }
  | none => if s.config.maxPeers ≤ s.peers.size then none else some (Peer.new now)

def store (s : Sessions) (call : Callsign) (p : Peer) : Sessions :=
  { s with peers := s.peers.set call p }

/-- A message of ours makes room by dropping the quietest station. -/
def evictPeer (s : Sessions) (call : Callsign) : Sessions :=
  if call ∉ s.peers.keys ∧ s.config.maxPeers ≤ s.peers.size then
    match s.peers.leastKey Peer.lastHeard with
    | some oldest => { s with peers := s.peers.erase oldest, evicted := s.evicted ++ [oldest] }
    | none => s
  else s

def ban (s : Sessions) (call : Callsign) : Sessions :=
  { s with radioKicked := call :: s.radioKicked.filter (· ≠ call) }

def liftBan (s : Sessions) (call : Callsign) : Sessions :=
  { s with radioKicked := s.radioKicked.filter (· ≠ call) }

def isBanned (s : Sessions) (call : Callsign) : Bool := call ∈ s.radioKicked

def forget (s : Sessions) (call : Callsign) : Sessions := { s with peers := s.peers.erase call }

def onReceive (s : Sessions) (src : Callsign) (f : AircFrame) (now : ℕ) (addressedToUs : Bool) :
    Sessions × RxOutcome :=
  match s.touched src now with
  | none => (s, .default)
  | some p =>
    let (p, out) := p.receive s.config f now addressedToUs
    (s.store src p, out)

def drainAcks (s : Sessions) : Sessions × List (Callsign × AircFrame) :=
  ({ s with peers := s.peers.filterMap fun _ p => some { p with owedAck := none } },
    s.peers.entries.filterMap fun e => e.2.owedAck.map fun owed => (e.1, owed.toFrame))

def canAccept (s : Sessions) (dst : Callsign) : Bool :=
  match s.peers.get dst with
  | some p => if p.pending.isSome then p.queue.length < s.config.maxQueue else true
  | none => true

def enqueue (s : Sessions) (dst : Callsign) (kind : Kind) (payload : List UInt8)
    (reliable : Bool) (now : ℕ) : Sessions × SendOutcome :=
  let (seq, s) := s.drawSeq
  if s.config.maxPeers = 0 then (s, .dropped)
  else
    let s := s.evictPeer dst
    match s.touched dst now with
    | none => (s, .dropped)
    | some p =>
      let (p, out) := p.enqueue s.config seq kind payload reliable
      (s.store dst p, out)

/-- A station after both passes of a tick: its record unless it is lost, the frames of the
first pass and those of the second. -/
def ticked (s : Sessions) (now : ℕ) (retry : Bool) (p : Peer) :
    Option Peer × List AircFrame × List AircFrame :=
  match p.tick s.config now retry with
  | (p, frames, .keep) => (some p, frames, [])
  | (_, frames, .lost) => (none, frames, [])
  | (p, frames, .givingUp) =>
    match p.abandon with
    | none => (none, frames, [])
    | some (p, next) => (some p, frames, next)

/-- The first pass times out and retries, the second gives up. -/
def tickRetries (s : Sessions) (now : ℕ) (retry : Bool) : Sessions × TickOutcome :=
  let first := s.peers.entries.flatMap fun e => (s.ticked now retry e.2).2.1.map fun f => (e.1, f)
  let second := s.peers.entries.flatMap fun e => (s.ticked now retry e.2).2.2.map fun f => (e.1, f)
  let fate := fun (e : Callsign × Peer) => (e.2.tick s.config now retry).2.2
  let gone := s.peers.entries.filter fun e => (s.ticked now retry e.2).1.isNone
  ({ s with peers := s.peers.filterMap fun _ p => (s.ticked now retry p).1 },
    ⟨first ++ second,
      ((gone.filter fun e => fate e = .lost) ++ gone.filter fun e => fate e ≠ .lost).map Prod.fst⟩)

def onKeyed (s : Sessions) (dest : Callsign) (seq : UInt16) (now : ℕ) : Sessions :=
  match s.peers.get dest with
  | none => s
  | some p => s.store dest (p.onKeyed s.config seq now)

end Sessions

end AircSession
