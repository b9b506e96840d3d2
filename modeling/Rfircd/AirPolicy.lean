import Mathlib.Algebra.Order.Ring.Unbundled.Rat
import Rfircd.KeyedTable
import Rfircd.MessageText

/-! What may be transmitted: rate limits, permitted stations and the content of a message. -/
namespace AirPolicy

open Basics KeyedTable MessageText

inductive Verdict where
  | allow (text : Text)
  | truncated (text : Text)
  | deny (reason : String)
  deriving DecidableEq

/-! ### Rate limits -/

structure Bucket where
  tokens : ℚ
  last : ℕ

def maxBuckets : ℕ := 4096

structure RateLimiter where
  perMinute : ℕ
  burst : ℕ
  buckets : Table Text Bucket

namespace RateLimiter

def new (perMinute burst : ℕ) : RateLimiter := ⟨perMinute, max burst 1, .empty⟩

/-- A new key takes the place of the one that was used least recently. -/
def makeRoom (r : RateLimiter) (key : Text) : Table Text Bucket :=
  if (r.buckets.get key).isNone ∧ maxBuckets ≤ r.buckets.size then
    match r.buckets.leastKey Bucket.last with
    | some oldest => r.buckets.erase oldest
    | none => r.buckets
  else r.buckets

/-- What a key has at this moment. -/
def available (r : RateLimiter) (key : Text) (now : ℕ) : ℚ :=
  match r.buckets.get key with
  | none => r.burst
  | some b => min (b.tokens + (now - b.last : ℕ) / secs 1 * (r.perMinute / 60)) r.burst

def check (r : RateLimiter) (key : Text) (now : ℕ) : Bool × RateLimiter :=
  let tokens := r.available key now
  let ok := decide (1 ≤ tokens)
  (ok, { r with
    buckets := (r.makeRoom key).set key ⟨if ok then tokens - 1 else tokens, now⟩ })

def expire (r : RateLimiter) (now idle : ℕ) : RateLimiter :=
  { r with buckets := r.buckets.filterMap fun _ b => if now - b.last < idle then some b else none }

end RateLimiter

structure PolicyConfig where
  maxRfTextLen : ℕ
  rfMsgsPerMin : ℕ
  rfBurst : ℕ
  ipToRfMsgsPerMin : ℕ
  ipToRfBurst : ℕ
  blockApparentCiphertext : Bool
  denyCallsigns : List Text
  allowCallsigns : List Text
  rfChannelMsgsPerMin : ℕ
  rfChannelBurst : ℕ
  ipCmdsPerMin : ℕ
  ipCmdBurst : ℕ
  identifyPerMin : ℕ
  identifyBurst : ℕ

structure Policy where
  config : PolicyConfig
  rfOut : RateLimiter
  ipToRf : RateLimiter
  rfChannel : RateLimiter
  ipCmds : RateLimiter
  identify : RateLimiter
  topic : RateLimiter
  presence : RateLimiter
  firstContact : RateLimiter

/-! ### Content -/

/-- At most `n` digits at the front are left out. -/
def skipDigits : ℕ → Text → Text
  | 0, t => t
  | _ + 1, [] => []
  | n + 1, c :: t => if isAsciiDigit c then skipDigits n t else c :: t

/-- A colour code: up to two digits, and up to two more behind a comma. -/
def skipColour (t : Text) : Text :=
  match skipDigits 2 t with
  | ',' :: rest => skipDigits 2 rest
  | t => t

def isFormatting (c : Char) : Bool :=
  c = '\x02' || c = '\x0F' || c = '\x16' || c = '\x1D' || c = '\x1F' || c = '\x04'

/-- What remains of a text behind `out`, which is reversed. -/
def sanitizeFrom : ℕ → Text → Text → Text
  | 0, out, _ | _, out, [] => out.reverse
  | fuel + 1, out, c :: rest =>
    if c = '\x03' then sanitizeFrom fuel out (skipColour rest)
    else if isFormatting c then sanitizeFrom fuel out rest
    else if c = '\r' || c = '\n' || c = '\t' || c = ' ' then
      sanitizeFrom fuel (if out.head? = some ' ' then out else ' ' :: out) rest
    else if isControl c then sanitizeFrom fuel out rest
    else sanitizeFrom fuel (c :: out) rest

def sanitize (text : Text) : Text := trim (sanitizeFrom text.length [] text)

example : sanitize ['\x03', '0', '4', 'r', 'e', 'd', '\x03', ' ', ' ', 't'] =
    ['r', 'e', 'd', ' ', 't'] := by decide

/-- Shannon entropy above 4.2 bits for each character, without logarithms: `n` characters with
counts `k` have more exactly when `2^(21n) * ∏ k^(5k) < n^(5n)`. -/
def entropyAboveLimit (token : Text) : Bool :=
  let n := token.length
  let counts := token.dedup.map fun c => token.count c
  decide (2 ^ (21 * n) * (counts.map fun k => k ^ (5 * k)).prod < n ^ (5 * n))

def containsText (part : Text) (t : Text) : Bool := t.tails.any fun s => part.isPrefixOf s

def looksLikeCiphertext (text : Text) : Bool :=
  let upper := text.map toAsciiUpper
  (containsText "-----BEGIN".toList upper && containsText "MESSAGE".toList upper) ||
    (words text).any fun token =>
      let len := token.length
      let b64ish := (token.filter fun c =>
        isAsciiAlphanumeric c || c = '+' || c = '/' || c = '=').length
      decide (40 ≤ len) && decide (95 ≤ b64ish * 100 / len) &&
        ((token.any isAsciiLower && token.any isAsciiUpper && token.any isAsciiDigit) ||
          entropyAboveLimit token)

namespace Policy

def new (config : PolicyConfig) : Policy where
  config := config
  rfOut := .new config.rfMsgsPerMin config.rfBurst
  ipToRf := .new config.ipToRfMsgsPerMin config.ipToRfBurst
  rfChannel := .new config.rfChannelMsgsPerMin config.rfChannelBurst
  ipCmds := .new config.ipCmdsPerMin config.ipCmdBurst
  identify := .new config.identifyPerMin config.identifyBurst
  topic := .new 6 2
  presence := .new 12 4
  firstContact := .new 10 5

/-- A configured callsign without SSID stands for all of the station's. -/
def lists (calls : List Text) (call : Callsign) : Bool :=
  (calls.filterMap Callsign.fromStr).any fun c =>
    c = call || (c.ssid = 0 && Callsign.sameStation c call)

def stationAllowed (p : Policy) (call : Callsign) : Bool :=
  !lists p.config.denyCallsigns call &&
    (p.config.allowCallsigns.isEmpty || lists p.config.allowCallsigns call)

def rfStationRateOk (p : Policy) (call : Text) (now : ℕ) : Bool × Policy :=
  let (ok, r) := p.rfOut.check call now
  (ok, { p with rfOut := r })

def firstContactOk (p : Policy) (now : ℕ) : Bool × Policy :=
  let (ok, r) := p.firstContact.check ['r', 'f'] now
  (ok, { p with firstContact := r })

def ipRateOk (p : Policy) (key : Text) (now : ℕ) : Bool × Policy :=
  let (ok, r) := p.ipToRf.check key now
  (ok, { p with ipToRf := r })

def rfChannelRateOk (p : Policy) (key : Text) (now : ℕ) : Bool × Policy :=
  let (ok, r) := p.rfChannel.check key now
  (ok, { p with rfChannel := r })

def ipCmdRateOk (p : Policy) (key : Text) (now : ℕ) : Bool × Policy :=
  let (ok, r) := p.ipCmds.check key now
  (ok, { p with ipCmds := r })

def identifyRateOk (p : Policy) (key : Text) (now : ℕ) : Bool × Policy :=
  let (ok, r) := p.identify.check key now
  (ok, { p with identify := r })

def topicRateOk (p : Policy) (channel : Text) (now : ℕ) : Bool × Policy :=
  let (ok, r) := p.topic.check channel now
  (ok, { p with topic := r })

def presenceRateOk (p : Policy) (channel : Text) (now : ℕ) : Bool × Policy :=
  let (ok, r) := p.presence.check channel now
  (ok, { p with presence := r })

def screenOutbound (p : Policy) (text : Text) : Verdict :=
  let cleaned := sanitize text
  if trim cleaned = [] then .deny "message is empty after removing control characters"
  else if p.config.blockApparentCiphertext && looksLikeCiphertext cleaned then
    .deny ("refusing to transmit: the message looks like ciphertext or an armoured blob, " ++
      "and amateur transmissions must not obscure their meaning")
  else if p.config.maxRfTextLen < cleaned.length then
    .truncated (cleaned.take (p.config.maxRfTextLen - 1) ++ ['\u2026'])
  else .allow cleaned

def expire (p : Policy) (now : ℕ) : Policy :=
  { p with
    rfOut := p.rfOut.expire now (secs 3600)
    ipToRf := p.ipToRf.expire now (secs 3600)
    rfChannel := p.rfChannel.expire now (secs 3600)
    ipCmds := p.ipCmds.expire now (secs 3600)
    identify := p.identify.expire now (secs 3600)
    topic := p.topic.expire now (secs 3600)
    presence := p.presence.expire now (secs 3600)
    firstContact := p.firstContact.expire now (secs 3600) }

end Policy

end AirPolicy
