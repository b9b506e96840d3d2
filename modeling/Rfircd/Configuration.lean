import Rfircd.ServerOutput

/-! The checks of the configuration file.
The callsigns of the radio section are parsed already; certificates and the modem's own file are
not read here. -/
namespace Configuration

open Basics MessageText HostKey IrcMessage AirtimeGovernor TransmitPump AirPolicy RadioGateway
open ServerOutput

structure InterlockConfig where
  command : Text
  intervalSecs : ℕ
  timeoutSecs : ℕ

/-- The settings of the server, and what only the checks read. -/
structure Config where
  server : ServerConfig
  pingIntervalSecs : ℕ
  loopbackBind : Bool
  loopbackTnc : Bool
  allowNonstandardBaud : Bool
  interlock : Option InterlockConfig

def standardPacketBauds : List ℕ := [300, 1200, 9600]

def toAirtime (duty : DutyConfig) : AirtimeConfig where
  enabled := duty.enabled
  baud := max duty.baud 1
  txdelay := millis duty.txdelayMs
  txtail := millis duty.txtailMs
  window := secs (max duty.windowSecs 1)
  maxDuty := min duty.maxDutyPercent 100 / 100
  maxContinuous := secs (max duty.maxContinuousSecs 1)
  cooldown := secs duty.cooldownSecs
  hourlyBudget := secs duty.hourlyAirtimeSecs
  maxHold := secs (max duty.maxHoldSecs 1)
  stuffing := 21 / 20

/-- `paclen` is the information field; a header with eight digipeaters goes on top of it. -/
def tncFromConfig (cfg : ServerConfig) : TncConfig where
  maxFrame := cfg.radio.sessions.paclen + 64
  txPacing := millis cfg.txPacingMs
  txQueueDepth := 64
  airtime := toAirtime cfg.duty

/-! ### Checks -/

def require (ok : Bool) (message : Text) : Except Text Unit :=
  if ok then .ok () else .error message

/-- Seconds with one decimal. -/
def tenths (duration : ℚ) : Text :=
  let n := AirtimeConfig.roundTiesEven (duration * 10 / secs 1)
  (toString (n / 10)).toList ++ '.' :: (toString (n % 10)).toList

def checkOperNames : List Text → List OperConfig → Except Text Unit
  | _, [] => .ok ()
  | seen, o :: opers => do
    require (decide (trim o.name ≠ [])) "[[opers]] name must not be empty".toList
    require (decide (lower o.name ∉ seen)) ("duplicate [[opers]] name \x60".toList ++ o.name ++
      "\x60 (IRC casemapping; the last entry would silently win)".toList)
    checkOperNames (lower o.name :: seen) opers

def checkOperPasswords (opers : List OperConfig) (loopbackBind : Bool) : Except Text Unit :=
  let plaintext := (opers.filter fun o => !o.hashed).length
  require (decide (plaintext = 0) || loopbackBind) (natText plaintext ++
    (" [[opers]] password(s) are plaintext and listen.bind is not loopback-only. Hash them " ++
      "(\x60rfircd --hash-password\x60) or bind only to 127.0.0.1 / ::1. OPER with a password in " ++
      "the clear on a public address is control of the transmitter.").toList)

/-- Names that differ in case only are one channel. -/
def checkChannels : List Text → List ChannelConfig → Except Text Unit
  | _, [] => .ok ()
  | seen, ch :: channels => do
    require (isChannelName ch.name) ("invalid channel name: ".toList ++ ch.name)
    require (decide (lower ch.name ∉ seen.map lower)) ("channels ".toList ++
      (seen.find? fun first => lower first = lower ch.name).getD [] ++ " and ".toList ++ ch.name ++
      (" are the same channel: names are compared case-insensitively, " ++
        "so only one of them would exist").toList)
    checkChannels (ch.name :: seen) channels

def checkServer (c : Config) : Except Text Unit := do
  let cfg := c.server
  require (decide (trim cfg.name ≠ [])) "server.name must be set".toList
  require (decide (c.pingIntervalSecs ≠ 0))
    "listen.ping_interval_secs must be at least 1 (0 panics the connection task)".toList
  require (decide (cfg.registrationTimeoutSecs ≠ 0))
    "listen.registration_timeout_secs must be at least 1".toList
  require (decide (cfg.identifyTimeoutSecs ≠ 0))
    ("accounts.identify_timeout_secs must be at least 1 " ++
      "(0 releases the nick on the next tick)").toList
  checkOperNames [] cfg.opers
  require (decide (cfg.maxNickLen ≠ 0))
    "server.max_nick_len must be at least 1, or no nickname is valid".toList
  require (decide (cfg.maxChannelsPerUser ≠ 0))
    "server.max_channels_per_user must be at least 1, or nobody can join anything".toList
  require (decide (cfg.minPasswordLen ≠ 0))
    ("accounts.min_password_len must be at least 1: an empty password on a nick that a control " ++
      "operator can grant RF-TX to is not a password").toList
  require (decide (cfg.policy.maxRfTextLen ≠ 0))
    ("policy.max_rf_text_len must be at least 1, or every radiated message is truncated " ++
      "to nothing").toList
  checkOperPasswords cfg.opers c.loopbackBind
  checkChannels [] cfg.channels

def checkInterlock : Option InterlockConfig → Except Text Unit
  | none => .ok ()
  | some i => do
    require (decide (trim i.command ≠ [])) "radio.interlock.command must be set".toList
    require (decide (i.intervalSecs ≠ 0 ∧ i.timeoutSecs ≠ 0))
      "radio.interlock interval_secs and timeout_secs must be at least 1".toList
    require (decide (i.timeoutSecs < i.intervalSecs)) ("radio.interlock.timeout_secs (".toList ++
      natText i.timeoutSecs ++ ") must be less than interval_secs (".toList ++
      natText i.intervalSecs ++ "), or checks would overlap".toList)

def checkAprsChannel (cfg : ServerConfig) : Except Text Unit :=
  if cfg.aprsChannel = [] then .ok ()
  else do
    require (isChannelName cfg.aprsChannel) ("radio.aprs_channel (".toList ++ cfg.aprsChannel ++
      ") is not a channel name".toList)
    require (cfg.channels.any fun ch => ch.rf && decide (lower ch.name = lower cfg.aprsChannel))
      ("radio.aprs_channel (".toList ++ cfg.aprsChannel ++
        ") must be a configured channel with rf = true".toList)

def checkRadio (c : Config) : Except Text Unit := do
  let radio := c.server.radio
  require (radio.gateway.any Callsign.looksLikeAmateurCall)
    ("radio.callsign: callsign has no digit or is otherwise implausible: ".toList ++
      radio.gateway.elim [] callText)
  require (decide (radio.path.length ≤ 2))
    "radio.path: more than two digipeater hops is antisocial".toList
  require (decide (radio.idInterval ≠ 0 ∧ radio.idInterval ≤ secs 600))
    ("radio.id_interval_secs must be between 1 and 600; an automatically transmitting station " ++
      "has to identify at least every 10 minutes").toList
  require (decide (32 ≤ radio.sessions.paclen ∧ radio.sessions.paclen ≤ 256))
    "radio.paclen must be between 32 and 256".toList
  require (decide (radio.sessions.maxPeers ≠ 0)) "radio.max_peers must be at least 1".toList
  require (decide (c.server.maxRfFragments ≠ 0))
    "policy.max_rf_fragments must be at least 1".toList
  require (decide (radio.maxQueuedAirtime ≠ 0))
    "radio.max_queued_airtime_secs must be at least 1".toList
  checkInterlock c.interlock
  require (c.server.channels.any ChannelConfig.rf)
    "radio.enabled is true but no channel has rf = true".toList
  checkAprsChannel c.server

/-- A frame the governor can never fit inside its own allowance would be deferred until it is
dropped, for ever. -/
def checkBiggest (duty : DutyConfig) (biggest : ℕ) : Except Text Unit := do
  let air := toAirtime duty
  let allowance : ℚ := air.window * air.effectiveDuty
  require (decide ((biggest : ℚ) ≤ allowance)) ("radio.duty: a full-length frame is ".toList ++
    tenths biggest ++ "s of airtime but the duty allowance is only ".toList ++ tenths allowance ++
    "s per ".toList ++ natText (air.window / secs 1) ++ ("s window; raise max_duty_percent or " ++
      "window_secs, or lower paclen — otherwise nothing would ever be transmitted").toList)
  require (decide (biggest ≤ air.maxContinuous)) ("radio.duty: a full-length frame is ".toList ++
    tenths biggest ++ "s of airtime but max_continuous_secs is ".toList ++
    natText duty.maxContinuousSecs ++ ("; a single frame would exceed the continuous-run limit. " ++
      "Raise max_continuous_secs or lower paclen.").toList)
  require (decide (air.hourlyBudget = 0 ∨ biggest ≤ air.hourlyBudget))
    "radio.duty.hourly_airtime_secs is smaller than a single full-length frame".toList

def checkKeying (name : Text) (ms : ℕ) : Except Text Unit :=
  require (decide (ms ≤ 2550)) ("radio.duty.".toList ++ name ++ " is ".toList ++ natText ms ++
    " ms; KISS carries it in 10 ms units in one octet, so the maximum is 2550".toList)

/-- Only a loopback may go without limits. -/
def checkDuty (c : Config) : Except Text Unit :=
  let duty := c.server.duty
  if !duty.enabled then
    require c.loopbackTnc ("radio.duty.enabled = false with a real transmitter: there would be " ++
      "nothing limiting how long the finals are keyed. It is only allowed with " ++
      "radio.tnc.kind = \"loopback\".").toList
  else do
    require (decide (duty.maxDutyPercent ≠ 0 ∧ duty.maxDutyPercent ≤ 50))
      ("radio.duty.max_duty_percent must be between 1 and 50. A transceiver keyed for more than " ++
        "half the time cooks its finals, and an automatically controlled station has nobody " ++
        "watching it.").toList
    require (decide (duty.windowSecs ≠ 0)) "radio.duty.window_secs must be at least 1".toList
    require (decide (duty.maxContinuousSecs ≠ 0))
      "radio.duty.max_continuous_secs must be at least 1".toList
    require (decide (duty.baud ≠ 0)) "radio.duty.baud must be at least 1".toList
    require (c.allowNonstandardBaud || decide (duty.baud ∈ standardPacketBauds))
      ("radio.duty.baud is ".toList ++ natText duty.baud ++ ("; the packet rates this station " ++
        "will price without an override are 300 (HF), 1200 (VHF FM) and 9600. A wrong baud rate " ++
        "makes the governor under-count key-down time and will cook a QMX. Set " ++
        "allow_nonstandard_baud = true only if you mean it.").toList)
    require (decide (c.server.txPacingMs ≠ 0) || c.loopbackTnc)
      ("radio.tnc.tx_pacing_ms is 0 on a real transmitter: frames would be handed to the TNC " ++
        "back-to-back aside from the duty governor. Use loopback for tests, or set a gap " ++
        "(2500 ms is the QMX starting point).").toList
    checkKeying "txdelay_ms".toList duty.txdelayMs
    checkKeying "txtail_ms".toList duty.txtailMs
    (toAirtime duty).checkHardwareSafe.mapError fun e => "radio.duty: ".toList ++ e.toList
    checkBiggest duty ((Governor.new (toAirtime duty)).airtimeFor
      (c.server.radio.sessions.paclen + 64))

def checkCallsigns : List Text → Except Text Unit
  | [] => .ok ()
  | call :: calls => do
    require (Callsign.fromStr call).isSome ("policy callsign ".toList ++ call)
    checkCallsigns calls

def validate (c : Config) : Except Text Unit := do
  checkServer c
  if c.server.radio.enabled then
    checkRadio c
    checkDuty c
    checkCallsigns (c.server.policy.denyCallsigns ++ c.server.policy.allowCallsigns)

/-! ### What an accepted configuration promises -/

@[simp] theorem require_eq_ok {ok : Bool} {message : Text} :
    require ok message = .ok () ↔ ok = true := by
  unfold require
  cases ok <;> simp

/-- A check that fails ends the rest. -/
theorem bind_eq_ok {x : Except Text Unit} {f : Unit → Except Text Unit} :
    (x >>= f) = .ok () ↔ x = .ok () ∧ f () = .ok () := by
  rcases x with e | ⟨⟩
  · simp [bind, Except.bind]
  · simp [bind, Except.bind]

/-- A configuration with a radio that passed the checks. -/
structure Accepted (c : Config) : Prop where
  valid : validate c = .ok ()
  radio : c.server.radio.enabled = true

variable {c : Config}

theorem Accepted.checks (h : Accepted c) :
    checkServer c = .ok () ∧ checkRadio c = .ok () ∧ checkDuty c = .ok () := by
  have hvalid := h.valid
  simp only [validate, h.radio, if_true, bind_eq_ok] at hvalid
  exact ⟨hvalid.1, hvalid.2.1, hvalid.2.2.1⟩

theorem Accepted.server (h : Accepted c) :
    c.server.maxNickLen ≠ 0 ∧ c.server.policy.maxRfTextLen ≠ 0 := by
  have hserver := h.checks.1
  simp only [checkServer, bind_eq_ok, require_eq_ok, decide_eq_true_eq] at hserver
  obtain ⟨-, -, -, -, -, hnick, -, -, htext, -⟩ := hserver
  exact ⟨hnick, htext⟩

/-- What the transmit side relies on. -/
structure Radiable (cfg : ServerConfig) : Prop where
  path : cfg.radio.path.length ≤ 2
  paclen : 32 ≤ cfg.radio.sessions.paclen ∧ cfg.radio.sessions.paclen ≤ 256
  peers : cfg.radio.sessions.maxPeers ≠ 0
  fragments : cfg.maxRfFragments ≠ 0

theorem Accepted.radiable (h : Accepted c) : Radiable c.server := by
  have hradio := h.checks.2.1
  simp only [checkRadio, bind_eq_ok, require_eq_ok, decide_eq_true_eq] at hradio
  obtain ⟨-, hpath, -, hpaclen, hpeers, hfragments, -⟩ := hradio
  exact ⟨hpath, hpaclen, hpeers, hfragments⟩

end Configuration
