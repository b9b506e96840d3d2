import Rfircd.TransitionSystem
import Rfircd.SlidingWindow
import Rfircd.Basics
import Rfircd.AirtimeGovernor
import Rfircd.AirtimeCeilings
import Rfircd.LineFraming
import Rfircd.ClientConnection
import Rfircd.ConnectionCleanup
import Rfircd.TransmitScheduler
import Rfircd.Ax25
import Rfircd.TransmitPump
import Rfircd.TransmitWakeup
import Rfircd.Deferral
import Rfircd.KeyedTable
import Rfircd.Airc
import Rfircd.AircSession
import Rfircd.SessionSteps
import Rfircd.FragmentBuffers
import Rfircd.RetryTimers
import Rfircd.ReliableDelivery
import Rfircd.RecentWindow
import Rfircd.TimedMemory
import Rfircd.AtMostOnce
import Rfircd.Incarnations
import Rfircd.SessionTable
import Rfircd.FifoLedger
import Rfircd.StopAndWait
import Rfircd.BroadcastAcks
import Rfircd.OverheardAcks
import Rfircd.RoundTrip
import Rfircd.Restart
import Rfircd.RadioGateway
import Rfircd.RadioSteps
import Rfircd.Identification
import Rfircd.InFlight
import Rfircd.MessageText
import Rfircd.AirPolicy
import Rfircd.HostKey
import Rfircd.Accounts
import Rfircd.IrcMessage
import Rfircd.IrcState
import Rfircd.HeldMail
import Rfircd.AprsCodec
import Rfircd.AirTrace
import Rfircd.ServerOutput
import Rfircd.AirScreen
import Rfircd.ServerReplies
import Rfircd.ServerCore
import Rfircd.ServerChannels
import Rfircd.ServerAccess
import Rfircd.ServerCommands
import Rfircd.Bridge
import Rfircd.ServerRuns
import Rfircd.OutletSteps
import Rfircd.RadioSessions
import Rfircd.KickMarks
import Rfircd.ServerSteps
import Rfircd.Standing
import Rfircd.ChannelSteps
import Rfircd.AccessSteps
import Rfircd.CommandSteps
import Rfircd.BridgeSteps
import Rfircd.AprsSteps
import Rfircd.EventSteps
import Rfircd.ServerInvariants
import Rfircd.LateResults
import Rfircd.StationRequests
import Rfircd.ChannelModes
import Rfircd.AirContent
import Rfircd.RadioOff
import Rfircd.AckClass
import Rfircd.Dialects
import Rfircd.UnacceptableSources
import Rfircd.StateConsistency
import Rfircd.StationRecords
import Rfircd.KickedStations
import Rfircd.TwoGateways
import Rfircd.StationExpiry
import Rfircd.FragmentSizes
import Rfircd.BacklogAdmission
import Rfircd.Configuration
import Rfircd.FragmentCap
import Rfircd.HandedOver
import Rfircd.FrameLimit
import Rfircd.MailboxConservation
import Rfircd.AprsQueue
import Rfircd.ChannelKicks
import Rfircd.AprsAnswers
import Rfircd.SchedulerRuns
import Rfircd.TokenBucket
import Rfircd.AccountOrder
import Rfircd.AccountBalance
import Rfircd.Ageing
import Rfircd.HalfDuplex
import Rfircd.PublishedBacklog
import Rfircd.KeyedReports
import Rfircd.MessageFlags
import Rfircd.QuietStations
import Rfircd.HelloFragments
import Rfircd.RetransmissionBudget
import Rfircd.AccountPersistence
import Rfircd.ConnectionSlots
import Rfircd.BanLists
import Rfircd.ScreenedText
import Rfircd.FirstContacts
import Rfircd.ChannelStatus
import Rfircd.BridgeControl
import Rfircd.AircCodec
import Rfircd.KissFraming
import Rfircd.Ax25Codec
import Rfircd.LargestFrame
import Rfircd.KeyDownTime
import Rfircd.GovernorWaits
import Rfircd.GovernorQueries
import Rfircd.StationCallsigns
import Rfircd.EnqueueOutcomes
import Rfircd.AddressText
import Rfircd.TextPieces
import Rfircd.Utf8Text
import Rfircd.StableScreening
import Rfircd.LenientAddressees
import Rfircd.CallsignTexts
import Rfircd.AprsRoundTrip
import Rfircd.ReservedNicks
import Rfircd.MessageLines
import Rfircd.RateLimits
import Rfircd.GreedyLines
import Rfircd.MemberNames
import Rfircd.CheckedCode
import Rfircd.CheckedAprs
import Rfircd.CheckedFrames
import Rfircd.CheckedPositions
import Rfircd.BridgedOperators
import Rfircd.CallsignCascade
import Rfircd.CallsignRecords
import Rfircd.CallsignFrames
import Rfircd.CallsignCommands
import Rfircd.CallsignEvents
import Rfircd.CallsignClaims
import Rfircd.CallsignOwners
import Rfircd.GovernorAnswers
import Rfircd.HdlcStuffing
import Rfircd.ModeLines
import Rfircd.RetryAllowance
import Rfircd.SocketAdmission
import Rfircd.ListenOnly
import Rfircd.SilentRefusals
import Rfircd.FieldLists
import Rfircd.AckBitmaps
import Rfircd.GuestNicks
import Rfircd.AuditRecords
import Rfircd.StationDisplay
import Rfircd.NamesReplies
import Rfircd.SharedLog
import Rfircd.VirtualChannel
import Rfircd.TncLink
import Rfircd.StationClient
import Rfircd.SessionOrigins
import Rfircd.StationAuthorship
import Rfircd.StationChat
import Rfircd.Interlock
import Rfircd.AccessFrames
import Rfircd.AccessCommands
import Rfircd.AccessEvents
import Rfircd.EarnedAccess
import Rfircd.StationMemory
import Rfircd.Assembly
import Rfircd.MessageArrival
import Rfircd.HeardOnIrc
import Rfircd.ShownToStations
