import EcLink.Tally
import EcLink.Instant
import EcLink.Status
import EcLink.Hex
import EcLink.Frame
import EcLink.Command
import EcLink.Payload
import EcLink.Config
import EcLink.Outcome
import EcLink.RequestError
import EcLink.Directory
import EcLink.Board
import EcLink.Clocked
import EcLink.Traced
import EcLink.RegisterBlock
import EcLink.Notice
import EcLink.Terminal
import EcLink.Journal
import EcLink.Transaction
import EcLink.Link
import EcLink.Dialogue
import EcLink.Channel
import EcLink.SystemRequest
import EcLink.Peripherals
import EcLink.Host
import EcLink.ScanCode
import EcLink.KeyQueue
import EcLink.Keyboard
import EcLink.Operation
import EcLink.MasterScript
import EcLink.ScriptedBus
import EcLink.StandIn
import EcLink.Desk
import EcLink.Panel
import EcLink.Probe
import EcLink.Workbench
import EcLink.Proofs.Moves
import EcLink.Proofs.Observation
import EcLink.Proofs.Attempts
import EcLink.Proofs.RequestAccounting
import EcLink.Proofs.Deliveries
import EcLink.Proofs.ResponseAttribution
import EcLink.Proofs.EventConservation
import EcLink.Proofs.EventDispatch
import EcLink.Proofs.Playback
import EcLink.Proofs.PlayedTransactions
import EcLink.Proofs.ScriptedLink
import EcLink.Proofs.TransactionOutcomes
import EcLink.Proofs.Reactions
import EcLink.Proofs.Calls
import EcLink.Proofs.RequestReading
import EcLink.Proofs.FrameBytes
import EcLink.Proofs.LinkUse
import EcLink.Proofs.StartUp
import EcLink.Proofs.BringUpOrder
import EcLink.Proofs.StartUpEvents
import EcLink.Proofs.EventSources
import EcLink.Proofs.StartUpRequests
import EcLink.Proofs.PromptTraffic
import EcLink.Proofs.RequestRoundTrip
import EcLink.Proofs.EventRounds
import EcLink.Proofs.KeyDelivery
import EcLink.Proofs.BusTraffic
import EcLink.Proofs.OwnTransactions
import EcLink.Proofs.RequestLine
import EcLink.Proofs.Lockstep
import EcLink.Proofs.BoardShift
import EcLink.Proofs.ConsoleChoice
import EcLink.Proofs.TransactionStops
import EcLink.Proofs.Leftovers
import EcLink.Proofs.ClockOrigin
import EcLink.Proofs.TimeLimit
import EcLink.Proofs.KeyFifo
import EcLink.Proofs.Registrations
import EcLink.Proofs.NonBlockingCalls
import EcLink.Proofs.Coherence
import EcLink.Proofs.PayloadChecks
import EcLink.Proofs.PollingBounds
