import Readiness.Mask
import Readiness.Descriptor
import Readiness.LittleEndian
import Readiness.OrderedMap
import Readiness.Slots
import Readiness.Event
import Readiness.Time.Duration
import Readiness.Time.TimeUnit
import Readiness.Time.Timeout
import Readiness.SystemError.Kind
import Readiness.SystemError.Errno
import Readiness.SystemError
import Readiness.Record
import Readiness.Buffer
import Readiness.Error
import Readiness.Log
import Readiness.Registry
import Readiness.Delivery
import Readiness.Host
import Readiness.Collector
import Readiness.Channel
import Readiness.Wake
import Readiness.Machine
import Readiness.Poller.Table
import Readiness.Poller.Script
import Readiness.Scenario.World
import Readiness.Scenario.Command
import Readiness.Scenario.Session
import Readiness.Proofs.Registry.Roll
import Readiness.Proofs.Iteration
import Readiness.Proofs.History
import Readiness.Proofs.Registry.Consistency
import Readiness.Proofs.Roster
import Readiness.Proofs.Trace
import Readiness.Proofs.Erasure
import Readiness.Proofs.FanOut
import Readiness.Proofs.Registry.Armed
import Readiness.Proofs.Poller.View
import Readiness.Proofs.Poller.Settled
import Readiness.Proofs.Poller.Registrations
import Readiness.Proofs.Poller.Polled
import Readiness.Proofs.Tokens
import Readiness.Proofs.Deposits
import Readiness.Proofs.Chronicle
import Readiness.Proofs.Poller.Rearming
import Readiness.Proofs.Roster.Leftover
import Readiness.Proofs.Recovery
import Readiness.Proofs.Poller.Obedient
import Readiness.Proofs.Poller.Reliable
import Readiness.Proofs.Poller.Emulation
import Readiness.Proofs.Course
import Readiness.Proofs.Wake.Drain
import Readiness.Proofs.Wake.Accounting
import Readiness.Proofs.Poller.Attentive
import Readiness.Proofs.Wake.Arrival
import Readiness.Proofs.Isolation
import Readiness.Proofs.Poller.Conduct
import Readiness.Proofs.ReportOrder
import Readiness.Proofs.HookBracket
import Readiness.Proofs.Waits
import Readiness.Proofs.Blocking
import Readiness.Proofs.Removal
import Readiness.Proofs.Registry.Renumbered
import Readiness.Proofs.Refusal
import Readiness.Proofs.Sizing
import Readiness.Proofs.Wake.Stripping
import Readiness.Proofs.FailedWait
import Readiness.Proofs.Buffer.Wiped
import Readiness.Proofs.Time.Conversion
import Readiness.Proofs.Buffer.InPlace
import Readiness.Proofs.Buffer.Shelf
import Readiness.Proofs.Buffer.Arena
import Readiness.Proofs.Buffer.Bytes
import Readiness.Proofs.Wake.Machine
