import Readiness.Channel
import Readiness.Descriptor
import Readiness.OrderedMap
import Readiness.Poller.Table

namespace Readiness

/-!
# Descriptors of a machine

A `Machine` knows the open descriptors and the channels behind them. A descriptor is the end of a
pipe, one of two connected sockets, or the null device.

* `read`, `write`, `shutdown` and `close` act on a descriptor;
* `signals` says what a poller can see of it: input, room for output, hang-up, error.

A closed descriptor is not open any more, so every later use of it fails.
-/

/-- What stands behind a descriptor; channels are given by their number. -/
inductive Endpoint where
  /-- The reading end of a pipe. -/
  | reader (channel : Nat)
  /-- The writing end of a pipe. -/
  | writer (channel : Nat)
  /-- A socket: the channel its peer writes, and the one it writes itself. -/
  | socket (incoming outgoing : Nat)
  /-- A device open for reading that holds nothing and cannot be polled. -/
  | nullDevice
deriving DecidableEq, Inhabited

/-- The open descriptors and the channels between them. -/
structure Machine where
  /-- All channels, by number. -/
  channels : List Channel
  /-- The open descriptors. -/
  endpoints : OrderedMap Fd Endpoint

namespace Machine

open Poller (Signals)

/-- The bytes a pipe has room for. -/
def pipeCapacity : Nat := 65536

/-- The bytes one direction of a socket has room for. -/
def socketCapacity : Nat := 212992

/-- The machine without descriptors. -/
def empty : Machine := ⟨[], ∅⟩

/-- Opens a pipe. -/
def openPipe (m : Machine) (reader writer : Fd) : Machine where
  channels := m.channels ++ [.ofCapacity pipeCapacity]
  endpoints := (m.endpoints.insert reader (.reader m.channels.length)).insert writer
    (.writer m.channels.length)

/-- Opens two connected sockets. -/
def openSockets (m : Machine) (left right : Fd) : Machine where
  channels := m.channels ++ [.ofCapacity socketCapacity, .ofCapacity socketCapacity]
  endpoints :=
    (m.endpoints.insert left (.socket m.channels.length (m.channels.length + 1))).insert right
      (.socket (m.channels.length + 1) m.channels.length)

/-- Opens the null device. -/
def openNull (m : Machine) (fd : Fd) : Machine :=
  { m with endpoints := m.endpoints.insert fd .nullDevice }

/-! ### Look-ups -/

/-- What stands behind an open descriptor. -/
def endpoint? (m : Machine) (fd : Fd) : Option Endpoint := m.endpoints.find? fd

/-- Whether a descriptor is open. -/
def isOpen (m : Machine) (fd : Fd) : Bool := (m.endpoint? fd).isSome

/-- The channel with number `i`. -/
def channel (m : Machine) (i : Nat) : Channel := m.channels.getD i default

/-- The channel an endpoint reads from. -/
def inputOf? : Endpoint → Option Nat
  | .reader i => some i
  | .socket i _ => some i
  | .writer _ | .nullDevice => none

/-- The channel an endpoint writes to. -/
def outputOf? : Endpoint → Option Nat
  | .writer i => some i
  | .socket _ o => some o
  | .reader _ | .nullDevice => none

/-- The bytes pending for a descriptor. -/
def pending (m : Machine) (fd : Fd) : Nat :=
  match (m.endpoint? fd).bind inputOf? with
  | some i => (m.channel i).pending
  | none => 0

/-- What a poller can see of an endpoint. -/
def endpointSignals (m : Machine) : Endpoint → Signals
  | .reader i =>
    let c := m.channel i
    ⟨c.hasBytes, false, !c.writerOpen, false⟩
  | .writer i =>
    let c := m.channel i
    ⟨false, c.hasRoom, false, !c.readerOpen⟩
  | .socket i o =>
    let a := m.channel i
    let b := m.channel o
    ⟨a.hasBytes || !a.writerOpen, b.hasRoom || !b.readerOpen,
      !b.readerOpen || (!a.writerOpen && !b.writerOpen), false⟩
  | .nullDevice => ⟨true, true, false, false⟩

/-- What a poller can see of an open descriptor. -/
def signals? (m : Machine) (fd : Fd) : Option Signals := (m.endpoint? fd).map m.endpointSignals

/-- Whether a poller accepts a descriptor: the null device is always ready and cannot be waited
    for. -/
def isPollable (m : Machine) (fd : Fd) : Bool := m.endpoint? fd ≠ some .nullDevice

/-! ### Input and output -/

/-- Lets `f` act on the channel with number `i`. -/
def onChannel {α : Type} (m : Machine) (i : Nat) (f : Channel → α × Channel) : α × Machine :=
  let (a, c) := f (m.channel i)
  (a, { m with channels := m.channels.set i c })

/-- Writes up to `n` bytes to a descriptor and counts those that were taken. -/
def write (m : Machine) (fd : Fd) (n : Nat) : Except Int32 Nat × Machine :=
  match m.endpoint? fd with
  | some (.writer i) =>
    -- A pipe takes nothing even when nobody is left to read it; a socket does not.
    if n = 0 then (.ok 0, m) else m.onChannel i fun c => c.write n
  | some (.socket _ i) => m.onChannel i fun c => c.write n
  | some (.reader _) | some .nullDevice | none => (.error Errno.badDescriptor, m)

/-- Reads up to `n` bytes from a descriptor and counts them. Reading no bytes always goes well. -/
def read (m : Machine) (fd : Fd) (n : Nat) : Except Int32 Nat × Machine :=
  match m.endpoint? fd with
  | none => (.error Errno.badDescriptor, m)
  | some e =>
    if n = 0 then (.ok 0, m)
    else match e with
      | .reader i | .socket i _ => m.onChannel i fun c => c.read n
      | .writer _ => (.error Errno.badDescriptor, m)
      | .nullDevice => (.ok 0, m)

/-- Reads all that is pending on a descriptor. -/
def discard (m : Machine) (fd : Fd) : Machine := (m.read fd (m.pending fd)).2

/-- Writes to a descriptor until it refuses. -/
def fill (m : Machine) (fd : Fd) : Machine :=
  match (m.endpoint? fd).bind outputOf? with
  | some i => (m.write fd (m.channel i).room).2
  | none => m

/-- Lets no further bytes be written to a socket; nothing else can be shut down. -/
def shutdown (m : Machine) (fd : Fd) : Except Int32 Unit × Machine :=
  match m.endpoint? fd with
  | some (.socket _ o) => m.onChannel o fun c => (.ok (), c.closeWriter)
  | some (.reader _) | some (.writer _) | some .nullDevice => (.error Errno.notSocket, m)
  | none => (.error Errno.badDescriptor, m)

/-- Closes a descriptor; what was pending for it is lost. -/
def close (m : Machine) (fd : Fd) : Machine :=
  match m.endpoint? fd with
  | none => m
  | some p =>
    let m := match inputOf? p with
      | some i => (m.onChannel i fun c => ((), c.closeReader)).2
      | none => m
    let m := match outputOf? p with
      | some o => (m.onChannel o fun c => ((), c.closeWriter)).2
      | none => m
    { m with endpoints := m.endpoints.erase fd }

end Machine

end Readiness
