import Readiness.SystemError

namespace Readiness

/-!
# Byte channels

A `Channel` carries bytes one way, from a writing end to a reading end, and never waits. Only the
number of pending bytes matters:

* `write` takes as many bytes as there is room for, and fails with `wouldBlock` when there is none;
* `read` gives as many bytes as are pending, and none at the end of the stream.

A channel that has refused a byte for lack of room takes none until it has been emptied.
-/

/-- A one-way stream of bytes that never waits. -/
structure Channel where
  /-- The bytes written and not yet read. -/
  pending : Nat
  /-- The bytes the channel has room for. -/
  capacity : Nat
  /-- Whether a write was refused for lack of room, and the channel not emptied since. -/
  full : Bool
  /-- Whether the reading end is open. -/
  readerOpen : Bool
  /-- Whether the writing end is open. -/
  writerOpen : Bool
deriving DecidableEq, Inhabited

namespace Channel

/-- A channel that is open at both ends and holds nothing. -/
def ofCapacity (capacity : Nat) : Channel := ⟨0, capacity, false, true, true⟩

/-- The room left. -/
def room (c : Channel) : Nat := if c.full then 0 else c.capacity - c.pending

/-- Writes up to `n` bytes and counts those that were taken. -/
def write (c : Channel) (n : Nat) : Except Int32 Nat × Channel :=
  if !c.readerOpen || !c.writerOpen then (.error Errno.brokenPipe, c)
  else if n = 0 then (.ok 0, c)
  else if c.room = 0 then (.error Errno.wouldBlock, { c with full := true })
  else
    let taken := min n c.room
    (.ok taken, { c with pending := c.pending + taken, full := taken = c.room })

/-- Reads up to `n` bytes and counts them; none are left at the end of the stream. -/
def read (c : Channel) (n : Nat) : Except Int32 Nat × Channel :=
  if c.pending = 0 then
    if c.writerOpen && n ≠ 0 then (.error Errno.wouldBlock, c) else (.ok 0, c)
  else
    let taken := min n c.pending
    (.ok taken, { c with pending := c.pending - taken, full := c.full && taken < c.pending })

/-- Whether a write would find room. -/
def hasRoom (c : Channel) : Bool := c.room ≠ 0

/-- Whether a read would find bytes. -/
def hasBytes (c : Channel) : Bool := c.pending ≠ 0

/-- Closes the reading end; what is pending is lost. -/
def closeReader (c : Channel) : Channel :=
  { c with pending := 0, full := false, readerOpen := false }

/-- Closes the writing end; what is pending can still be read. -/
def closeWriter (c : Channel) : Channel := { c with writerOpen := false }

end Channel

end Readiness
