import Readiness.Error

namespace Readiness

/-!
# Log lines

What a collector and a wake pipe report about their work. A `LogEntry` is the cause; `LogEntry.line`
is the line that is written for it.
-/

/-- How important a log line is. -/
inductive LogLevel where
  | warn
  | debug
  | trace
deriving DecidableEq, Inhabited

/-- The name of a level. -/
def LogLevel.name : LogLevel → String
  | .warn => "WARN"
  | .debug => "DEBUG"
  | .trace => "TRACE"

/-- Something worth a log line. -/
inductive LogEntry where
  /-- The poller has no level mode; one-shot registrations take its place. -/
  | emulatingLevel
  /-- A collector with this capacity was made. -/
  | created (capacity : Nat)
  /-- A watch was added. -/
  | watching (fd : Fd) (mask : Mask)
  /-- A watch was removed. -/
  | unwatching (fd : Fd)
  /-- The buffer was replaced. -/
  | resizing (old new : Nat)
  /-- The hook called a wait off. -/
  | calledOff
  /-- The wake pipe was emptied of this many bytes. -/
  | drained (bytes : Nat)
  /-- The wake pipe could not be read. -/
  | drainFailed (source : SystemError)
  /-- An iteration ended with this many records. -/
  | reported (count : Nat)
deriving DecidableEq, Inhabited

namespace LogEntry

/-- The level an entry is logged at. -/
def level : LogEntry → LogLevel
  | .emulatingLevel | .created _ | .watching _ _ | .unwatching _ | .resizing _ _ => .debug
  | .calledOff | .drained _ | .reported _ => .trace
  | .drainFailed _ => .warn

/-- What an entry says. -/
def text : LogEntry → String
  | .emulatingLevel => "Emulating level-triggered registrations"
  | .created n => s!"Created event base with room for {n} events"
  | .watching fd mask => s!"Watching fd({fd.toInt}) for {mask.text}"
  | .unwatching fd => s!"Removing watch on fd({fd.toInt})"
  | .resizing old new => s!"Resizing event buffer from {old} to {new} events"
  | .calledOff => "Wait interrupted before it started"
  | .drained n => s!"Drained {n} wake bytes"
  | .drainFailed e => s!"Failed to drain wake fd: {e.debugText}"
  | .reported n => s!"Iteration reported {n} events"

/-- The line written for an entry. -/
def line (e : LogEntry) : String := s!"{e.level.name} [fibers-poll] {e.text}"

end LogEntry

end Readiness
