import Readiness.Buffer
import Readiness.SystemError

namespace Readiness

/-!
# Errors of a collector

The causes an operation can fail for, each with its message. `Error.toSystemError` reports any of
them as a system error. A `Misuse` is a request that makes no sense, whatever the system does.
-/

/-! ### Misuse -/

/-- A request that can never be met. -/
inductive Misuse where
  /-- A time unit without ticks. -/
  | noTicks
  /-- A buffer that takes too many bytes. -/
  | oversizedBuffer
  /-- An error number that no system call reports. -/
  | unreportedErrno
deriving DecidableEq, Inhabited

/-- What is shown to a user. -/
def Misuse.message : Misuse → String
  | .noTicks => "a time unit needs at least one tick per second"
  | .oversizedBuffer => "capacity overflow"
  | .unreportedErrno => "assertion failed: encoded >= 0xf001"

/-! ### Failures -/

/-- Why an operation failed. -/
inductive Error where
  /-- The token names no live watch of this collector. -/
  | invalidToken
  /-- More was reported in one iteration than the buffer holds. -/
  | bufferFull (overflow : Overflow)
  /-- Writing to the wake descriptor failed, and not because the pipe was full. -/
  | wake (source : SystemError)
  /-- The poller failed. -/
  | io (source : SystemError)
deriving DecidableEq, Inhabited

namespace Error

/-- The error of a system call that failed and reported `n`. -/
def ofErrno (n : Int32) : Except Misuse Error :=
  match Errno.ofReport? n with
  | none => .error .unreportedErrno
  | some errno => .ok (.io (.os errno))

/-- What is shown to a user. -/
def message : Error → String
  | .invalidToken => "invalid watch token provided to the event base"
  | .bufferFull o =>
    s!"max events fired on fd({o.fd.toInt}): buffer holds {o.capacity} records"
  | .wake _ => "failed to signal the wake descriptor"
  | .io _ => "underlying IO error"

/-- The system error behind an error. -/
def source? : Error → Option SystemError
  | .wake e | .io e => some e
  | .invalidToken | .bufferFull _ => none

/-- An error as a system error: that of the poller itself, any other wrapped with its class. -/
def toSystemError : Error → SystemError
  | .io e => e
  | .wake e => .custom e.kind e.text
  | .invalidToken => .custom .invalidInput (message .invalidToken)
  | .bufferFull o => .custom .outOfMemory (message (.bufferFull o))

end Error

end Readiness
