import Readiness.SystemError.Errno

namespace Readiness

/-!
# System errors

A `SystemError` either carries an error number of the operating system, or is made up of a class and
a text of its own. Both have a `kind` and a `text`; only the first has an `errno?`, only the second
an `inner?` text.
-/

/-- An error of the operating system, or one that is reported like it. -/
inductive SystemError where
  /-- The system failed with this error number. -/
  | os (errno : Int32)
  /-- An error with a class and a text of its own. -/
  | custom (kind : ErrorKind) (text : String)
deriving DecidableEq, Inhabited

namespace SystemError

/-- The class of an error. -/
def kind : SystemError → ErrorKind
  | .os n => Errno.kind n
  | .custom k _ => k

/-- The error number, if the error has one. -/
def errno? : SystemError → Option Int32
  | .os n => some n
  | .custom _ _ => none

/-- What is shown to a user. -/
def text : SystemError → String
  | .os n => s!"{Errno.description n} (os error {n.toInt})"
  | .custom _ t => t

/-- The text an error wraps, if it has one of its own. -/
def inner? : SystemError → Option String
  | .os _ => none
  | .custom _ t => some t

/-- What is shown in a log: number, class and description by name. -/
def debugText : SystemError → String
  | .os n =>
    s!"Os \x7b code: {n.toInt}, kind: {(Errno.kind n).name}, " ++
      s!"message: \"{Errno.description n}\" \x7d"
  | .custom k t => s!"Custom \x7b kind: {k.name}, error: \"{t}\" \x7d"

end SystemError

end Readiness
