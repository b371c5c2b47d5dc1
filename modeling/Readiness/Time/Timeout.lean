import Readiness.Time.TimeUnit

namespace Readiness

/-!
# Timeouts

How long a wait may last:

* `Timeout.ofTicks` reads a signed count of ticks: negative blocks, zero polls;
* `Timeout.limit` is the limit the first wait of a run gets;
* `Timeout.limitAfter` is the limit of the wait that follows an interruption.
-/

/-- How long one iteration may wait. -/
inductive Timeout where
  /-- Until something is reported. -/
  | block
  /-- Not at all: only readiness that is already there is reported. -/
  | poll
  /-- At most this long. -/
  | bounded (duration : Duration)
deriving DecidableEq, Inhabited

namespace Timeout

/-- Reads a count of ticks: negative blocks, zero polls, a positive one bounds the wait. -/
def ofTicks (ticks : Int64) (u : TimeUnit) : Timeout :=
  if ticks < 0 then .block
  else if ticks = 0 then .poll
  else .bounded (u.toDuration ticks.toUInt64)

/-- Whether the caller may be suspended. -/
def mayBlock : Timeout → Bool
  | .poll => false
  | .block | .bounded _ => true

/-- The longest time to wait; `none` is no limit. -/
def limit : Timeout → Option Duration
  | .block => none
  | .poll => some .zero
  | .bounded d => some d

/-- The limit of the next wait when an interruption comes after `elapsed`; `none` when the time is
    up and there is no next wait. -/
def limitAfter (t : Timeout) (elapsed : Duration) : Option (Option Duration) :=
  match t.limit with
  | none => some none
  | some d => (d.left? elapsed).map some

/-- The name of the kind of timeout. -/
def kind : Timeout → String
  | .block => "block"
  | .poll => "poll"
  | .bounded _ => "bounded"

end Timeout

end Readiness
