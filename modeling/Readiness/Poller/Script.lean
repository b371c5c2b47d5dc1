import Readiness.Event
import Readiness.SystemError
import Readiness.Time.Duration

namespace Readiness.Poller

/-!
# Scripted pollers

A `Script` is a poller whose answers are laid down beforehand. It takes every call, records it, and
answers with what the script says next:

* calls that change a registration fail with the next error number, and go through when that is zero
  or none is left;
* waits give the next `WaitAnswer`; once these are used up a wait fails.
-/

/-- A call on a poller. -/
inductive Call where
  | add (fd : Fd) (registration : Registration)
  | modify (fd : Fd) (registration : Registration)
  | delete (fd : Fd)
  | wait (limit : Option Duration)
deriving DecidableEq, Inhabited

/-- What a scripted wait answers. -/
inductive WaitAnswer where
  /-- These events, at once. -/
  | events (events : List Event)
  /-- This error number, once `millis` milliseconds have passed. -/
  | failure (errno : Int32) (millis : Nat)
deriving DecidableEq, Inhabited

/-- The answers a scripted poller still has to give, and the calls it has taken. -/
structure Script where
  /-- The error number opening the poller fails with; zero lets it through. -/
  openErrno : Int32
  /-- Whether the poller has level mode. -/
  hasLevel : Bool
  /-- The error numbers of the next calls that change a registration. -/
  failures : List Int32
  /-- The answers of the next waits. -/
  waits : List WaitAnswer
  /-- The milliseconds that have passed in waits. -/
  elapsed : Nat
  /-- The calls taken, in order. -/
  calls : List Call
deriving DecidableEq

namespace Script

/-- The script of a poller that refuses nothing and reports nothing. -/
def empty : Script := ⟨0, true, [], [], 0, []⟩

instance : Inhabited Script := ⟨empty⟩

/-- A call failed with this number, unless it is zero. -/
def resultOf {α : Type} (errno : Int32) (a : α) : Except SystemError α :=
  if errno = 0 then .ok a else .error (.os errno)

/-- Opens the poller. -/
def openPoller (s : Script) : Except SystemError Bool := resultOf s.openErrno s.hasLevel

/-- Takes a call that changes a registration. -/
def change (s : Script) (call : Call) : Except SystemError Unit × Script :=
  (resultOf (s.failures.headD 0) (),
    { s with failures := s.failures.tail, calls := s.calls ++ [call] })

/-- What a wait fails with once no answer is left. -/
def exhausted : SystemError := .custom .other "script exhausted"

/-- Takes a wait. -/
def wait (s : Script) (limit : Option Duration) : Except SystemError (List Event) × Script :=
  -- The call is noted whether it gives events or fails.
  let s := { s with calls := s.calls ++ [Call.wait limit] }
  match s.waits with
  | [] => (.error exhausted, s)
  | .events es :: rest => (.ok es, { s with waits := rest })
  | .failure errno millis :: rest =>
    (.error (.os errno), { s with waits := rest, elapsed := s.elapsed + millis })

end Script

end Readiness.Poller
