import Readiness.Event
import Readiness.Log
import Readiness.Time.Timeout

namespace Readiness

/-!
# The surroundings of a collector

A collector works on a system it does not know: a poller, a clock, descriptors that can be drained,
a log. `Host σ` gives these as functions on the state `σ` of that system, and `WaitHook σ` gives the
callbacks around a wait that may block. Nothing is assumed about either, so what holds of a
collector holds for every behaviour of its surroundings.
-/

/-- The system a collector works on, with states in `σ`. -/
structure Host (σ : Type) where
  /-- Opens a poller; the answer says whether it has level mode. -/
  openPoller : σ → Except SystemError Bool × σ
  /-- Registers a descriptor with the poller. -/
  add : Fd → Registration → σ → Except SystemError Unit × σ
  /-- Replaces the registration of a descriptor, and enables it. -/
  modify : Fd → Registration → σ → Except SystemError Unit × σ
  /-- Drops the registration of a descriptor. -/
  delete : Fd → σ → Except SystemError Unit × σ
  /-- Waits for events, at most as long as the limit says. -/
  wait : Option Duration → σ → Except SystemError (List Event) × σ
  /-- The time that has passed since some fixed moment. -/
  now : σ → Duration
  /-- Reads all that is pending on a descriptor, and counts the bytes. -/
  drain : Fd → σ → Nat × σ
  /-- Writes to the log. -/
  log : LogEntry → σ → σ

/-- Callbacks around a wait that may block. -/
structure WaitHook (σ : Type) where
  /-- Called before the wait with the descriptor that interrupts it; true calls the wait off. -/
  prepareToWait : Fd → σ → Bool × σ
  /-- Called once the wait is over; not called for a wait that was called off. -/
  waitFinished : σ → σ

/-- The hook that does nothing and calls no wait off. -/
def WaitHook.none {σ : Type} : WaitHook σ where
  prepareToWait _ s := (false, s)
  waitFinished s := s

instance {σ : Type} : Inhabited (WaitHook σ) := ⟨.none⟩

end Readiness
