import Readiness.Error
import Readiness.Registry

namespace Readiness

/-!
# Delivery of events

Each event is offered to the watches of its descriptor, in the order in which they were added. A
`Delivery` is what an iteration has come to so far: the watches, the buffer, and the first overflow.

* `Delivery.offer` offers conditions to one watch;
* `Delivery.fanOut` offers an event to all watches of its descriptor;
* `Delivery.rearm?` is the registration the descriptor needs afterwards, if it needs one.

An overflow does not stop the delivery: the watches that did not fit stay armed and the others are
still offered their events, so every descriptor is considered for re-arming.
-/

/-- The state of an iteration while events come in. -/
structure Delivery where
  /-- The watches, with their armed flags. -/
  registry : Registry
  /-- The records made so far. -/
  buffer : Buffer
  /-- The first record that did not fit. -/
  overflow : Option Overflow

namespace Delivery

/-- Offers `ready` to the watch in slot `key` of `fd`: an armed watch that asked for one of these
    conditions makes a record, and is then disarmed unless it persists. -/
def offer (fd : Fd) (ready : Mask) (d : Delivery) (key : Nat) : Delivery :=
  match d.registry.watch? key with
  | none => d
  | some w =>
    let reported := ready ∩ w.mask.conditions
    if w.armed && !reported.isEmpty then
      match d.buffer.push (.ofMask fd reported) with
      | .ok buffer =>
        { d with
          registry := d.registry.setArmed key w.mask.isPersistent
          buffer := buffer }
      -- The watch stays armed, and only the first overflow is kept.
      | .error o => { d with overflow := d.overflow <|> some o }
    else d

/-- Offers an event to the watches of its descriptor; an event nobody watches for is dropped. -/
def fanOut (d : Delivery) (e : Event) : Delivery :=
  (d.registry.chain e.fd).foldl (offer e.fd e.mask) d

/-- The registration a descriptor needs once an event has been offered to its watches: when the
    union of its armed masks changed, or the poller disabled it on reporting, and a condition is
    still asked for. -/
def rearm? (emulated : Bool) (before after : Delivery) (e : Event) : Option Registration :=
  let old := before.registry.armedMask e.fd
  let new := after.registry.armedMask e.fd
  -- A poller disables one-shot entries on reporting, level ones stay enabled.
  let disarmed := new ≠ old ∨ new.mode.effective emulated = .oneshot
  if disarmed ∧ ¬ new.conditions.isEmpty then
    some (.ofMask emulated e.key new)
  else none

/-- How a delivery ends. -/
def result (d : Delivery) : Except Error Unit :=
  match d.overflow with
  | none => .ok ()
  | some o => .error (.bufferFull o)

end Delivery

end Readiness
