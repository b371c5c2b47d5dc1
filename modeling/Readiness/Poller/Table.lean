import Readiness.Event
import Readiness.OrderedMap

namespace Readiness.Poller

/-!
# The registrations of a poller

A `Table` is what a poller keeps: for each registered descriptor its registration, and whether that
is enabled.

* `register` writes an enabled entry and `unregister` drops one;
* `acknowledge` disables a one-shot entry, as reporting it does;
* `poll` reports the enabled entries that are ready, given what can be seen of each descriptor.
-/

/-- What can be seen of a descriptor from outside. -/
structure Signals where
  /-- A read would not wait. -/
  input : Bool
  /-- A write would not wait. -/
  output : Bool
  /-- Both directions are closed. -/
  hangUp : Bool
  /-- A write can never succeed again. -/
  error : Bool
deriving DecidableEq, Inhabited

/-- One registered descriptor. -/
structure Entry where
  /-- The terms of the registration. -/
  registration : Registration
  /-- Whether it reports; a one-shot registration that has reported does not. -/
  enabled : Bool
deriving DecidableEq, Inhabited

namespace Entry

/-- The event of an entry whose descriptor shows these signals. Hang-up and error are reported
    whatever the entry is registered for, and let readers and writers through. -/
def report? (e : Entry) (s : Signals) : Option Event :=
  let i := e.registration.interest
  let input := i.readable && s.input
  let output := i.writable && s.output
  if e.enabled && (input || output || s.hangUp || s.error) then
    some
      { key := e.registration.key
        readable := input || s.hangUp || s.error
        writable := output || s.hangUp || s.error
        hangUp := s.hangUp
        error := some s.error }
  else none

/-- An entry once it has reported. -/
def acknowledge (e : Entry) : Entry :=
  { e with enabled := e.enabled && e.registration.mode = .level }

end Entry

/-- The registered descriptors of a poller. -/
abbrev Table := OrderedMap Fd Entry

namespace Table

/-- Enters a descriptor, enabled, in the place of its old entry if it has one. -/
def register (t : Table) (fd : Fd) (r : Registration) : Table := t.insert fd ⟨r, true⟩

/-- Drops the entry of a descriptor. -/
def unregister (t : Table) (fd : Fd) : Table := t.erase fd

/-- Whether a descriptor is entered. -/
def isRegistered (t : Table) (fd : Fd) : Bool := (t.find? fd).isSome

/-- Whether a descriptor is entered and its entry enabled. -/
def isEnabled (t : Table) (fd : Fd) : Bool := (t.find? fd).any Entry.enabled

/-- The table once the entry of `fd` has reported. -/
def acknowledge (t : Table) (fd : Fd) : Table :=
  match t.find? fd with
  | none => t
  | some e => t.insert fd e.acknowledge

/-- The event of a descriptor, if it is entered and has one to report. -/
def report? (t : Table) (signals : Fd → Signals) (fd : Fd) : Option Event :=
  (t.find? fd).bind fun e => e.report? (signals fd)

/-- The events of all entries, in the order of registration, and the table after they have been
    reported. -/
def poll (t : Table) (signals : Fd → Signals) : List Event × Table :=
  (t.keys.filterMap (t.report? signals),
    t.mapValues fun fd e => if (e.report? (signals fd)).isSome then e.acknowledge else e)

end Table

end Readiness.Poller
