import Readiness.Descriptor
import Readiness.Mask

namespace Readiness

/-!
# Registrations and events

What a poller is told about a descriptor, and what it tells back:

* `Interest`, `Mode` and `Registration` say for what, how often and under which key a descriptor
  is registered;
* `Event` is one report of a wait; `Event.status` sums it up as a `Status`;
* `Status.mask` turns a status into the conditions it stands for (`Status.contains_mask`), and
  `Event.mask` an event (`Event.contains_mask`).
-/

/-! ### Registrations -/

/-- The conditions a descriptor is registered for. -/
structure Interest where
  /-- Report when reading does not block. -/
  readable : Bool
  /-- Report when writing does not block. -/
  writable : Bool
  /-- Report when the peer hung up. -/
  closed : Bool
deriving DecidableEq, Inhabited

/-- How often a registration reports. -/
inductive Mode where
  /-- At every wait during which a condition holds. -/
  | level
  /-- Once; then the registration is disabled until it is modified. -/
  | oneshot
deriving DecidableEq, Inhabited

/-- The terms on which a poller watches a descriptor. -/
structure Registration where
  /-- The key its events carry. -/
  key : UInt64
  /-- The conditions it reports. -/
  interest : Interest
  /-- How often it reports. -/
  mode : Mode
deriving DecidableEq, Inhabited

/-- The conditions a mask asks for, as an interest. -/
def Mask.interest (a : Mask) : Interest where
  readable := a.contains read
  writable := a.contains write
  closed := a.contains closed

/-- The letters `r`, `w` and `c` of the requested conditions, in this order. -/
def Interest.letters (i : Interest) : String :=
  (if i.readable then "r" else "") ++ (if i.writable then "w" else "") ++
    (if i.closed then "c" else "")

/-- The mode a set of watches asks for: one persistent watch is enough for level mode. -/
def Mask.mode (a : Mask) : Mode := if a.isPersistent then .level else .oneshot

/-- The mode a poller is given: a poller without level mode only knows one-shot registrations. -/
def Mode.effective (emulated : Bool) (m : Mode) : Mode := if emulated then .oneshot else m

/-- The name of a mode. -/
def Mode.name : Mode → String
  | .level => "level"
  | .oneshot => "oneshot"

/-- The registration under `key` for watches whose masks have the union `a`. -/
def Registration.ofMask (emulated : Bool) (key : UInt64) (a : Mask) : Registration where
  key := key
  interest := a.interest
  mode := a.mode.effective emulated

/-! ### Events -/

/-- The state of a descriptor, as far as a wait reported it. -/
structure Status where
  /-- Reading does not block. -/
  readable : Bool
  /-- Writing does not block. -/
  writable : Bool
  /-- The peer hung up. -/
  closed : Bool
  /-- The descriptor is in an error state. -/
  error : Bool
deriving DecidableEq, Inhabited

/-- The conditions of a status; an error lets readers and writers through, who then see it. -/
def Status.mask (s : Status) : Mask :=
  (if s.readable then Mask.read else ∅) ∪ (if s.writable then Mask.write else ∅) ∪
    (if s.closed then Mask.closed else ∅) ∪ (if s.error then Mask.failureConditions else ∅)

/-- **What a status stands for.**  An error is reported to readers and writers, a hang-up as such,
    and no other bit is set. -/
theorem Status.contains_mask (s : Status) :
    s.mask.contains .read = (s.readable || s.error) ∧
    s.mask.contains .write = (s.writable || s.error) ∧
    s.mask.contains .closed = s.closed ∧ s.mask.conditions = s.mask := by
  obtain ⟨readable, writable, closed, error⟩ := s
  revert readable writable closed error
  decide

/-- One report of a wait. -/
structure Event where
  /-- The key of the registration that reports. -/
  key : UInt64
  /-- Reading does not block. -/
  readable : Bool
  /-- Writing does not block. -/
  writable : Bool
  /-- The peer hung up. -/
  hangUp : Bool
  /-- The descriptor is in an error state; `none` if the poller cannot tell. -/
  error : Option Bool
deriving DecidableEq, Inhabited

/-- The descriptor an event is about. -/
def Event.fd (e : Event) : Fd := Fd.ofKey e.key

/-- The status an event reports; an error the poller cannot tell of counts as none. -/
def Event.status (e : Event) : Status where
  readable := e.readable
  writable := e.writable
  closed := e.hangUp
  error := e.error.getD false

/-- The conditions an event reports. -/
def Event.mask (e : Event) : Mask := e.status.mask

/-- **What an event stands for.**  Only an error the poller is sure of is reported as one. -/
theorem Event.contains_mask (e : Event) :
    e.mask.contains .read = (e.readable || e.error == some true) ∧
    e.mask.contains .write = (e.writable || e.error == some true) ∧
    e.mask.contains .closed = e.hangUp ∧ e.mask.conditions = e.mask := by
  have herror : e.status.error = (e.error == some true) := by
    unfold Event.status
    cases e.error with
    | none => rfl
    | some error =>
      cases error with
      | false => rfl
      | true => rfl
  rw [← herror]
  exact e.status.contains_mask

end Readiness
