import Readiness.Host
import Readiness.Machine
import Readiness.Poller.Script
import Readiness.Poller.Table
import Readiness.Wake

namespace Readiness.Scenario

/-!
# The world of a scenario

A `World` is the system that the collectors of a scenario work on: a machine with descriptors, a
poller per collector, the scripts of their hooks, and what was noted and logged.

* `World.host` is the `Host` that the collector with a given number sees;
* `World.hook` is its scripted `WaitHook`.

The pollers either follow one script, or are simulated: they report what the machine's descriptors
show, and refuse what a poller of the operating system refuses.
-/

/-- Where the answers of the pollers come from. -/
inductive Pollers where
  /-- All pollers follow one script. -/
  | scripted (script : Poller.Script)
  /-- Each collector has registrations of its own, answered from the machine. -/
  | simulated (tables : OrderedMap Int Poller.Table)

/-- The answers of a scripted hook. -/
structure HookScript where
  /-- Whether the next waits are called off; when used up, no wait is. -/
  interrupts : List Bool
  /-- Whether the hook writes to the wake descriptor it is shown. -/
  wakes : Bool
deriving DecidableEq, Inhabited

/-- A call of a scripted hook. -/
inductive HookNote where
  /-- A wait was announced with this wake descriptor, and called off or not. -/
  | prepared (wakeFd : Fd) (calledOff : Bool)
  /-- A wait was over. -/
  | finished
deriving DecidableEq, Inhabited

/-- The system around the collectors of a scenario. -/
structure World where
  /-- The open descriptors. -/
  machine : Machine
  /-- The pollers. -/
  pollers : Pollers
  /-- The hook scripts, by the number of the collector. -/
  hooks : OrderedMap Int HookScript
  /-- The hook calls since the notes were last collected. -/
  notes : List HookNote
  /-- The log entries since the log was last collected. -/
  log : List LogEntry

namespace World

/-! ### Descriptors -/

/-- Adds an entry to the log. -/
def write (w : World) (e : LogEntry) : World := { w with log := w.log ++ [e] }

/-- Writes one byte to a wake descriptor. -/
def wake (w : World) (fd : Fd) : Except Error Unit × World :=
  -- A machine interrupts nothing, so there is no need for a second attempt.
  let (answer, machine) := Wake.send (fun n m => m.write fd n) 1 w.machine
  (answer, { w with machine := machine })

/-- Reads all that is pending on a descriptor and counts it; a failure is logged. -/
def drain (w : World) (fd : Fd) : Nat × World :=
  -- Each read but the last takes at least one byte.
  let reads := w.machine.pending fd + 1
  let (count, failure, machine) := Wake.drain (fun n m => m.read fd n) reads 0 w.machine
  let w := { w with machine := machine }
  (count, match failure with
    | none => w
    | some e => w.write (.drainFailed e))

/-- Closes a descriptor; a simulated poller forgets it. -/
def close (w : World) (fd : Fd) : World :=
  { w with
    machine := w.machine.close fd
    pollers := match w.pollers with
      | .scripted script => .scripted script
      | .simulated tables => .simulated (tables.mapValues fun _ t => t.unregister fd) }

/-! ### Pollers -/

/-- What a poller of the operating system says to a call for `fd` before it looks into its
    registrations: the descriptor has to be open, and has to be one that can be waited for. -/
def accept (m : Machine) (fd : Fd) : Except SystemError Unit :=
  if !m.isOpen fd then .error (.os Errno.badDescriptor)
  else if !m.isPollable fd then .error (.os Errno.notPermitted)
  else .ok ()

/-- A registration with a simulated poller, which may not be there yet. -/
def simulateAdd (m : Machine) (t : Poller.Table) (fd : Fd) (r : Registration) :
    Except SystemError Poller.Table := do
  accept m fd
  if t.isRegistered fd then .error (.os Errno.alreadyExists) else .ok (t.register fd r)

/-- A change of a registration with a simulated poller, which has to be there. -/
def simulateModify (m : Machine) (t : Poller.Table) (fd : Fd) (r : Registration) :
    Except SystemError Poller.Table := do
  accept m fd
  if t.isRegistered fd then .ok (t.register fd r) else .error (.os Errno.notFound)

/-- The end of a registration with a simulated poller, which has to be there. -/
def simulateDelete (m : Machine) (t : Poller.Table) (fd : Fd) : Except SystemError Poller.Table := do
  accept m fd
  if t.isRegistered fd then .ok (t.unregister fd) else .error (.os Errno.notFound)

/-- A call that changes the registrations of the collector with number `base`: a script takes it as
    `call`, a simulated poller works out its new table with `simulate`. -/
def changePoller (w : World) (base : Int) (call : Poller.Call)
    (simulate : Machine → Poller.Table → Except SystemError Poller.Table) :
    Except SystemError Unit × World :=
  match w.pollers with
  | .scripted script =>
    let (answer, script) := script.change call
    (answer, { w with pollers := .scripted script })
  | .simulated tables =>
    match simulate w.machine ((tables.find? base).getD ∅) with
    | .error e => (.error e, w)
    | .ok table => (.ok (), { w with pollers := .simulated (tables.insert base table) })

/-- Opens the poller of the collector with number `base`. -/
def openPoller (w : World) (base : Int) : Except SystemError Bool × World :=
  match w.pollers with
  | .scripted script => (script.openPoller, w)
  | .simulated tables => (.ok true, { w with pollers := .simulated (tables.insert base ∅) })

/-- Closes the poller of the collector with number `base`. -/
def closePoller (w : World) (base : Int) : World :=
  match w.pollers with
  | .scripted _ => w
  | .simulated tables => { w with pollers := .simulated (tables.erase base) }

/-- Waits on the poller of the collector with number `base`. A simulated wait reports what is ready
    now: nothing changes while it waits. -/
def wait (w : World) (base : Int) (limit : Option Duration) :
    Except SystemError (List Event) × World :=
  match w.pollers with
  | .scripted script =>
    let (answer, script) := script.wait limit
    (answer, { w with pollers := .scripted script })
  | .simulated tables =>
    let signals fd := (w.machine.signals? fd).getD default
    let (events, table) := ((tables.find? base).getD ∅).poll signals
    (.ok events, { w with pollers := .simulated (tables.insert base table) })

/-- The time that has passed in waits. -/
def now (w : World) : Duration :=
  match w.pollers with
  | .scripted script => .ofMillis script.elapsed
  | .simulated _ => .zero

/-- A number of waits after which a run of the collector with number `base` is over, if it ever is:
    a script has no more answers than that, and a simulated poller repeats itself. -/
def patience (w : World) (base : Int) : Nat :=
  match w.pollers with
  | .scripted script => script.waits.length + 1
  | .simulated tables => ((tables.find? base).getD ∅).entries.length + 2

/-! ### What a collector sees -/

/-- The host of the collector with number `base`. -/
def host (base : Int) : Host World where
  openPoller w := w.openPoller base
  add fd r w := w.changePoller base (.add fd r) fun m t => simulateAdd m t fd r
  modify fd r w := w.changePoller base (.modify fd r) fun m t => simulateModify m t fd r
  delete fd w := w.changePoller base (.delete fd) fun m t => simulateDelete m t fd
  wait limit w := w.wait base limit
  now w := w.now
  drain fd w := w.drain fd
  log e w := w.write e

/-- The scripted hook of the collector with number `base`. -/
def hook (base : Int) : WaitHook World where
  prepareToWait fd w :=
    let script := (w.hooks.find? base).getD default
    let calledOff := script.interrupts.headD false
    let w := { w with
      hooks := w.hooks.insert base { script with interrupts := script.interrupts.tail }
      notes := w.notes ++ [.prepared fd calledOff] }
    -- The wake is sent for its effect on the pipe; the hook does not look at its result.
    (calledOff, if script.wakes then (w.wake fd).2 else w)
  waitFinished w := { w with notes := w.notes ++ [.finished] }

end World

end Readiness.Scenario
