import Readiness.Scenario.Command

namespace Readiness.Scenario

/-!
# Playing a scenario

A `Session` holds the collectors of a scenario by number, the tokens they gave out by name, and the
world they share. `Session.step` carries out one step and reports on it; `Session.play` carries out
a list of steps. A command that is refused changes nothing, but for one: a collector is dropped
before it is known whether a new one can be made in its place.
-/

/-- The state of a scenario. -/
structure Session where
  world : World
  /-- The collectors by number. -/
  collectors : OrderedMap Int (Collector World)
  /-- The tokens by name; all collectors share the names. -/
  tokens : OrderedMap String Token

namespace Session

/-! ### Beginnings -/

/-- The writing end of the wake pipe. -/
def wakeFd : Fd := 190

/-- The reading end of the wake pipe. -/
def wokeFd : Fd := 191

/-- A machine with a wake pipe. -/
def wakeMachine : Machine := Machine.empty.openPipe wokeFd wakeFd

/-- A session on a machine without collectors. -/
def ofMachine (m : Machine) (p : Pollers) : Session := ⟨⟨m, p, ∅, [], []⟩, ∅, ∅⟩

/-- A session whose pollers follow a script; it has no descriptors but the wake pipe. -/
def scripted : Session := ofMachine wakeMachine (.scripted .empty)

/-- The machine of a simulated session: `sockets` pairs of sockets from descriptor 200 on, `pipes`
    pipes from 300 on, each with its reading end first, and if asked for the null device as 400. -/
def simulatedMachine (sockets pipes : Nat) (hasNull : Bool) : Machine :=
  let m := (List.range sockets).foldl
    (fun m i => m.openSockets (.ofNat (200 + 2 * i)) (.ofNat (201 + 2 * i))) wakeMachine
  let m := (List.range pipes).foldl
    (fun m i => m.openPipe (.ofNat (300 + 2 * i)) (.ofNat (301 + 2 * i))) m
  if hasNull then m.openNull 400 else m

/-- A session whose pollers report on a machine. -/
def simulated (sockets pipes : Nat) (hasNull : Bool) : Session :=
  ofMachine (simulatedMachine sockets pipes hasNull) (.simulated ∅)

/-! ### Commands on collectors -/

/-- A reply that changes nothing. -/
def reply (s : Session) (r : Reply) : Reply × Session := (r, s)

/-- The session after an operation of the collector with number `base`; `f` replies to success. -/
def settle {α : Type} (s : Session) (base : Int) (o : Outcome World α) (f : α → Reply) :
    Reply × Session :=
  (match o.answer with
    | .ok a => f a
    | .error e => .failed e,
    { s with world := o.state, collectors := s.collectors.insert base o.collector })

/-- Lets `f` act on the collector with number `base`. -/
def withCollector (s : Session) (base : Int) (f : Collector World → Reply × Session) :
    Reply × Session :=
  match s.collectors.find? base with
  | none => s.reply (.refused .noSuchCollector)
  | some c => f c

/-- Lets `f` act on the token of this name. -/
def withToken (s : Session) (name : Option String) (f : Token → Reply × Session) :
    Reply × Session :=
  match name with
  | none => s.reply (.refused .tokenNameMissing)
  | some n =>
    match s.tokens.find? n with
    | none => s.reply (.refused .noSuchToken)
    | some t => f t

/-- Lets `f` act on a part of a step, unless it cannot be read. -/
def withReading {α : Type} (s : Session) (r : Reading α) (f : α → Reply × Session) :
    Reply × Session :=
  match r with
  | .error complaint => s.reply (.refused (.malformed complaint))
  | .ok a => f a

/-- Lets `f` act on a new buffer. -/
def withBuffer (s : Session) (size : Buffer.Request) (f : Buffer → Reply × Session) :
    Reply × Session :=
  match Buffer.allocate? size with
  | none => s.reply (.misuse .oversizedBuffer)
  | some b => f b

/-- Drops the collector with number `base`. -/
def drop (s : Session) (base : Int) : Session :=
  { s with
    world := s.world.closePoller base
    collectors := s.collectors.erase base }

/-- Makes the collector with number `base`, in the place of an older one of that number. -/
def create (s : Session) (base : Int) (size : Buffer.Request)
    (ticksPerSecond : Reading (Option UInt64)) (hasLevel : Bool) (openErrno : Int32) :
    Reply × Session :=
  s.withBuffer size fun buffer =>
    -- The older collector goes first, so it is gone even if no new one can be made.
    let s := s.drop base
    s.withReading ticksPerSecond fun ticks =>
      match ticks.elim (some default) TimeUnit.ofPerSecond? with
      | none => s.reply (.misuse .noTicks)
      | some unit =>
        let world := match s.world.pollers with
          | .scripted script =>
            let script := { script with openErrno := openErrno, hasLevel := hasLevel }
            { s.world with pollers := .scripted script }
          | .simulated _ => s.world
        match Collector.create (World.host base) buffer unit world with
        | (.error e, world) => (.failed e, { s with world := world })
        | (.ok c, world) =>
          (.done, { s with world := world, collectors := s.collectors.insert base c })

/-- Adds a watch; its token is bound to the name only if this goes well. -/
def add (s : Session) (base : Int) (c : Collector World) (request : WatchRequest) :
    Reply × Session :=
  let o := c.add (World.host base) request.fd request.mask s.world
  let (r, s) := s.settle base o .token
  match o.answer, request.name with
  | .ok t, some n => (r, { s with tokens := s.tokens.insert n t })
  | _, _ => (r, s)

/-- Runs one iteration. -/
def run (s : Session) (base : Int) (c : Collector World) (request : RunRequest) :
    Reply × Session :=
  let host := World.host base
  let waits := s.world.patience base
  let outcome := match request.timeout with
    | .ticks n => c.runTicks host request.wakeFd request.wokeFd n waits s.world
    | .exact t => c.run host request.wakeFd request.wokeFd t waits s.world
  match outcome with
  | none => s.reply .endless
  | some o => s.settle base o .count

/-! ### Commands on descriptors -/

/-- The reply to a read or a write. -/
def transferred : Except Int32 Nat → Reply
  | .ok n => .count n
  | .error e => .errno e

/-- The reply to a shutdown. -/
def shutDown : Except Int32 Unit → Reply
  | .ok () => .done
  | .error e => .errno e

/-- The reply to a wake. -/
def woken : Except Error Unit → Reply
  | .ok () => .done
  | .error e => .failed e

/-- Changes the machine. -/
def onMachine (s : Session) (m : Machine) : Session :=
  { s with world := { s.world with machine := m } }

/-- Writes `n` wake bytes one by one; the reply is that to the last. -/
def wakeTimes (s : Session) (fd : Fd) : Nat → Reply × Session
  | 0 => (.done, s)
  | n + 1 =>
    let (answer, world) := s.world.wake fd
    let s := { s with world := world }
    if n = 0 then (woken answer, s) else wakeTimes s fd n

/-- Uses an open descriptor. -/
def useDescriptor (s : Session) (fd : Fd) : DescriptorCommand → Reply × Session
  | .write n =>
    let (answer, m) := s.world.machine.write fd n
    (transferred answer, s.onMachine m)
  | .read n =>
    let (answer, m) := s.world.machine.read fd n
    (transferred answer, s.onMachine m)
  | .discard => (.done, s.onMachine (s.world.machine.discard fd))
  | .fill => (.done, s.onMachine (s.world.machine.fill fd))
  | .shutdown =>
    let (answer, m) := s.world.machine.shutdown fd
    (shutDown answer, s.onMachine m)
  | .close => (.done, { s with world := s.world.close fd })
  | .wake => s.wakeTimes fd 1
  | .drain =>
    let (n, world) := s.world.drain fd
    (.count n, { s with world := world })

/-- Gives `answer`, unless the descriptor it is about is not open. -/
def withOpen (s : Session) (fd : Fd) (refusal : Refusal) (answer : Reply × Session) :
    Reply × Session :=
  if s.world.machine.isOpen fd then answer else s.reply (.refused refusal)

/-! ### Steps -/

/-- Carries out a command for the collector with number `base`. -/
def perform (s : Session) (base : Int) : Command → Reply × Session
  | .create size ticks hasLevel openErrno => s.create base size ticks hasLevel openErrno
  | .drop => s.withCollector base fun _ => (.done, s.drop base)
  | .add request => s.withCollector base fun c => s.withReading request (s.add base c)
  | .remove name =>
    s.withToken name fun t => s.withCollector base fun c =>
      s.settle base (c.remove (World.host base) t s.world) fun _ => .done
  | .compare name other =>
    s.withToken name fun t => s.withToken other fun t' => s.reply (.flag (t = t'))
  | .resize size =>
    s.withCollector base fun c => s.withReading size fun size => s.withBuffer size fun b =>
      s.settle base (c.resize (World.host base) b s.world) .buffer
  | .showBuffer => s.withCollector base fun c => s.reply (.buffer c.buffer)
  | .describe => s.withCollector base fun c => s.reply (.text c.text)
  | .installHook script =>
    s.withCollector base fun c =>
      (.done,
        { s with
          world := { s.world with hooks := s.world.hooks.insert base script }
          collectors := s.collectors.insert base (c.setHook (World.hook base)) })
  | .removeHook =>
    s.withCollector base fun c =>
      (.done, { s with collectors := s.collectors.insert base (c.setHook .none) })
  | .run request => s.withCollector base fun c => s.withReading request (s.run base c)
  | .descriptor fd command =>
    s.withOpen fd .descriptorNotOpen (s.withReading command (s.useDescriptor fd))
  | .wakePipe count =>
    s.withOpen wakeFd .wakePipeClosed (s.withReading count (s.wakeTimes wakeFd))
  | .drainPipe => s.withOpen wokeFd .wakePipeClosed (s.useDescriptor wokeFd .drain)

/-- Lays the answers of scripted pollers down, and clears what was noted and logged. -/
def arm (s : Session) (failures : List Int32) (waits : List Poller.WaitAnswer) : Session :=
  { s with
    world :=
      { s.world with
        notes := []
        log := []
        pollers := match s.world.pollers with
          | .scripted script =>
            .scripted { script with failures := failures, waits := waits, calls := [] }
          | .simulated tables => .simulated tables } }

/-- What a caller sees of the collector with number `base`. -/
def view? (s : Session) (base : Int) : Option View :=
  (s.collectors.find? base).map fun c => ⟨c.events, c.watchCount, c.capacity⟩

/-- The calls a scripted poller has taken since the answers were laid down. -/
def calls (s : Session) : List Poller.Call :=
  match s.world.pollers with
  | .scripted script => script.calls
  | .simulated _ => []

/-- Carries out one step and reports on it. -/
def step (s : Session) (step : Step) : Report × Session :=
  let s := s.arm step.failures step.waits
  let (r, s) := s.withReading step.command (s.perform step.base)
  (⟨r, s.calls, s.view? step.base, s.world.notes, s.world.log⟩, s)

/-- Carries out steps in order and reports on each. -/
def play (s : Session) : List Step → List Report
  | [] => []
  | x :: xs =>
    let (report, s) := s.step x
    report :: play s xs

end Session

end Readiness.Scenario
