import Readiness.Collector
import Readiness.Scenario.World

namespace Readiness.Scenario

/-!
# Commands and replies

A scenario is a list of `Step`s. Each names a collector by number and has a `Command` for it, or for
a descriptor; the scripted pollers answer the calls of the step from its `failures` and `waits`. A
step is answered by a `Report`, with the `Reply` to its command.

Steps are written by hand, so parts of them may make no sense. Such a part is a `Reading` that holds
the complaint about it. A command complains only once it comes to the part: `run` first asks for its
collector, and a descriptor has to be open before anything is done with it.
-/

/-- A part of a step as it was read: its content, or why it cannot be read. -/
abbrev Reading (α : Type) := Except String α

/-- How long a run may wait. -/
inductive RunTimeout where
  /-- So many ticks of the collector's time unit. -/
  | ticks (count : Int64)
  /-- A timeout as it is. -/
  | exact (timeout : Timeout)
deriving DecidableEq, Inhabited

/-- A watch to add. -/
structure WatchRequest where
  /-- The descriptor to watch. -/
  fd : Fd
  /-- The conditions to report. -/
  mask : Mask
  /-- The name for its token, if it is to have one. -/
  name : Option String
deriving DecidableEq, Inhabited

/-- An iteration to run. -/
structure RunRequest where
  /-- The descriptor that interrupts the wait when written to. -/
  wakeFd : Fd
  /-- The descriptor that shows the interruption. -/
  wokeFd : Fd
  /-- How long to wait. -/
  timeout : RunTimeout
deriving DecidableEq, Inhabited

/-- Something to do with a descriptor. -/
inductive DescriptorCommand where
  /-- Write this many bytes. -/
  | write (count : Nat)
  /-- Read up to this many bytes. -/
  | read (count : Nat)
  /-- Read all that is pending. -/
  | discard
  /-- Write until refused. -/
  | fill
  /-- Shut down writing. -/
  | shutdown
  /-- Close the descriptor. -/
  | close
  /-- Write a wake byte. -/
  | wake
  /-- Drain all wake bytes. -/
  | drain
deriving DecidableEq, Inhabited

/-- Something to do. -/
inductive Command where
  /-- Make the collector of the step, with a poller that fails to open or lacks level mode if the
      script says so. -/
  | create (size : Buffer.Request) (ticksPerSecond : Reading (Option UInt64)) (hasLevel : Bool)
      (openErrno : Int32)
  /-- Drop the collector. -/
  | drop
  /-- Add a watch, and name its token. -/
  | add (request : Reading WatchRequest)
  /-- Remove the watch of a named token. -/
  | remove (name : Option String)
  /-- Compare two named tokens. -/
  | compare (name other : Option String)
  /-- Exchange the buffer. -/
  | resize (size : Reading Buffer.Request)
  /-- Show the buffer. -/
  | showBuffer
  /-- Show how the collector is written. -/
  | describe
  /-- Install a scripted hook. -/
  | installHook (script : HookScript)
  /-- Install the hook that does nothing. -/
  | removeHook
  /-- Run one iteration. -/
  | run (request : Reading RunRequest)
  /-- Use a descriptor. -/
  | descriptor (fd : Fd) (command : Reading DescriptorCommand)
  /-- Write this many wake bytes to the wake pipe. -/
  | wakePipe (count : Reading Nat)
  /-- Drain the wake pipe. -/
  | drainPipe

/-- Why a command was not even tried. -/
inductive Refusal where
  /-- The step, or a part of it, cannot be read. -/
  | malformed (complaint : String)
  | noSuchCollector
  | tokenNameMissing
  | noSuchToken
  | descriptorNotOpen
  | wakePipeClosed
deriving DecidableEq, Inhabited

/-- What is shown to a user. -/
def Refusal.message : Refusal → String
  | .malformed complaint => complaint
  | .noSuchCollector => "no such base"
  | .tokenNameMissing => "token name missing"
  | .noSuchToken => "no such token"
  | .descriptorNotOpen => "descriptor not open"
  | .wakePipeClosed => "wake pipe closed"

/-- The reply to a command. -/
inductive Reply where
  /-- Done, with nothing to tell. -/
  | done
  | count (n : Nat)
  | flag (b : Bool)
  | text (s : String)
  | token (t : Token)
  | buffer (b : Buffer)
  /-- The collector or the wake pipe failed. -/
  | failed (e : Error)
  /-- The system refused to do something with a descriptor. -/
  | errno (n : Int32)
  | misuse (m : Misuse)
  | refused (r : Refusal)
  /-- The run goes on for ever. -/
  | endless

/-- One step of a scenario. -/
structure Step where
  /-- The number of the collector it is about. -/
  base : Int
  /-- What to do. -/
  command : Reading Command
  /-- The error numbers a scripted poller answers the step's calls with. -/
  failures : List Int32
  /-- The answers a scripted poller gives to the step's waits. -/
  waits : List Poller.WaitAnswer

/-- What a caller sees of a collector. -/
structure View where
  events : List Record
  watchCount : Nat
  capacity : Nat
deriving DecidableEq, Inhabited

/-- The answer to a step. -/
structure Report where
  /-- The reply to its command. -/
  reply : Reply
  /-- The calls a scripted poller took. -/
  calls : List Poller.Call
  /-- The collector of the step after it, if there is one. -/
  view : Option View
  /-- The calls of scripted hooks. -/
  notes : List HookNote
  /-- What was logged. -/
  log : List LogEntry

end Readiness.Scenario
