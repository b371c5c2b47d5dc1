import Readiness.Error

namespace Readiness

/-!
# Waking and draining

A wait is interrupted by a byte on the wake pipe:

* `Wake.result` judges the attempt to write that byte; a full pipe is as good as a written byte,
  for the reader wakes up either way;
* `Wake.send` makes attempts until one is not interrupted;
* `Wake.drain` reads in chunks until nothing is left, and counts.

`send` and `drain` know the pipe only through a function that writes or reads, so they are right
whatever chunks the reads give. They take the largest number of writes or reads they may make.
-/

namespace Wake

/-- The largest number of bytes read at once. -/
def chunk : Nat := 32

/-- Whether a wake went through, by the result of writing its byte. -/
def result : Except Int32 Nat → Except Error Unit
  | .ok _ => .ok ()
  | .error n => if n = Errno.wouldBlock then .ok () else .error (.wake (.os n))

/-- Writes one byte, and makes at most `writes` attempts at that. The answer is an interruption only
    if all of them were interrupted. -/
def send {σ : Type} (write : Nat → σ → Except Int32 Nat × σ) :
    (writes : Nat) → σ → Except Error Unit × σ
  | 0, s => (result (.error Errno.interrupted), s)
  | writes + 1, s =>
    match write 1 s with
    | (.ok n, s) => (result (.ok n), s)
    | (.error n, s) =>
      -- An interrupted write has written nothing.
      if n = Errno.interrupted then send write writes s else (result (.error n), s)

/-- Reads chunks until none is left, at most `reads` times. The answer is the number of bytes read
    on top of `count`, with the error that ended the reading unless there was just nothing left. -/
def drain {σ : Type} (read : Nat → σ → Except Int32 Nat × σ) :
    (reads : Nat) → (count : Nat) → σ → Nat × Option SystemError × σ
  | 0, count, s => (count, none, s)
  | reads + 1, count, s =>
    match read chunk s with
    -- The writing end is closed, and nothing is left to read.
    | (.ok 0, s) => (count, none, s)
    | (.ok n, s) => drain read reads (count + n) s
    | (.error n, s) =>
      -- An interrupted read has taken nothing.
      if n = Errno.interrupted then drain read reads count s
      else (count, if n = Errno.wouldBlock then none else some (.os n), s)

end Wake

end Readiness
