import Mathlib.Algebra.Ring.Nat
import Mathlib.Data.List.Chain
import Readiness.Proofs.Wake.Drain

namespace Readiness

/-!
# Every byte is accounted for

Wakes and drains of one pipe, in any order and from any number of pending bytes.

* `Wake.Call`, `Wake.Turn`, `Pipe.play` — calls, what comes of each, and calls one after the other;
* `Pipe.Exact` — a wake has gone through, or a drain has counted what it took out;
* `Pipe.Path` — exact turns, each of which begins where the one before it has ended;
* `Lawful.play_path` — the turns of a lawful pipe are a path;
* `Lawful.accounts_for_bytes` — so the bytes drained and those left are the bytes there were and
  those written;
* `Fitful.pipe` — a pipe whose interruptions and chunks follow any plan.
-/

namespace Wake

/-! ### Calls -/

/-- A call on a pipe. -/
inductive Call where
  /-- Sends a wake. -/
  | wake
  /-- Takes all wakes out. -/
  | drain
deriving DecidableEq

/-- What a call answers. -/
inductive Answer where
  /-- Whether the wake went through. -/
  | woken (result : Except Error Unit)
  /-- The bytes that were drained, with the error that ended it unless nothing was left. -/
  | drained (bytes : Nat) (failure : Option SystemError)

/-- The bytes that a call has taken out. -/
def Answer.bytes : Answer → Nat
  | .woken _ => 0
  | .drained n _ => n

/-- A call that has returned, with the pipe before it and after it. -/
structure Turn (σ : Type) where
  call : Call
  before : σ
  answer : Answer
  after : σ

namespace Pipe

variable {σ : Type} {p : Pipe σ} {sound : σ → Prop} {s s' : σ} {turns : List (Turn σ)}

/-- Carries out a call with at most `bound` reads or writes. -/
def serve (p : Pipe σ) (bound : Nat) (s : σ) : Call → Turn σ
  | .wake =>
    let (result, s') := send p.write bound s
    ⟨.wake, s, .woken result, s'⟩
  | .drain =>
    let (bytes, failure, s') := drain p.read bound 0 s
    ⟨.drain, s, .drained bytes failure, s'⟩

/-- Carries out calls in order, each with at most `bound` reads or writes. -/
def play (p : Pipe σ) (bound : Nat) : List Call → σ → List (Turn σ) × σ
  | [], s => ([], s)
  | call :: calls, s =>
    let turn := p.serve bound s call
    let (turns, s') := p.play bound calls turn.after
    (turn :: turns, s')

/-- A turn is exact if a wake went through, wrote a byte if there was room, and left at least one;
    or if a drain counted the bytes that were pending and left none. -/
def Exact (p : Pipe σ) (t : Turn σ) : Prop :=
  match t.call with
  | .wake => t.answer = .woken (.ok ()) ∧ p.pending t.after ≠ 0 ∧
      p.pending t.after = p.pending t.before + (if p.HasRoom t.before then 1 else 0)
  | .drain => t.answer = .drained (p.pending t.before) none ∧ p.pending t.after = 0

/-- A turn that wakes and finds room for the byte. -/
def Writing (p : Pipe σ) (t : Turn σ) : Prop := t.call = .wake ∧ p.HasRoom t.before

instance (p : Pipe σ) : DecidablePred p.Writing :=
  fun t => inferInstanceAs (Decidable (t.call = .wake ∧ p.HasRoom t.before))

/-- A turn that is exact takes out what it does not leave. -/
theorem Exact.balanced {t : Turn σ} (h : p.Exact t) :
    t.answer.bytes + p.pending t.after =
      p.pending t.before + (if p.Writing t then 1 else 0) := by
  rcases t with ⟨call, before, answer, after⟩
  cases call with
  | wake =>
    obtain ⟨rfl, -, hafter⟩ : answer = .woken (.ok ()) ∧ p.pending after ≠ 0 ∧
      p.pending after = p.pending before + (if p.HasRoom before then 1 else 0) := h
    simp [Answer.bytes, Writing, hafter]
  | drain =>
    obtain ⟨rfl, hafter⟩ : answer = .drained (p.pending before) none ∧ p.pending after = 0 := h
    simp [Answer.bytes, Writing, hafter]

/-! ### Paths -/

/-- Exact turns one after the other, from `s` to `s'`. -/
inductive Path (p : Pipe σ) : σ → List (Turn σ) → σ → Prop where
  | nil {s : σ} : Path p s [] s
  | cons {t : Turn σ} {turns : List (Turn σ)} {s' : σ} (hexact : p.Exact t)
    (hrest : Path p t.after turns s') : Path p t.before (t :: turns) s'

namespace Path

/-- All turns of a path are exact. -/
theorem exact (h : p.Path s turns s') : ∀ t ∈ turns, p.Exact t := by
  induction h with
  | nil => exact fun t ht => absurd ht List.not_mem_nil
  | cons hexact _ ih => exact List.forall_mem_cons.mpr ⟨hexact, ih⟩

/-- A path begins with its first turn. -/
theorem before_head? (h : p.Path s turns s') : ∀ t ∈ turns.head?, t.before = s := by
  cases h with
  | nil => exact fun t ht => nomatch ht
  | cons _ _ =>
    rintro t ⟨⟩
    rfl

/-- A drain right after a drain finds nothing. -/
theorem isChain (h : p.Path s turns s') : turns.IsChain fun t u =>
    t.call = .drain → u.call = .drain → u.answer = .drained 0 none := by
  induction h with
  | nil => exact .nil
  | @cons t turns s' hexact hrest ih =>
    refine List.isChain_cons.mpr ⟨?_, ih⟩
    intro u hu ht hcall
    have hmem : u ∈ turns := List.mem_of_mem_head? hu
    have hafter := hexact
    have hanswer := hrest.exact u hmem
    unfold Exact at hafter hanswer
    rw [ht] at hafter
    rw [hcall, hrest.before_head? u hu, hafter.2] at hanswer
    exact hanswer.1

/-- **What a path has taken out and what it has left** are together what there was and what was
    written. -/
theorem balanced (h : p.Path s turns s') :
    (turns.map fun t => t.answer.bytes).sum + p.pending s' =
      p.pending s + turns.countP (p.Writing ·) := by
  induction h with
  | nil => exact Nat.zero_add _
  | @cons t turns s' hexact _ ih =>
    have hturn := hexact.balanced
    simp only [List.map_cons, List.sum_cons, List.countP_cons, decide_eq_true_eq]
    omega

end Path

/-! ### Lawful pipes -/

/-- **A call on a lawful pipe returns**, and its turn is exact.  The bytes and the interruptions to
    come bound the reads and writes it makes. -/
theorem Lawful.serve_eq (h : p.Lawful sound) (hs : sound s) (call : Call) :
    ∃ t : Turn σ, t.call = call ∧ t.before = s ∧ p.Exact t ∧ sound t.after ∧
      p.delays t.after ≤ p.delays s ∧
      ∀ bound, p.pending s + p.delays s < bound → p.serve bound s call = t := by
  cases call with
  | wake =>
    obtain ⟨s', hs', hpending, hne, hdelays, hsend⟩ := h.send_eq hs
    refine ⟨⟨.wake, s, .woken (.ok ()), s'⟩, rfl, rfl, ⟨rfl, hne, hpending⟩, hs', hdelays, ?_⟩
    intro bound hbound
    rw [serve, hsend bound (by omega)]
  | drain =>
    obtain ⟨s', hs', hempty, hdelays, hdrain⟩ := h.drain_eq hs
    refine ⟨⟨.drain, s, .drained (p.pending s) none, s'⟩, rfl, rfl, ⟨rfl, hempty⟩, hs', hdelays,
      ?_⟩
    intro bound hbound
    rw [serve, hdrain bound 0 hbound, Nat.zero_add]

/-- **All calls on a lawful pipe return**, and their turns are a path. -/
theorem Lawful.play_path (h : p.Lawful sound) (hs : sound s) (calls : List Call) :
    ∃ turns s', p.Path s turns s' ∧ turns.map Turn.call = calls ∧
      ∀ bound, p.pending s + p.delays s + calls.length < bound →
        p.play bound calls s = (turns, s') := by
  induction calls generalizing s with
  | nil => exact ⟨[], s, .nil, rfl, fun _ _ => rfl⟩
  | cons call calls ih =>
    obtain ⟨t, hcall, rfl, hexact, ht, hdelays, hserve⟩ := h.serve_eq hs call
    obtain ⟨turns, s', hpath, hcalls, hplay⟩ := ih ht
    refine ⟨t :: turns, s', .cons hexact hpath, ?_, fun bound hbound => ?_⟩
    · rw [List.map_cons, hcall, hcalls]
    · -- A turn adds one byte at most, so the bound is enough for the calls that are left.
      have hturn := hexact.balanced
      have hle : (if p.Writing t then 1 else 0) ≤ 1 := by
        split <;> omega
      rw [List.length_cons] at hbound
      rw [play, hserve bound (by omega), hplay bound (by omega)]

/-- **Wakes and drains account for every byte.**  Take a lawful pipe in any sound state, with any
    number of pending bytes: it can hold at least one byte, its reads give any chunks, and any of its
    reads and writes may be interrupted, finitely often.  Take any wakes and drains.  All of them
    return, and any larger bound on the reads and writes of each gives the same.  Every wake goes
    through and leaves the pipe with a byte in it.  Every drain counts the bytes that are pending
    when it starts and leaves none, so one that follows at once counts none.  The bytes drained and
    those left are together those that there were in the beginning, and one for each wake that found
    room. -/
theorem Lawful.accounts_for_bytes (h : p.Lawful sound) (hs : sound s) (calls : List Call) :
    ∃ turns s',
      (∀ bound, p.pending s + p.delays s + calls.length < bound →
        p.play bound calls s = (turns, s')) ∧
      turns.map Turn.call = calls ∧ (∀ t ∈ turns, p.Exact t) ∧
      turns.IsChain (fun t u =>
        t.call = .drain → u.call = .drain → u.answer = .drained 0 none) ∧
      (turns.map fun t => t.answer.bytes).sum + p.pending s' =
        p.pending s + turns.countP (p.Writing ·) := by
  obtain ⟨turns, s', hpath, hcalls, hplay⟩ := h.play_path hs calls
  exact ⟨turns, s', hplay, hcalls, hpath.exact, hpath.isChain, hpath.balanced⟩

end Pipe

/-! ### A pipe with a plan -/

/-- A pipe that holds a given number of bytes, with a plan for the coming reads and writes. -/
structure Fitful where
  /-- The bytes written and not yet read. -/
  pending : Nat
  /-- The bytes that the pipe can hold. -/
  capacity : Nat
  /-- Whether the writing end is open. -/
  writerOpen : Bool
  /-- Which of the next calls are interrupted, and how many bytes the others may read at most. -/
  plan : List (Option Nat)
deriving DecidableEq

namespace Fitful

/-- The pipe with the first call of its plan behind it. -/
def next (f : Fitful) : Fitful := { f with plan := f.plan.tail }

/-- Writes up to `n` bytes. -/
def write (n : Nat) (f : Fitful) : Except Int32 Nat × Fitful :=
  if f.plan.head? = some none then (.error Errno.interrupted, f.next)
  else if f.pending < f.capacity then
    let taken := min n (f.capacity - f.pending)
    (.ok taken, { f.next with pending := f.pending + taken })
  else (.error Errno.wouldBlock, f.next)

/-- Reads up to `n` bytes, but at least one if there is any. -/
def read (n : Nat) (f : Fitful) : Except Int32 Nat × Fitful :=
  if f.plan.head? = some none then (.error Errno.interrupted, f.next)
  else if f.pending = 0 then
    if f.writerOpen then (.error Errno.wouldBlock, f.next) else (.ok 0, f.next)
  else
    let taken := max 1 (min (f.plan.head?.join.getD n) (min n f.pending))
    (.ok taken, { f.next with pending := f.pending - taken })

/-- The two ends of the pipe.  What is planned for no call does not interrupt it. -/
def pipe : Pipe Fitful where
  write := write
  read := read
  pending := pending
  capacity := capacity
  delays f := f.plan.length

/-- A call uses up its part of the plan. -/
theorem delays_next_le (f : Fitful) : pipe.delays f.next ≤ pipe.delays f := by
  show f.plan.tail.length ≤ f.plan.length
  rw [List.length_tail]
  omega

theorem delays_next_lt {f : Fitful} (h : f.plan.head? = some none) :
    pipe.delays f.next < pipe.delays f := by
  show f.plan.tail.length < f.plan.length
  have hpos : 0 < f.plan.length := List.length_pos_iff_exists_mem.mpr ⟨_, List.mem_of_mem_head? h⟩
  rw [List.length_tail]
  omega

/-- Whatever the plan, the pipe is lawful if it holds a byte. -/
theorem lawful_pipe : pipe.Lawful fun f => f.capacity ≠ 0 where
  read := by
    intro n f answer f' hn hf hread
    change f.read n = (answer, f') at hread
    unfold read at hread
    by_cases hplan : f.plan.head? = some none
    · rw [if_pos hplan] at hread
      cases hread
      exact ⟨hf, .interrupted rfl (delays_next_lt hplan)⟩
    · rw [if_neg hplan] at hread
      by_cases hempty : f.pending = 0
      · rw [if_pos hempty] at hread
        split at hread
        · cases hread
          exact ⟨hf, .waits hempty hempty f.delays_next_le⟩
        · cases hread
          exact ⟨hf, .ends hempty hempty f.delays_next_le⟩
      · rw [if_neg hempty] at hread
        cases hread
        refine ⟨hf, .takes ?_ ?_ ?_ f.delays_next_le⟩
        · omega
        · omega
        · show f.pending = _ + (f.pending - _)
          omega
  write := by
    intro f answer f' hf hwrite
    change f.write 1 = (answer, f') at hwrite
    unfold write at hwrite
    by_cases hplan : f.plan.head? = some none
    · rw [if_pos hplan] at hwrite
      cases hwrite
      exact ⟨hf, .interrupted rfl rfl (delays_next_lt hplan)⟩
    · rw [if_neg hplan] at hwrite
      by_cases hroom : f.pending < f.capacity
      · have hone : min 1 (f.capacity - f.pending) = 1 := by omega
        rw [if_pos hroom, hone] at hwrite
        cases hwrite
        exact ⟨hf, .takes hroom rfl f.delays_next_le⟩
      · rw [if_neg hroom] at hwrite
        cases hwrite
        exact ⟨hf, .waits hroom rfl f.delays_next_le⟩
  capacity_pos := fun hf => Nat.pos_of_ne_zero hf

end Fitful

/-- A pipe for three bytes is full.  Its first write is interrupted, and the next one refused.  Of
    the reads that follow, one gives two of three bytes, and one is interrupted. -/
theorem Pipe.accounts_for_bytes_full :
    ∃ turns s',
      Fitful.pipe.play 20 [.wake, .drain, .drain, .wake, .wake, .drain]
        ⟨3, 3, true, [none, some 0, some 2, none, some 0]⟩ = (turns, s') ∧
      turns.map (fun t => t.answer) = [.woken (.ok ()), .drained 3 none, .drained 0 none,
        .woken (.ok ()), .woken (.ok ()), .drained 2 none] ∧
      (∀ t ∈ turns, Fitful.pipe.Exact t) ∧ s' = ⟨0, 3, true, []⟩ ∧
      (turns.map fun t => t.answer.bytes).sum + s'.pending = 3 + 2 := by
  obtain ⟨turns, s', hplay, -, hexact, -, hsum⟩ :=
    Fitful.lawful_pipe.accounts_for_bytes
      (s := ⟨3, 3, true, [none, some 0, some 2, none, some 0]⟩) (by decide)
      [.wake, .drain, .drain, .wake, .wake, .drain]
  have h := hplay 20 (by decide)
  cases h
  exact ⟨_, _, rfl, rfl, hexact, rfl, hsum⟩

end Wake

end Readiness
