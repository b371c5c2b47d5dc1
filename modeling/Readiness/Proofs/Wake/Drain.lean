import Readiness.Channel
import Readiness.Wake

namespace Readiness

/-!
# Waking and draining a pipe

A wake puts a byte into a pipe if there is room, and a drain takes out all that is there.

* `Wake.Pipe` — the two ends of a pipe, and what can be seen of it from outside;
* `Pipe.Reads` and `Pipe.Writes` — what may come of a single read or write, interruptions included;
* `Pipe.Readable` and `Pipe.Lawful` — every read does as it may, and every write, too;
* `Readable.drain_eq` — draining counts the pending bytes and leaves none, whatever the chunks are;
* `Lawful.send_eq` — a wake goes through, and leaves at least one byte;
* `Channel.pipe` — a channel with its two ends, and `Channel.wakes` is what wakes do to it.
-/

namespace Wake

/-- The two ends of a pipe with states in `σ`, and what can be seen of a state. -/
structure Pipe (σ : Type) where
  /-- Writes up to so many bytes, and counts those that were taken. -/
  write : Nat → σ → Except Int32 Nat × σ
  /-- Reads up to so many bytes, and counts them. -/
  read : Nat → σ → Except Int32 Nat × σ
  /-- The bytes written and not yet read. -/
  pending : σ → Nat
  /-- The bytes that the pipe can hold. -/
  capacity : σ → Nat
  /-- How many reads and writes may still be interrupted. -/
  delays : σ → Nat

namespace Pipe

variable {σ : Type}

/-- What may come of reading up to `n` bytes in `s`. -/
inductive Reads (p : Pipe σ) (n : Nat) (s : σ) : Except Int32 Nat → σ → Prop where
  /-- Some of the pending bytes are read, and at least one. -/
  | takes {k : Nat} {s' : σ} (hpos : k ≠ 0) (hle : k ≤ n)
    (hpending : p.pending s = k + p.pending s') (hdelays : p.delays s' ≤ p.delays s) :
    Reads p n s (.ok k) s'
  /-- Nothing is pending, and a writer may send more. -/
  | waits {s' : σ} (hempty : p.pending s = 0) (hempty' : p.pending s' = 0)
    (hdelays : p.delays s' ≤ p.delays s) : Reads p n s (.error Errno.wouldBlock) s'
  /-- Nothing is pending, and there is no writer any more. -/
  | ends {s' : σ} (hempty : p.pending s = 0) (hempty' : p.pending s' = 0)
    (hdelays : p.delays s' ≤ p.delays s) : Reads p n s (.ok 0) s'
  /-- The read is interrupted and has taken nothing. -/
  | interrupted {s' : σ} (hpending : p.pending s' = p.pending s)
    (hdelays : p.delays s' < p.delays s) : Reads p n s (.error Errno.interrupted) s'

/-- Whether a byte can be written. -/
def HasRoom (p : Pipe σ) (s : σ) : Prop := p.pending s < p.capacity s

instance (p : Pipe σ) : DecidablePred p.HasRoom := fun _ => Nat.decLt _ _

/-- What may come of writing one byte in `s`, with the reading end open. -/
inductive Writes (p : Pipe σ) (s : σ) : Except Int32 Nat → σ → Prop where
  /-- There is room for the byte. -/
  | takes {s' : σ} (hroom : p.HasRoom s) (hpending : p.pending s' = p.pending s + 1)
    (hdelays : p.delays s' ≤ p.delays s) : Writes p s (.ok 1) s'
  /-- The pipe is full. -/
  | waits {s' : σ} (hfull : ¬ p.HasRoom s) (hpending : p.pending s' = p.pending s)
    (hdelays : p.delays s' ≤ p.delays s) : Writes p s (.error Errno.wouldBlock) s'
  /-- The write is interrupted, and nothing has changed. -/
  | interrupted {s' : σ} (hpending : p.pending s' = p.pending s)
    (hcapacity : p.capacity s' = p.capacity s) (hdelays : p.delays s' < p.delays s) :
    Writes p s (.error Errno.interrupted) s'

/-- Every read in a sound state does as it may. -/
structure Readable (p : Pipe σ) (sound : σ → Prop) : Prop where
  read : ∀ {n s answer s'}, n ≠ 0 → sound s → p.read n s = (answer, s') →
    sound s' ∧ p.Reads n s answer s'

/-- Every read and every write in a sound state does as it may, and there is room for a byte in an
    empty pipe. -/
structure Lawful (p : Pipe σ) (sound : σ → Prop) : Prop extends p.Readable sound where
  write : ∀ {s answer s'}, sound s → p.write 1 s = (answer, s') →
    sound s' ∧ p.Writes s answer s'
  capacity_pos : ∀ {s}, sound s → 0 < p.capacity s

end Pipe

/-! ### Steps of the two loops -/

section Loops

variable {σ : Type} {read write : Nat → σ → Except Int32 Nat × σ} {s s' : σ} {bound : Nat}

/-- A chunk that holds something is counted, and reading goes on. -/
theorem drain_of_takes {k : Nat} (hread : read chunk s = (.ok k, s')) (hk : k ≠ 0)
    (hbound : 0 < bound) (count : Nat) :
    drain read bound count s = drain read (bound - 1) (count + k) s' := by
  obtain ⟨j, rfl⟩ := Nat.exists_eq_succ_of_ne_zero hk
  obtain ⟨bound, rfl⟩ := Nat.exists_eq_add_one.mpr hbound
  rw [drain, hread]
  rfl

/-- When nothing is left to read, draining ends. -/
theorem drain_of_empty
    (hread : read chunk s = (.error Errno.wouldBlock, s') ∨ read chunk s = (.ok 0, s'))
    (hbound : 0 < bound) (count : Nat) : drain read bound count s = (count, none, s') := by
  obtain ⟨bound, rfl⟩ := Nat.exists_eq_add_one.mpr hbound
  rcases hread with hread | hread
  all_goals
    rw [drain, hread]
    rfl

/-- An interrupted read is made again. -/
theorem drain_of_interrupted (hread : read chunk s = (.error Errno.interrupted, s'))
    (hbound : 0 < bound) (count : Nat) :
    drain read bound count s = drain read (bound - 1) count s' := by
  obtain ⟨bound, rfl⟩ := Nat.exists_eq_add_one.mpr hbound
  rw [drain, hread]
  rfl

/-- A written byte is a wake, and so is a full pipe. -/
theorem send_of_settled
    (hwrite : write 1 s = (.ok 1, s') ∨ write 1 s = (.error Errno.wouldBlock, s'))
    (hbound : 0 < bound) : send write bound s = (.ok (), s') := by
  obtain ⟨bound, rfl⟩ := Nat.exists_eq_add_one.mpr hbound
  rcases hwrite with hwrite | hwrite
  all_goals
    rw [send, hwrite]
    rfl

/-- An interrupted write is made again. -/
theorem send_of_interrupted (hwrite : write 1 s = (.error Errno.interrupted, s'))
    (hbound : 0 < bound) : send write bound s = send write (bound - 1) s' := by
  obtain ⟨bound, rfl⟩ := Nat.exists_eq_add_one.mpr hbound
  rw [send, hwrite]
  rfl

end Loops

/-! ### Whole loops -/

namespace Pipe

variable {σ : Type} {p : Pipe σ} {sound : σ → Prop} {s : σ}

/-- **Draining counts the pending bytes and leaves none**, whatever chunks the reads give and
    however often they are interrupted.  It ends: one read more than there are bytes and
    interruptions is enough, and with a larger bound no more reads are made. -/
theorem Readable.drain_eq (h : p.Readable sound) (hs : sound s) :
    ∃ s', sound s' ∧ p.pending s' = 0 ∧ p.delays s' ≤ p.delays s ∧
      ∀ bound count, p.pending s + p.delays s < bound →
        drain p.read bound count s = (count + p.pending s, none, s') := by
  -- Every read but the last takes a byte, or uses up an interruption.
  induction hm : p.pending s + p.delays s using Nat.strongRecOn generalizing s with
  | ind m ih =>
    subst hm
    rcases heq : p.read chunk s with ⟨answer, s₁⟩
    obtain ⟨hsound, hread⟩ := h.read (by decide : chunk ≠ 0) hs heq
    cases hread with
    | takes hpos hle hpending hdelays =>
      obtain ⟨s', hs', hempty, hdelays', hrest⟩ := ih _ (by omega) hsound rfl
      refine ⟨s', hs', hempty, Nat.le_trans hdelays' hdelays, fun bound count hbound => ?_⟩
      rw [drain_of_takes heq hpos (by omega), hrest _ _ (by omega), hpending, Nat.add_assoc]
    | waits hempty hempty' hdelays =>
      refine ⟨s₁, hsound, hempty', hdelays, fun bound count hbound => ?_⟩
      rw [drain_of_empty (Or.inl heq) (by omega), hempty, Nat.add_zero]
    | ends hempty hempty' hdelays =>
      refine ⟨s₁, hsound, hempty', hdelays, fun bound count hbound => ?_⟩
      rw [drain_of_empty (Or.inr heq) (by omega), hempty, Nat.add_zero]
    | interrupted hpending hdelays =>
      obtain ⟨s', hs', hempty, hdelays', hrest⟩ := ih _ (by omega) hsound rfl
      refine ⟨s', hs', hempty, by omega, fun bound count hbound => ?_⟩
      rw [drain_of_interrupted heq (by omega), hrest _ _ (by omega), hpending]

/-- **A wake goes through**, and writes a byte if there is room.  There is at least one byte in the
    pipe then.  It ends: one write more than there are interruptions is enough. -/
theorem Lawful.send_eq (h : p.Lawful sound) (hs : sound s) :
    ∃ s', sound s' ∧ p.pending s' = p.pending s + (if p.HasRoom s then 1 else 0) ∧
      p.pending s' ≠ 0 ∧ p.delays s' ≤ p.delays s ∧
      ∀ bound, p.delays s < bound → send p.write bound s = (.ok (), s') := by
  -- Every write but the last uses up an interruption.
  induction hm : p.delays s using Nat.strongRecOn generalizing s with
  | ind m ih =>
    subst hm
    have hcapacity := h.capacity_pos hs
    rcases heq : p.write 1 s with ⟨answer, s₁⟩
    obtain ⟨hsound, hwrite⟩ := h.write hs heq
    cases hwrite with
    | takes hroom hpending hdelays =>
      refine ⟨s₁, hsound, ?_, by omega, hdelays, fun bound hbound => ?_⟩
      · rw [hpending, if_pos hroom]
      · exact send_of_settled (Or.inl heq) (by omega)
    | waits hfull hpending hdelays =>
      refine ⟨s₁, hsound, ?_, ?_, hdelays, fun bound hbound => ?_⟩
      · rw [hpending, if_neg hfull, Nat.add_zero]
      · -- Where there is no room for a byte, there are bytes.
        unfold HasRoom at hfull
        omega
      · exact send_of_settled (Or.inr heq) (by omega)
    | interrupted hpending hcapacity' hdelays =>
      obtain ⟨s', hs', hbytes, hne, hdelays', hrest⟩ := ih _ hdelays hsound rfl
      refine ⟨s', hs', ?_, hne, by omega, fun bound hbound => ?_⟩
      · have hroom : p.HasRoom s₁ ↔ p.HasRoom s := by
          unfold HasRoom
          rw [hpending, hcapacity']
        simp only [hbytes, hpending, hroom]
      · rw [send_of_interrupted heq (by omega), hrest _ (by omega)]

end Pipe

end Wake

/-! ### Channels -/

namespace Channel

/-- A channel with its two ends.  It interrupts nothing, and what it can hold is what it holds and
    has room for. -/
def pipe : Wake.Pipe Channel where
  write n c := c.write n
  read n c := c.read n
  pending := pending
  capacity c := c.pending + c.room
  delays _ := 0

/-- Channels are read in chunks. -/
theorem readable_pipe : pipe.Readable fun _ => True where
  read := by
    rintro n c answer c' hn - hread
    refine ⟨trivial, ?_⟩
    change c.read n = (answer, c') at hread
    unfold read at hread
    by_cases hc : c.pending = 0
    · rw [if_pos hc] at hread
      split at hread
      · cases hread
        exact .waits hc hc (Nat.le_refl _)
      · cases hread
        exact .ends hc hc (Nat.le_refl _)
    · rw [if_neg hc] at hread
      cases hread
      refine .takes ?_ (Nat.min_le_left _ _) ?_ (Nat.le_refl _)
      · omega
      · show c.pending = min n c.pending + (c.pending - min n c.pending)
        omega

/-- A channel after some wakes, each of which writes one byte if there is room. -/
def wakes (c : Channel) : Nat → Channel
  | 0 => c
  | n + 1 => ((c.wakes n).write 1).2

/-- Wakes take nothing away. -/
theorem pending_le_wakes (c : Channel) (n : Nat) : c.pending ≤ (c.wakes n).pending := by
  induction n with
  | zero => exact Nat.le_refl _
  | succ n ih =>
    have hwrite : (c.wakes n).pending ≤ ((c.wakes n).write 1).2.pending := by
      unfold write
      split
      · exact Nat.le_refl _
      · split
        · exact Nat.le_refl _
        · split
          · exact Nat.le_refl _
          · exact Nat.le_add_right _ _
    exact Nat.le_trans ih hwrite

end Channel

end Readiness
