import Readiness.Proofs.Wake.Drain
import Readiness.Scenario.Session

namespace Readiness

/-!
# The pipes of a machine

Two descriptors of a machine that are the ends of one open channel make a lawful pipe, so a world
wakes and drains as a pipe does, and the bounds that it works with are large enough.

* `Channel.Flows` and `Channel.lawful_pipe` — a channel with both ends open is a lawful pipe;
* `Machine.Joins` and `Machine.lawful_pipe` — so are the descriptors at its ends, and opening a pipe
  gives such a pair (`Machine.joins_openPipe`), which is how a scenario comes by its wake pipe
  (`Session.joins_wakeMachine`);
* `World.wake_eq` and `World.drain_eq` — what a wake and a drain do to a world.
-/

/-! ### Pipes that look alike -/

namespace Wake.Pipe

variable {σ τ : Type} {p : Pipe σ} {q : Pipe τ} {s s' : σ} {t t' : τ} {answer : Except Int32 Nat}

/-- A state of one pipe looks like a state of another one. -/
structure Alike (p : Pipe σ) (q : Pipe τ) (s : σ) (t : τ) : Prop where
  pending_eq : q.pending t = p.pending s
  capacity_eq : q.capacity t = p.capacity s
  delays_eq : q.delays t = p.delays s

/-- What may come of a read depends on the looks only. -/
theorem Reads.congr {n : Nat} (h : p.Reads n s answer s') (hs : p.Alike q s t)
    (hs' : p.Alike q s' t') : q.Reads n t answer t' := by
  obtain ⟨hpending, -, hdelays⟩ := hs
  obtain ⟨hpending', -, hdelays'⟩ := hs'
  cases h with
  | takes => apply Reads.takes <;> omega
  | waits => apply Reads.waits <;> omega
  | ends => apply Reads.ends <;> omega
  | interrupted => apply Reads.interrupted <;> omega

/-- So does what may come of a write. -/
theorem Writes.congr (h : p.Writes s answer s') (hs : p.Alike q s t) (hs' : p.Alike q s' t') :
    q.Writes t answer t' := by
  obtain ⟨hpending, hcapacity, hdelays⟩ := hs
  obtain ⟨hpending', hcapacity', hdelays'⟩ := hs'
  have hroom : q.HasRoom t ↔ p.HasRoom s := by
    unfold HasRoom
    rw [hpending, hcapacity]
  cases h with
  | takes hroom' => exact .takes (hroom.mpr hroom') (by omega) (by omega)
  | waits hfull => exact .waits (fun h => hfull (hroom.mp h)) (by omega) (by omega)
  | interrupted => apply Writes.interrupted <;> omega

end Wake.Pipe

/-! ### Channels -/

namespace Channel

/-- Both ends of the channel are open, and there is room for a byte if it is empty. -/
structure Flows (c : Channel) : Prop where
  readerOpen : c.readerOpen = true
  writerOpen : c.writerOpen = true
  capacity_ne : c.capacity ≠ 0
  pending_ne : c.full = true → c.pending ≠ 0

theorem flows_ofCapacity {n : Nat} (hn : n ≠ 0) : (ofCapacity n).Flows :=
  ⟨rfl, rfl, hn, fun h => nomatch h⟩

/-- Reading leaves an emptied channel with room. -/
theorem Flows.read {c : Channel} (h : c.Flows) (n : Nat) : (c.read n).2.Flows := by
  unfold Channel.read
  split
  · split
    · exact h
    · exact h
  · refine ⟨h.readerOpen, h.writerOpen, h.capacity_ne, fun hfull => ?_⟩
    have htaken : min n c.pending < c.pending :=
      of_decide_eq_true (Bool.and_eq_true_iff.mp hfull).2
    show c.pending - min n c.pending ≠ 0
    omega

/-- What may come of writing a byte. -/
theorem Flows.writes {c c' : Channel} {answer : Except Int32 Nat} (h : c.Flows)
    (hwrite : c.write 1 = (answer, c')) : c'.Flows ∧ pipe.Writes c answer c' := by
  unfold write at hwrite
  have hopen : ¬ (!c.readerOpen || !c.writerOpen) = true := by
    simp [h.readerOpen, h.writerOpen]
  rw [if_neg hopen, if_neg Nat.one_ne_zero] at hwrite
  by_cases hroom : c.room = 0
  · rw [if_pos hroom] at hwrite
    cases hwrite
    refine ⟨⟨h.readerOpen, h.writerOpen, h.capacity_ne, fun _ => ?_⟩,
      .waits ?_ rfl (Nat.le_refl _)⟩
    · -- A channel without room is marked as full, or holds all that it can.
      show c.pending ≠ 0
      unfold room at hroom
      split at hroom
      · exact h.pending_ne ‹_›
      · have := h.capacity_ne
        omega
    · show ¬ c.pending < c.pending + c.room
      omega
  · rw [if_neg hroom] at hwrite
    have hone : min 1 c.room = 1 := by omega
    rw [hone] at hwrite
    cases hwrite
    refine ⟨⟨h.readerOpen, h.writerOpen, h.capacity_ne, fun _ => Nat.succ_ne_zero _⟩,
      .takes ?_ rfl (Nat.le_refl _)⟩
    show c.pending < c.pending + c.room
    omega

/-- **A channel with both ends open is a lawful pipe.** -/
theorem lawful_pipe : pipe.Lawful Flows where
  read := by
    intro n c answer c' hn h hread
    refine ⟨?_, (readable_pipe.read hn trivial hread).2⟩
    have hflows := h.read n
    rw [show c.read n = (answer, c') from hread] at hflows
    exact hflows
  write := fun h hwrite => h.writes hwrite
  capacity_pos := by
    intro c h
    show 0 < c.pending + c.room
    unfold room
    split
    · have := h.pending_ne ‹_›
      omega
    · have := h.capacity_ne
      omega

end Channel

/-! ### Machines -/

namespace Machine

variable {m : Machine} {reader writer : Fd} {i : Nat}

/-- The descriptors `reader` and `writer` are the ends of channel `i`, and it flows. -/
structure Joins (m : Machine) (reader writer : Fd) (i : Nat) : Prop where
  reader_eq : m.endpoint? reader = some (.reader i)
  writer_eq : m.endpoint? writer = some (.writer i)
  lt_length : i < m.channels.length
  flows : (m.channel i).Flows

/-- The machine with another channel `i`. -/
def withChannel (m : Machine) (i : Nat) (c : Channel) : Machine :=
  { m with channels := m.channels.set i c }

/-- The pipe between two descriptors. -/
def pipe (reader writer : Fd) (i : Nat) : Wake.Pipe Machine where
  write n m := m.write writer n
  read n m := m.read reader n
  pending m := (m.channel i).pending
  capacity m := Channel.pipe.capacity (m.channel i)
  delays _ := 0

/-- Opening a pipe joins its descriptors. -/
theorem joins_openPipe (m : Machine) (hne : reader ≠ writer) :
    (m.openPipe reader writer).Joins reader writer m.channels.length where
  reader_eq := by
    show OrderedMap.find? _ reader = _
    rw [openPipe, OrderedMap.find?_insert_of_ne _ _ hne, OrderedMap.find?_insert_self]
  writer_eq := OrderedMap.find?_insert_self _ _ _
  lt_length := by
    simp [openPipe]
  flows := by
    have hchannel : (m.openPipe reader writer).channel m.channels.length =
        Channel.ofCapacity pipeCapacity := by
      simp [channel, openPipe]
    rw [hchannel]
    exact Channel.flows_ofCapacity (by decide)

namespace Joins

/-- What is pending for the reader is what is pending in the channel. -/
theorem pending_eq (h : m.Joins reader writer i) : m.pending reader = (m.channel i).pending := by
  unfold pending
  rw [h.reader_eq]
  rfl

theorem channel_withChannel (h : m.Joins reader writer i) (c : Channel) :
    (m.withChannel i c).channel i = c := by
  unfold channel withChannel
  rw [List.getD_eq_getElem?_getD, List.getElem?_set_self h.lt_length]
  rfl

/-- The descriptors stay joined whatever happens in the channel. -/
theorem withChannel (h : m.Joins reader writer i) {c : Channel} (hc : c.Flows) :
    (m.withChannel i c).Joins reader writer i where
  reader_eq := h.reader_eq
  writer_eq := h.writer_eq
  lt_length := by
    show i < (m.channels.set i c).length
    rw [List.length_set]
    exact h.lt_length
  flows := by
    rw [h.channel_withChannel]
    exact hc

/-- A machine looks like its channel. -/
theorem alike_withChannel (h : m.Joins reader writer i) (c : Channel) :
    Channel.pipe.Alike (pipe reader writer i) c (m.withChannel i c) := by
  have hchannel := h.channel_withChannel c
  constructor
  · exact congrArg Channel.pipe.pending hchannel
  · exact congrArg Channel.pipe.capacity hchannel
  · rfl

/-- Reading from the reader is reading from the channel. -/
theorem read_eq (h : m.Joins reader writer i) {n : Nat} (hn : n ≠ 0) :
    m.read reader n = (((m.channel i).read n).1, m.withChannel i ((m.channel i).read n).2) := by
  unfold Machine.read
  rw [h.reader_eq]
  exact if_neg hn

/-- Writing to the writer is writing to the channel. -/
theorem write_eq (h : m.Joins reader writer i) {n : Nat} (hn : n ≠ 0) :
    m.write writer n = (((m.channel i).write n).1, m.withChannel i ((m.channel i).write n).2) := by
  unfold Machine.write
  rw [h.writer_eq]
  exact if_neg hn

end Joins

/-- **The ends of an open channel are a lawful pipe.** -/
theorem lawful_pipe : (pipe reader writer i).Lawful (Joins · reader writer i) where
  read := by
    intro n m answer m' hn h hread
    change m.read reader n = (answer, m') at hread
    rw [h.read_eq hn] at hread
    cases hread
    obtain ⟨hflows, hreads⟩ := Channel.lawful_pipe.read hn h.flows rfl
    exact ⟨h.withChannel hflows, hreads.congr ⟨rfl, rfl, rfl⟩ (h.alike_withChannel _)⟩
  write := by
    intro m answer m' h hwrite
    change m.write writer 1 = (answer, m') at hwrite
    rw [h.write_eq Nat.one_ne_zero] at hwrite
    cases hwrite
    obtain ⟨hflows, hwrites⟩ := Channel.lawful_pipe.write h.flows rfl
    exact ⟨h.withChannel hflows, hwrites.congr ⟨rfl, rfl, rfl⟩ (h.alike_withChannel _)⟩
  capacity_pos := fun h => Channel.lawful_pipe.capacity_pos h.flows

end Machine

/-! ### Worlds -/

namespace Scenario

/-- The wake pipe of a scenario is open at both ends. -/
theorem Session.joins_wakeMachine : wakeMachine.Joins wokeFd wakeFd 0 :=
  Machine.joins_openPipe .empty (by decide)

namespace World

variable {w : World} {reader writer : Fd} {i : Nat}

/-- **A wake in a world** goes through and leaves a byte in the pipe.  Nothing changes but the
    machine. -/
theorem wake_eq (h : w.machine.Joins reader writer i) :
    ∃ m, w.wake writer = (.ok (), { w with machine := m }) ∧ m.Joins reader writer i ∧
      m.pending reader =
        w.machine.pending reader + (if (w.machine.channel i).hasRoom then 1 else 0) ∧
      m.pending reader ≠ 0 := by
  obtain ⟨m, hm, hpending, hne, -, hsend⟩ := Machine.lawful_pipe.send_eq h
  have hroom : (Machine.pipe reader writer i).HasRoom w.machine ↔
      (w.machine.channel i).hasRoom = true := by
    show (w.machine.channel i).pending < (w.machine.channel i).pending +
      (w.machine.channel i).room ↔ decide ((w.machine.channel i).room ≠ 0) = true
    rw [decide_eq_true_iff]
    omega
  have hwake : Wake.send (fun n m => m.write writer n) 1 w.machine = (.ok (), m) :=
    hsend 1 Nat.one_pos
  refine ⟨m, ?_, hm, ?_, ?_⟩
  · rw [wake, hwake]
  · rw [hm.pending_eq, h.pending_eq]
    simp only [hroom] at hpending
    exact hpending
  · rw [hm.pending_eq]
    exact hne

/-- **A drain in a world** counts what was pending and leaves nothing.  Nothing changes but the
    machine: there is no failure to be logged. -/
theorem drain_eq (h : w.machine.Joins reader writer i) :
    ∃ m, w.drain reader = (w.machine.pending reader, { w with machine := m }) ∧
      m.Joins reader writer i ∧ m.pending reader = 0 := by
  obtain ⟨m, hm, hempty, -, hdrain⟩ := Machine.lawful_pipe.drain_eq h
  have hall : Wake.drain (fun n m => m.read reader n) (w.machine.pending reader + 1) 0 w.machine =
      (0 + w.machine.pending reader, none, m) := by
    rw [h.pending_eq]
    exact hdrain _ 0 (Nat.lt_succ_self _)
  refine ⟨m, ?_, hm, hm.pending_eq.trans hempty⟩
  rw [drain, hall, Nat.zero_add]

end World

end Scenario

end Readiness
