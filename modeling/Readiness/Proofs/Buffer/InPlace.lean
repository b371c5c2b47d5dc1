import Readiness.Buffer

namespace Readiness

/-!
# Buffers in place

A buffer lives in one array of slots, with a cursor behind the filled ones.  Records are removed in
place: a read cursor goes over the filled slots, and each record that is kept is written to a second
cursor, which never overtakes the first.

* `SlotArray` — the array and its cursor.  Every access to a slot can fail, and does so outside of
  the array;
* `SlotArray.push`, `SlotArray.removeFd?` and `SlotArray.clear` — the operations on it;
* `SlotArray.compacted` — the invariant of the removal: in front of the write cursor are the records
  kept so far, and from there on nothing has been written, so no slot is read after it was
  overwritten (`SlotArray.shift?_compacted`, `SlotArray.foldlM_shift?`);
* `Buffer.layout` — the array of a buffer.  The operations do to it what those of `Buffer` do to the
  buffer, and none of them leaves the array (`Buffer.push_layout`, `Buffer.removeFd?_layout`,
  `Buffer.records?_layout`).
-/

/-- The slots of a buffer in one array, and how many of them are filled. -/
structure SlotArray where
  /-- All slots. -/
  slots : Array Record
  /-- The cursor behind the filled ones. -/
  size : Nat

namespace SlotArray

/-! ### Operations -/

/-- An array of `capacity` blank slots. -/
def ofCapacity (capacity : Nat) : SlotArray := ⟨Array.replicate capacity .blank, 0⟩

/-- Writes to a slot; none outside of the array. -/
def store? (slots : Array Record) (i : Nat) (r : Record) : Option (Array Record) :=
  if h : i < slots.size then some (slots.set i r h) else none

/-- The filled slots; none if the cursor is outside of the array. -/
def records? (a : SlotArray) : Option (List Record) :=
  if a.size ≤ a.slots.size then some (a.slots.toList.take a.size) else none

/-- Fills the slot under the cursor, if there is one. -/
def push (a : SlotArray) (r : Record) : Except Overflow SlotArray :=
  match store? a.slots a.size r with
  | none => .error ⟨r.fd, a.slots.size⟩
  | some slots => .ok ⟨slots, a.size + 1⟩

/-- One round of a removal: the record under the read cursor `i` goes to the write cursor, unless it
    is of `fd`.  None if a cursor is outside of the array. -/
def shift? (fd : Fd) : Array Record × Nat → Nat → Option (Array Record × Nat)
  | (slots, kept), i =>
    match slots[i]? with
    | none => none
    | some r =>
      if r.fd = fd then some (slots, kept)
      else (store? slots kept r).map fun slots => (slots, kept + 1)

/-- Removes the records of `fd` in place, and counts them.  None if an access is outside of the
    array, or if more records are kept than there were. -/
def removeFd? (a : SlotArray) (fd : Fd) : Option (Nat × SlotArray) :=
  match (List.range a.size).foldlM (shift? fd) (a.slots, 0) with
  | none => none
  | some (slots, kept) => if kept ≤ a.size then some (a.size - kept, ⟨slots, kept⟩) else none

/-- Sets the cursor back. -/
def clear (a : SlotArray) : SlotArray := { a with size := 0 }

/-! ### The removal -/

/-- A record is written over the slot behind some others. -/
theorem store?_append (front : List Record) (r x : Record) (rest : List Record) :
    store? (front ++ x :: rest).toArray front.length r = some ((front ++ [r]) ++ rest).toArray := by
  have hlt : front.length < (front ++ x :: rest).toArray.size := by simp
  unfold store?
  rw [dif_pos hlt, List.set_toArray, List.set_append_right _ _ (Nat.le_refl _), Nat.sub_self,
    List.set_cons_zero, List.append_assoc, List.singleton_append]

/-- The slots and the write cursor after `n` rounds: the records kept so far, and behind them the
    slots as they were. -/
def compacted (fd : Fd) (rs : List Record) (n : Nat) : Array Record × Nat :=
  let kept := (rs.take n).filter fun r => r.fd ≠ fd
  ((kept ++ rs.drop kept.length).toArray, kept.length)

/-- **One round of a removal keeps the invariant.**  The slot it reads was not written before, as
    the write cursor has not overtaken the read cursor. -/
theorem shift?_compacted (fd : Fd) {rs : List Record} {n : Nat} (hn : n < rs.length) :
    shift? fd (compacted fd rs n) n = some (compacted fd rs (n + 1)) := by
  unfold compacted
  rw [List.take_succ_eq_append_getElem hn, List.filter_append]
  generalize hkept : (rs.take n).filter (fun r => r.fd ≠ fd) = kept
  have hle : kept.length ≤ n := by
    rw [← hkept]
    exact Nat.le_trans (List.length_filter_le _ _) (List.length_take_le _ _)
  have hread : (kept ++ rs.drop kept.length).toArray[n]? = some rs[n] := by
    rw [List.getElem?_toArray, List.getElem?_append_right hle, List.getElem?_drop,
      Nat.add_sub_cancel' hle, List.getElem?_eq_getElem hn]
  unfold shift?
  dsimp only
  rw [hread]
  dsimp only
  by_cases hfd : rs[n].fd = fd
  · have hfilter : [rs[n]].filter (fun r => r.fd ≠ fd) = [] := by simp [hfd]
    rw [if_pos hfd, hfilter, List.append_nil]
  · have hfilter : [rs[n]].filter (fun r => r.fd ≠ fd) = [rs[n]] := by simp [hfd]
    rw [if_neg hfd, hfilter, List.length_append, List.length_singleton,
      List.drop_eq_getElem_cons (Nat.lt_of_le_of_lt hle hn), store?_append]
    rfl

/-- All rounds together. -/
theorem foldlM_shift? (fd : Fd) (rs : List Record) {n : Nat} (hn : n ≤ rs.length) :
    (List.range n).foldlM (shift? fd) (rs.toArray, 0) = some (compacted fd rs n) := by
  induction n with
  | zero => rfl
  | succ n ih =>
    rw [List.range_succ, List.foldlM_append, ih (Nat.le_of_succ_le hn)]
    show (shift? fd (compacted fd rs n) n).bind some = _
    rw [shift?_compacted fd hn]
    rfl

end SlotArray

/-! ### The array of a buffer -/

namespace Buffer

/-- The slots of a buffer in one array. -/
def layout (b : Buffer) : SlotArray := ⟨b.slots.toArray, b.size⟩

theorem layout_ofCapacity (n : Nat) : (ofCapacity n).layout = .ofCapacity n := by
  unfold layout ofCapacity slots size SlotArray.ofCapacity
  rw [List.nil_append, List.toArray_replicate]
  rfl

/-- The filled slots hold the records. -/
theorem records?_layout (b : Buffer) : b.layout.records? = some b.records := by
  unfold SlotArray.records? layout size slots
  rw [if_pos (by simp), List.take_left]

/-- A record is pushed into the array of a buffer as into the buffer. -/
theorem push_layout (b : Buffer) (r : Record) : b.layout.push r = (b.push r).map layout := by
  unfold SlotArray.push push layout size slots
  cases hs : b.spare with
  | nil =>
    have hfull : SlotArray.store? (b.records ++ []).toArray b.records.length r = none := by
      unfold SlotArray.store?
      rw [dif_neg (by simp)]
    rw [hfull, capacity, slots, hs]
    rfl
  | cons x rest =>
    have hlength : (b.records ++ [r]).length = b.records.length + 1 := List.length_append
    rw [SlotArray.store?_append]
    show Except.ok (SlotArray.mk _ (b.records.length + 1)) = Except.ok (SlotArray.mk _ _)
    rw [← hlength]

/-- Records are removed from the array of a buffer as from the buffer. -/
theorem removeFd?_layout (b : Buffer) (fd : Fd) :
    b.layout.removeFd? fd = some (b.countFd fd, (b.removeFd fd).layout) := by
  have hfilled : b.slots.take b.size = b.records := List.take_left
  have hrounds := SlotArray.foldlM_shift? fd b.slots b.size_le_capacity
  unfold SlotArray.compacted at hrounds
  rw [hfilled] at hrounds
  unfold SlotArray.removeFd? layout
  dsimp only
  rw [hrounds]
  dsimp only
  have hle : (b.records.filter fun r => r.fd ≠ fd).length ≤ b.size := List.length_filter_le _ _
  have hcount : b.size - (b.records.filter fun r => r.fd ≠ fd).length = b.countFd fd := by
    have hall := List.length_eq_countP_add_countP (fun r : Record => r.fd = fd) (l := b.records)
    rw [← List.countP_eq_length_filter]
    unfold size countFd
    simp only [decide_not, ne_eq, decide_eq_true_eq] at hall ⊢
    omega
  rw [if_pos hle, hcount]
  rfl

end Buffer

end Readiness
