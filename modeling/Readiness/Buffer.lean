import Readiness.Record

namespace Readiness

/-!
# Event buffers

A `Buffer` is the storage one iteration writes into: a fixed number of record slots, of which the
first ones are filled. Running out of slots is an error, never a growth.

* `push` fills the next slot, or fails with an `Overflow`;
* `removeFd` drops the records of one descriptor and closes the gaps;
* `clear` forgets all records.

A slot that is not filled any more keeps what was last stored in it, which `toBytes` shows. The view
of a buffer is its list of `records` together with its `capacity`.
-/

/-- A record did not fit a full buffer. -/
structure Overflow where
  /-- The descriptor that had no room left. -/
  fd : Fd
  /-- The capacity of the buffer. -/
  capacity : Nat
deriving DecidableEq, Inhabited

/-- A fixed number of record slots, the first of them filled. -/
structure Buffer where
  /-- The filled slots, in the order in which they were filled. -/
  records : List Record
  /-- The slots behind them, with what was last stored there. -/
  spare : List Record
deriving DecidableEq, Inhabited

namespace Buffer

/-- A buffer of `capacity` blank slots. -/
def ofCapacity (capacity : Nat) : Buffer := ⟨[], List.replicate capacity .blank⟩

/-- All slots, filled or not. -/
def slots (b : Buffer) : List Record := b.records ++ b.spare

/-- The number of slots. -/
def capacity (b : Buffer) : Nat := b.slots.length

/-- The number of filled slots. -/
def size (b : Buffer) : Nat := b.records.length

/-- Whether no slot is filled. -/
def isEmpty (b : Buffer) : Bool := b.records.isEmpty

/-- Fills the next slot. -/
def push (b : Buffer) (r : Record) : Except Overflow Buffer :=
  match b.spare with
  | [] => .error ⟨r.fd, b.capacity⟩
  | _ :: rest => .ok ⟨b.records ++ [r], rest⟩

/-- Forgets all records; the slots keep their contents. -/
def clear (b : Buffer) : Buffer := ⟨[], b.slots⟩

/-- Drops the records of `fd` and closes the gaps; the slots left over keep their contents. -/
def removeFd (b : Buffer) (fd : Fd) : Buffer :=
  let kept := b.records.filter fun r => r.fd ≠ fd
  -- The kept records move to the front, over what stood in these slots.
  ⟨kept, b.slots.drop kept.length⟩

/-- How many records a buffer holds for `fd`. -/
def countFd (b : Buffer) (fd : Fd) : Nat := b.records.countP fun r => r.fd = fd

/-- The bytes of all slots. -/
def toBytes (b : Buffer) : List UInt8 := b.slots.flatMap Record.toBytes

/-! ### Sizes -/

/-- The size a caller asks for. -/
inductive Request where
  /-- Room for this many records. -/
  | records (count : UInt64)
  /-- As many records as fit this many bytes. -/
  | bytes (count : UInt64)
deriving DecidableEq, Inhabited

/-- The number of slots a request comes to; bytes that do not make a record are left out. -/
def Request.capacity : Request → Nat
  | .records n => n.toNat
  | .bytes n => n.toNat / Record.size

/-- The largest number of bytes one allocation may take. -/
def maxBytes : Nat := 0x7fffffffffffffff

/-- A blank buffer of the requested size; none if it takes too many bytes. -/
def allocate? (r : Request) : Option Buffer :=
  if r.capacity * Record.size ≤ maxBytes then some (ofCapacity r.capacity) else none

/-- A request whose slots fit one allocation, at eight bytes each, is granted. -/
theorem allocate?_of_le {r : Request} (h : r.capacity * 8 ≤ 0x7fffffffffffffff) :
    allocate? r = some (ofCapacity r.capacity) :=
  if_pos h

/-- A request for more is not. -/
theorem allocate?_of_lt {r : Request} (h : 0x7fffffffffffffff < r.capacity * 8) :
    allocate? r = none :=
  if_neg (Nat.not_le_of_lt h)

/-- A buffer that was granted is blank. -/
theorem eq_ofCapacity_of_allocate? {r : Request} {b : Buffer} (h : allocate? r = some b) :
    b = ofCapacity r.capacity := by
  rcases Nat.lt_or_ge 0x7fffffffffffffff (r.capacity * 8) with hlt | hle
  · rw [allocate?_of_lt hlt] at h
    cases h
  · rw [allocate?_of_le hle] at h
    exact (Option.some.inj h).symm

/-! ### Laws of the view -/

@[simp] theorem records_ofCapacity (n : Nat) : (ofCapacity n).records = [] := rfl

@[simp] theorem capacity_ofCapacity (n : Nat) : (ofCapacity n).capacity = n := by
  simp [ofCapacity, capacity, slots]

/-- A buffer never holds more records than it has slots. -/
theorem size_le_capacity (b : Buffer) : b.size ≤ b.capacity := by
  simp [size, capacity, slots]

@[simp] theorem records_clear (b : Buffer) : b.clear.records = [] := rfl

@[simp] theorem slots_clear (b : Buffer) : b.clear.slots = b.slots := rfl

@[simp] theorem capacity_clear (b : Buffer) : b.clear.capacity = b.capacity := rfl

@[simp] theorem records_removeFd (b : Buffer) (fd : Fd) :
    (b.removeFd fd).records = b.records.filter fun r => r.fd ≠ fd := rfl

@[simp] theorem capacity_removeFd (b : Buffer) (fd : Fd) :
    (b.removeFd fd).capacity = b.capacity := by
  have h : (b.records.filter fun r => r.fd ≠ fd).length ≤ b.slots.length :=
    Nat.le_trans (List.length_filter_le _ _) (by simp [slots])
  simp only [removeFd, capacity, slots, List.length_append, List.length_drop] at h ⊢
  omega

/-- A record fits exactly when a slot is left, and then stands behind the others. -/
theorem push_eq (b : Buffer) (r : Record) :
    b.push r =
      if b.size < b.capacity then .ok ⟨b.records ++ [r], b.spare.tail⟩
      else .error ⟨r.fd, b.capacity⟩ := by
  unfold push size
  cases h : b.spare with
  | nil => simp [capacity, slots, h]
  | cons x rest => simp [capacity, slots, h]

/-- A push that fits puts the record behind the others. -/
theorem records_push {b b' : Buffer} {r : Record} (h : b.push r = .ok b') :
    b'.records = b.records ++ [r] := by
  unfold push at h
  split at h
  · cases h
  · cases h
    rfl

/-- A push that fits keeps the capacity. -/
theorem capacity_push {b b' : Buffer} {r : Record} (h : b.push r = .ok b') :
    b'.capacity = b.capacity := by
  unfold push at h
  split at h
  · cases h
  · next x rest hs =>
    cases h
    simp [capacity, slots, hs]

end Buffer

end Readiness
