namespace Readiness

/-!
# Event masks

A `Mask` is a set of conditions and options packed into sixteen bits:

* `read`, `write` and `closed` are the *conditions* a watch can ask for and a record can report;
* `persist` is an option of a watch: it keeps reporting;
* `timeout` is reserved and names no condition of a descriptor.

Bits without a name are kept by the set operations `∪`, `∩` and `\`, and dropped by `truncate` and
`complement`.
-/

/-- A set of conditions and options, one bit each. -/
structure Mask where
  /-- The raw bits, named or not. -/
  bits : UInt16
deriving DecidableEq, Inhabited

namespace Mask

/-! ### The named bits -/

/-- Reserved for timeouts. -/
def timeout : Mask := ⟨1⟩

/-- The descriptor is readable. -/
def read : Mask := ⟨2⟩

/-- The descriptor is writable. -/
def write : Mask := ⟨4⟩

/-- The watch keeps reporting until it is removed. -/
def persist : Mask := ⟨16⟩

/-- The peer hung up. -/
def closed : Mask := ⟨128⟩

/-- The single flags with their names, by increasing bit. -/
def flags : List (String × Mask) :=
  [("TIMEOUT", timeout), ("READ", read), ("WRITE", write), ("PERSIST", persist),
    ("CLOSED", closed)]

/-! ### Set operations -/

instance : EmptyCollection Mask := ⟨⟨0⟩⟩

instance : Union Mask := ⟨fun a b => ⟨a.bits ||| b.bits⟩⟩

instance : Inter Mask := ⟨fun a b => ⟨a.bits &&& b.bits⟩⟩

instance : SDiff Mask := ⟨fun a b => ⟨a.bits &&& ~~~b.bits⟩⟩

/-- The bits of exactly one of two masks. -/
def symmDiff (a b : Mask) : Mask := ⟨a.bits ^^^ b.bits⟩

@[simp] theorem bits_empty : (∅ : Mask).bits = 0 := rfl

@[simp] theorem bits_union (a b : Mask) : (a ∪ b).bits = a.bits ||| b.bits := rfl

@[simp] theorem bits_inter (a b : Mask) : (a ∩ b).bits = a.bits &&& b.bits := rfl

@[simp] theorem bits_sdiff (a b : Mask) : (a \ b).bits = a.bits &&& ~~~b.bits := rfl

/-- Whether every bit of `b` is set in `a`. -/
def contains (a b : Mask) : Bool := a ∩ b = b

/-- Whether the masks share a bit. -/
def intersects (a b : Mask) : Bool := a ∩ b ≠ ∅

/-- Whether no bit is set. -/
def isEmpty (a : Mask) : Bool := a = ∅

/-! ### Named groups of bits -/

/-- Every named bit. -/
def known : Mask := timeout ∪ read ∪ write ∪ persist ∪ closed

/-- The conditions after which reading does not block. -/
def readConditions : Mask := read ∪ closed

/-- The conditions after which writing does not block. -/
def writeConditions : Mask := write

/-- The conditions an error or a hang-up wakes. -/
def failureConditions : Mask := read ∪ write

/-- The condition bits of a mask. -/
def conditions (a : Mask) : Mask := a ∩ (read ∪ write ∪ closed)

/-- Whether a watch with this mask keeps reporting. -/
def isPersistent (a : Mask) : Bool := a.contains persist

/-- The mask with these bits, if all of them have a name. -/
def ofBits? (bits : UInt16) : Option Mask :=
  if bits &&& ~~~known.bits = 0 then some ⟨bits⟩ else none

/-- The named bits of a mask. -/
def truncate (a : Mask) : Mask := a ∩ known

/-- The named bits that are not set. -/
def complement (a : Mask) : Mask := known \ a

/-- The names of the single flags that are set, by increasing bit. -/
def names (a : Mask) : List String := (flags.filter fun f => a.contains f.2).map Prod.fst

/-! ### Text -/

/-- The bits in lower-case hexadecimal, without leading zeros. -/
def hex (a : Mask) : String := String.ofList (Nat.toDigits 16 a.bits.toNat)

/-- The names of the set flags, then what is left in hexadecimal: `READ | PERSIST | 0x68`. -/
def text (a : Mask) : String :=
  let rest := a \ known
  let parts := a.names ++ if rest.isEmpty then [] else ["0x" ++ rest.hex]
  "EventMask(" ++ (if parts.isEmpty then "0x0" else " | ".intercalate parts) ++ ")"

/-! ### Laws of the option and condition bits -/

/-- Masking twice with the conditions masks once. -/
@[simp] theorem conditions_conditions (a : Mask) : a.conditions.conditions = a.conditions := by
  cases a with
  | mk x =>
    show (⟨x &&& _ &&& _⟩ : Mask) = ⟨x &&& _⟩
    congr 1
    simp [UInt16.and_assoc]

/-- A set has the conditions of both of its parts. -/
theorem conditions_union (a b : Mask) : (a ∪ b).conditions = a.conditions ∪ b.conditions := by
  cases a with
  | mk x =>
    cases b with
    | mk y =>
      show (⟨(x ||| y) &&& _⟩ : Mask) = ⟨(x &&& _) ||| (y &&& _)⟩
      congr 1
      exact UInt16.toBitVec_inj.mp (by simp [BitVec.and_or_distrib_right])

/-! ### Flags -/

/-- A mask of a single bit. -/
def IsFlag (m : Mask) : Prop := ∃ i < 16, m.bits.toBitVec = BitVec.twoPow 16 i

theorem isFlag_read : read.IsFlag := ⟨1, by decide⟩

theorem isFlag_write : write.IsFlag := ⟨2, by decide⟩

theorem isFlag_closed : closed.IsFlag := ⟨7, by decide⟩

theorem isFlag_persist : persist.IsFlag := ⟨4, by decide⟩

/-- The bit of a flag decides whether a mask contains the flag, and whether it shares it. -/
theorem IsFlag.exists_bit {m : Mask} (h : m.IsFlag) :
    ∃ i, ∀ a : Mask, a.contains m = a.bits.toBitVec.getLsbD i ∧
      (a ∩ m).isEmpty = !a.bits.toBitVec.getLsbD i := by
  obtain ⟨i, hi, hm⟩ := h
  refine ⟨i, fun a => ?_⟩
  have hinter : (a ∩ m).bits.toBitVec =
      if a.bits.toBitVec.getLsbD i then m.bits.toBitVec else 0#16 := by
    rw [hm]
    show a.bits.toBitVec &&& m.bits.toBitVec = _
    rw [hm, BitVec.and_twoPow]
  have hne : m ≠ ∅ := by
    intro he
    have hbit : (BitVec.twoPow 16 i).getLsbD i = false := by
      rw [← hm, he]
      exact BitVec.getLsbD_zero
    rw [BitVec.getLsbD_twoPow] at hbit
    simp [hi] at hbit
  have heq : a ∩ m = if a.bits.toBitVec.getLsbD i then m else ∅ := by
    split at hinter
    · next hb =>
      rw [if_pos hb]
      exact congrArg Mask.mk (UInt16.toBitVec_inj.mp hinter)
    · next hb =>
      rw [if_neg hb]
      exact congrArg Mask.mk (UInt16.toBitVec_inj.mp hinter)
  unfold contains isEmpty
  rw [heq]
  cases a.bits.toBitVec.getLsbD i with
  | true => simp [hne]
  | false => simp [Ne.symm hne]

/-- A union contains the flags of both of its parts. -/
theorem IsFlag.contains_union {m : Mask} (h : m.IsFlag) (a b : Mask) :
    (a ∪ b).contains m = (a.contains m || b.contains m) := by
  obtain ⟨i, hbit⟩ := h.exists_bit
  rw [(hbit _).1, (hbit a).1, (hbit b).1]
  exact BitVec.getLsbD_or

/-- Two masks share the flags that both of them contain. -/
theorem IsFlag.contains_inter {m : Mask} (h : m.IsFlag) (a b : Mask) :
    (a ∩ b).contains m = (a.contains m && b.contains m) := by
  obtain ⟨i, hbit⟩ := h.exists_bit
  rw [(hbit _).1, (hbit a).1, (hbit b).1]
  exact BitVec.getLsbD_and

/-- The empty mask contains no flag. -/
theorem IsFlag.contains_empty {m : Mask} (h : m.IsFlag) : (∅ : Mask).contains m = false := by
  obtain ⟨i, hbit⟩ := h.exists_bit
  rw [(hbit _).1]
  exact BitVec.getLsbD_zero

/-- A flag is shared exactly if it is contained. -/
theorem IsFlag.isEmpty_inter {m : Mask} (h : m.IsFlag) (a : Mask) :
    (a ∩ m).isEmpty = !a.contains m := by
  obtain ⟨i, hbit⟩ := h.exists_bit
  rw [(hbit a).1, (hbit a).2]

/-- A union is empty only if both of its parts are. -/
theorem isEmpty_union (a b : Mask) : (a ∪ b).isEmpty = (a.isEmpty && b.isEmpty) := by
  have hiff : a ∪ b = ∅ ↔ a = ∅ ∧ b = ∅ := by
    cases a with
    | mk x =>
      cases b with
      | mk y =>
        show Mask.mk (x ||| y) = ⟨0⟩ ↔ Mask.mk x = ⟨0⟩ ∧ Mask.mk y = ⟨0⟩
        simp only [mk.injEq, UInt16.or_eq_zero_iff]
  unfold isEmpty
  rw [decide_eq_decide.mpr hiff, Bool.decide_and]

/-- What two masks have in common with a third. -/
theorem inter_union (a b c : Mask) : a ∩ (b ∪ c) = (a ∩ b) ∪ (a ∩ c) :=
  congrArg Mask.mk (UInt16.toBitVec_inj.mp BitVec.and_or_distrib_left)

/-- A union has what one of its parts has. -/
theorem union_inter_of_left {a m : Mask} (h : a ∩ m = m) (b : Mask) : (a ∪ b) ∩ m = m := by
  have hbits : a.bits &&& m.bits = m.bits := congrArg bits h
  apply congrArg Mask.mk
  show (a.bits ||| b.bits) &&& m.bits = m.bits
  rw [← hbits]
  apply UInt16.toBitVec_inj.mp
  simp only [UInt16.toBitVec_and, UInt16.toBitVec_or]
  ext i
  grind

/-- A union has its second part. -/
theorem union_inter_self (a m : Mask) : (a ∪ m) ∩ m = m := by
  apply congrArg Mask.mk
  show (a.bits ||| m.bits) &&& m.bits = m.bits
  apply UInt16.toBitVec_inj.mp
  simp only [UInt16.toBitVec_and, UInt16.toBitVec_or]
  ext i
  grind

/-- A mask asks for a condition exactly if it contains one of the three. -/
theorem isEmpty_conditions (a : Mask) :
    a.conditions.isEmpty = !(a.contains read || a.contains write || a.contains closed) := by
  unfold conditions
  rw [inter_union, inter_union, isEmpty_union, isEmpty_union, isFlag_read.isEmpty_inter,
    isFlag_write.isEmpty_inter, isFlag_closed.isEmpty_inter]
  simp

end Mask

end Readiness
