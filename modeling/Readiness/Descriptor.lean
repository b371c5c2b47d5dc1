namespace Readiness

/-!
# Descriptors and poller keys

A descriptor is a signed number of 32 bits. A poller names its registrations by unsigned keys of
64 bits; `Fd.toKey` and `Fd.ofKey` go between the two, and `ofKey_toKey` says that a descriptor
comes back from its key, negative numbers included.
-/

/-- A file descriptor. -/
abbrev Fd := Int32

namespace Fd

/-- The poller key of a descriptor: its value, sign-extended. -/
def toKey (fd : Fd) : UInt64 := fd.toInt64.toUInt64

/-- The descriptor a poller key stands for: its low 32 bits. -/
def ofKey (key : UInt64) : Fd := key.toUInt32.toInt32

/-- A descriptor comes back from its key. -/
@[simp] theorem ofKey_toKey (fd : Fd) : ofKey fd.toKey = fd := by
  apply Int32.toBitVec_inj.mp
  show (fd.toBitVec.signExtend 64).setWidth 32 = fd.toBitVec
  apply BitVec.eq_of_getLsbD_eq
  intro i hi
  have h : i < 64 := by omega
  rw [BitVec.getLsbD_setWidth, BitVec.getLsbD_signExtend]
  simp only [hi, h, decide_true, Bool.true_and, if_true]

end Fd

end Readiness
