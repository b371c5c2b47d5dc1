import Readiness.Descriptor
import Readiness.LittleEndian
import Readiness.Mask

namespace Readiness

/-!
# Event records

A `Record` is what a caller reads of one event: a descriptor and the raw bits reported for it. In
memory it takes `Record.size` bytes, least significant byte first:

| offset | bytes | field |
|---|---|---|
| 0 | 4 | descriptor, signed |
| 4 | 2 | raw mask |
| 6 | 2 | zero |

`Record.ofBytes?` reads back what `Record.toBytes` writes.
-/

/-- One reported descriptor. -/
structure Record where
  /-- The descriptor. -/
  fd : Fd
  /-- The raw bits of the reported mask. -/
  bits : UInt16
deriving DecidableEq, Inhabited

namespace Record

/-- The record of an unused slot. -/
def blank : Record := ⟨0, 0⟩

/-- The record that reports `mask` for `fd`. -/
def ofMask (fd : Fd) (mask : Mask) : Record := ⟨fd, mask.bits⟩

/-- The reported conditions: the bits that have a name. -/
def mask (r : Record) : Mask := (Mask.mk r.bits).truncate

/-- How a record is written; the raw bits stand in decimal. -/
def text (r : Record) : String :=
  s!"EventRecord \x7b fd: {r.fd.toInt}, mask: {r.bits.toNat}, _pad: 0 \x7d"

/-! ### Layout -/

/-- Bytes taken by one record. -/
def size : Nat := 8

/-- Offset of the mask. -/
def maskOffset : Nat := 4

/-- The bytes of a record. -/
def toBytes (r : Record) : List UInt8 :=
  LittleEndian.encode 4 r.fd.toUInt32.toNat ++ LittleEndian.encode 2 r.bits.toNat ++
    LittleEndian.encode 2 0

/-- The record whose descriptor and mask stand in these eight bytes. -/
def ofBytes? (bs : List UInt8) : Option Record :=
  if bs.length = size then
    some
      { fd := (LittleEndian.decode (bs.take 4)).toUInt32.toInt32
        bits := (LittleEndian.decode ((bs.drop maskOffset).take 2)).toUInt16 }
  else none

@[simp] theorem length_toBytes (r : Record) : r.toBytes.length = size := by
  simp [toBytes, size]

/-- Reading the bytes of a record gives the record. -/
@[simp] theorem ofBytes?_toBytes (r : Record) : ofBytes? r.toBytes = some r := by
  have hfd : (LittleEndian.decode (r.toBytes.take 4)).toUInt32.toInt32 = r.fd := by
    have htake : r.toBytes.take 4 = LittleEndian.encode 4 r.fd.toUInt32.toNat := by
      simp [toBytes]
    rw [htake, LittleEndian.decode_encode,
      Nat.mod_eq_of_lt (Nat.lt_of_lt_of_le r.fd.toUInt32.toNat_lt (by decide))]
    show (UInt32.ofNat _).toInt32 = _
    rw [UInt32.ofNat_toNat]
    rfl
  have hbits : (LittleEndian.decode ((r.toBytes.drop maskOffset).take 2)).toUInt16 = r.bits := by
    have hmid : (r.toBytes.drop maskOffset).take 2 = LittleEndian.encode 2 r.bits.toNat := by
      simp [toBytes, maskOffset]
    rw [hmid, LittleEndian.decode_encode,
      Nat.mod_eq_of_lt (Nat.lt_of_lt_of_le r.bits.toNat_lt (by decide))]
    show UInt16.ofNat _ = _
    rw [UInt16.ofNat_toNat]
  simp only [ofBytes?, length_toBytes, if_true, hfd, hbits]

end Record

end Readiness
