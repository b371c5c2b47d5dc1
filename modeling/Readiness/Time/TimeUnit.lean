import Readiness.Time.Duration

namespace Readiness

/-!
# Time units

A caller counts time in ticks of its own; a `TimeUnit` says how many of them make a second.
`TimeUnit.toDuration` turns a count of ticks into a `Duration`, cut down to whole microseconds. The
product in it is formed in 128 bits, so no count of 64 bits overflows it.
-/

/-- A unit of time, given by its ticks per second. -/
structure TimeUnit where
  /-- The ticks in one second. -/
  perSecond : UInt64
  /-- A second has at least one tick. -/
  perSecond_pos : 0 < perSecond.toNat
deriving DecidableEq

namespace TimeUnit

/-- One tick per nanosecond. -/
def nanos : TimeUnit := ⟨1000000000, by decide⟩

/-- One tick per microsecond. -/
def micros : TimeUnit := ⟨1000000, by decide⟩

/-- One tick per millisecond. -/
def millis : TimeUnit := ⟨1000, by decide⟩

/-- Without a choice of the caller, time is counted in nanoseconds. -/
instance : Inhabited TimeUnit := ⟨nanos⟩

/-- The unit with `n` ticks per second; there is none with zero ticks. -/
def ofPerSecond? (n : UInt64) : Option TimeUnit :=
  if h : 0 < n.toNat then some ⟨n, h⟩ else none

/-- How a unit is written. -/
def text (u : TimeUnit) : String := s!"TimeUnits \x7b per_second: {u.perSecond.toNat} \x7d"

/-- The microseconds of `rest` ticks that do not fill a second. -/
def microsOf (u : TimeUnit) (rest : UInt64) : BitVec 128 :=
  rest.toBitVec.setWidth 128 * 1000000#128 / u.perSecond.toBitVec.setWidth 128

/-- The microseconds of `rest` ticks, counted without bounds. -/
theorem toNat_microsOf (u : TimeUnit) (rest : UInt64) :
    (u.microsOf rest).toNat = rest.toNat * 1000000 / u.perSecond.toNat := by
  have h1 := rest.toNat_lt
  have h2 : rest.toNat * 1000000 < 2 ^ 128 := by omega
  rw [microsOf, BitVec.toNat_udiv, BitVec.toNat_mul, BitVec.toNat_setWidth_of_le (by decide),
    BitVec.toNat_setWidth_of_le (by decide), BitVec.toNat_ofNat, UInt64.toNat_toBitVec,
    UInt64.toNat_toBitVec, Nat.mod_eq_of_lt (by decide : 1000000 < 2 ^ 128), Nat.mod_eq_of_lt h2]

/-- Ticks that do not fill a second make less than a million microseconds. -/
theorem toNat_microsOf_mod_lt (u : TimeUnit) (ticks : UInt64) :
    (u.microsOf (ticks % u.perSecond)).toNat < 1000000 := by
  rw [toNat_microsOf, UInt64.toNat_mod]
  have h := u.perSecond_pos
  rw [Nat.div_lt_iff_lt_mul h, Nat.mul_comm 1000000]
  exact Nat.mul_lt_mul_of_pos_right (Nat.mod_lt _ h) (by decide)

/-- The time `ticks` ticks take, cut down to whole microseconds. -/
def toDuration (u : TimeUnit) (ticks : UInt64) : Duration where
  secs := ticks / u.perSecond
  nanos := UInt32.ofBitVec ((u.microsOf (ticks % u.perSecond)).setWidth 32) * 1000
  nanos_lt := by
    have h := u.toNat_microsOf_mod_lt ticks
    have h' : (u.microsOf (ticks % u.perSecond)).toNat * 1000 < 1000000000 := by omega
    have h1000 : (1000 : UInt32).toNat = 1000 := rfl
    rw [UInt32.toNat_mul, UInt32.toNat_ofBitVec, BitVec.toNat_setWidth, h1000,
      Nat.mod_eq_of_lt (Nat.lt_trans h (by decide) : _ < 2 ^ 32),
      Nat.mod_eq_of_lt (Nat.lt_trans h' (by decide) : _ < 2 ^ 32)]
    exact h'

end TimeUnit

end Readiness
