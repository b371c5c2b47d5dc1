namespace Readiness

/-!
# Durations

A `Duration` counts whole seconds in 64 bits and nanoseconds below one second in 32. `toNanos` is
its view as a number; order and subtraction go through it.
-/

/-- A span of time, never negative. -/
structure Duration where
  /-- The whole seconds. -/
  secs : UInt64
  /-- The nanoseconds beyond the whole seconds. -/
  nanos : UInt32
  /-- The nanoseconds stay below one second. -/
  nanos_lt : nanos.toNat < 1000000000
deriving DecidableEq

namespace Duration

/-- No time at all. -/
def zero : Duration := ⟨0, 0, by decide⟩

instance : Inhabited Duration := ⟨zero⟩

/-- The whole span in nanoseconds. -/
def toNanos (d : Duration) : Nat := d.secs.toNat * 1000000000 + d.nanos.toNat

/-- The span of `n` nanoseconds; the seconds wrap once they leave 64 bits. -/
def ofNanos (n : Nat) : Duration where
  secs := (n / 1000000000).toUInt64
  nanos := (n % 1000000000).toUInt32
  nanos_lt := by
    have : n % 1000000000 < 1000000000 := Nat.mod_lt _ (by decide)
    show (UInt32.ofNat _).toNat < _
    rw [UInt32.toNat_ofNat_of_lt' (by omega : n % 1000000000 < 2 ^ 32)]
    exact this

/-- The span of `n` milliseconds. -/
def ofMillis (n : Nat) : Duration := ofNanos (n * 1000000)

instance : LE Duration := ⟨fun a b => a.toNanos ≤ b.toNanos⟩

instance : LT Duration := ⟨fun a b => a.toNanos < b.toNanos⟩

instance (a b : Duration) : Decidable (a ≤ b) := inferInstanceAs (Decidable (a.toNanos ≤ b.toNanos))

instance (a b : Duration) : Decidable (a < b) := inferInstanceAs (Decidable (a.toNanos < b.toNanos))

/-- The span by which `a` exceeds `b`, zero if it does not. -/
instance : Sub Duration := ⟨fun a b => ofNanos (a.toNanos - b.toNanos)⟩

/-- What is left of `limit` once `elapsed` has passed; `none` when the limit is reached. -/
def left? (limit elapsed : Duration) : Option Duration :=
  if limit ≤ elapsed then none else some (limit - elapsed)

/-! ### Laws of the view -/

theorem le_def (a b : Duration) : a ≤ b ↔ a.toNanos ≤ b.toNanos := Iff.rfl

theorem lt_def (a b : Duration) : a < b ↔ a.toNanos < b.toNanos := Iff.rfl

/-- A count of nanoseconds whose seconds fit 64 bits comes back. -/
theorem toNanos_ofNanos {n : Nat} (h : n / 1000000000 < UInt64.size) : (ofNanos n).toNanos = n := by
  have h1 : (ofNanos n).secs.toNat = n / 1000000000 := UInt64.toNat_ofNat_of_lt' h
  have h2 : (ofNanos n).nanos.toNat = n % 1000000000 :=
    UInt32.toNat_ofNat_of_lt' (by omega : n % 1000000000 < 2 ^ 32)
  unfold toNanos
  omega

/-- The seconds of a span are its nanoseconds, divided. -/
theorem toNanos_div (d : Duration) : d.toNanos / 1000000000 = d.secs.toNat := by
  have := d.nanos_lt
  unfold toNanos
  omega

/-- Subtraction is exact, and stops at zero. -/
theorem toNanos_sub (a b : Duration) : (a - b).toNanos = a.toNanos - b.toNanos := by
  refine toNanos_ofNanos ?_
  have h1 : (a.toNanos - b.toNanos) / 1000000000 ≤ a.toNanos / 1000000000 :=
    Nat.div_le_div_right (Nat.sub_le _ _)
  have h2 := a.toNanos_div
  have h3 : a.secs.toNat < UInt64.size := a.secs.toNat_lt
  omega

/-- A span is determined by its nanoseconds. -/
theorem ext_toNanos {a b : Duration} (h : a.toNanos = b.toNanos) : a = b := by
  have ha := a.nanos_lt
  have hb := b.nanos_lt
  unfold toNanos at h
  have h1 : a.secs.toNat = b.secs.toNat := by omega
  have h2 : a.nanos.toNat = b.nanos.toNat := by omega
  cases a; cases b
  simp only [Duration.mk.injEq]
  exact ⟨UInt64.toNat_inj.mp h1, UInt32.toNat_inj.mp h2⟩

end Duration

end Readiness
