import Mathlib.Data.Rat.Cast.Order
import Mathlib.Tactic.Ring
import Readiness.Time.Timeout

namespace Readiness

/-!
# Exact conversion of ticks

A count of ticks is converted by machine words: a quotient and a remainder of 64 bits, a product of
128 bits, a cast back, and a sum of two durations.  Each of these steps can go wrong by itself.

* `Word` — the operations on machine words that fail where a machine would: on a zero divisor, and
  when a result does not fit;
* `Duration.add?` — the sum of two durations, with the carry of a full second, which fails when the
  seconds leave 64 bits (`Duration.add?_eq_some`);
* `TimeUnit.toDuration?` — the conversion, step by step.  No step of it ever fails, and it gives
  `TimeUnit.toDuration` (`TimeUnit.toDuration?_eq`);
* `TimeUnit.exactNanos` — the time that ticks take, as a rational number;
* `TimeUnit.conversion_exact` — the conversion cuts this time down to whole microseconds, and
  timeouts are read accordingly.
-/

/-! ### Words -/

namespace Word

variable {w : Nat}

/-- The sum of two words; none if it does not fit a word. -/
def add? (a b : BitVec w) : Option (BitVec w) := if a.uaddOverflow b then none else some (a + b)

/-- The product of two words; none if it does not fit a word. -/
def mul? (a b : BitVec w) : Option (BitVec w) := if a.umulOverflow b then none else some (a * b)

/-- The quotient of two words; none if the divisor is zero. -/
def div? (a b : BitVec w) : Option (BitVec w) := if b = 0 then none else some (a / b)

/-- The remainder of two words; none if the divisor is zero. -/
def mod? (a b : BitVec w) : Option (BitVec w) := if b = 0 then none else some (a % b)

theorem add?_eq_some {a b : BitVec w} (h : a.toNat + b.toNat < Nat.pow 2 w) :
    ∃ c, add? a b = some c ∧ c.toNat = a.toNat + b.toNat := by
  have hno : a.uaddOverflow b = false := by
    unfold BitVec.uaddOverflow
    exact decide_eq_false (Nat.not_le.mpr h)
  refine ⟨a + b, ?_, BitVec.toNat_add_of_lt h⟩
  unfold add?
  rw [hno]
  rfl

theorem mul?_eq_some {a b : BitVec w} (h : a.toNat * b.toNat < Nat.pow 2 w) :
    ∃ c, mul? a b = some c ∧ c.toNat = a.toNat * b.toNat := by
  have hno : a.umulOverflow b = false := by
    unfold BitVec.umulOverflow
    exact decide_eq_false (Nat.not_le.mpr h)
  refine ⟨a * b, ?_, BitVec.toNat_mul_of_lt h⟩
  unfold mul?
  rw [hno]
  rfl

theorem div?_eq_some (a : BitVec w) {b : BitVec w} (h : 0 < b.toNat) :
    ∃ c, div? a b = some c ∧ c.toNat = a.toNat / b.toNat := by
  have hb : b ≠ 0 := by
    rintro rfl
    simp at h
  refine ⟨a / b, ?_, BitVec.toNat_udiv⟩
  unfold div?
  rw [if_neg hb]

theorem mod?_eq_some (a : BitVec w) {b : BitVec w} (h : 0 < b.toNat) :
    ∃ c, mod? a b = some c ∧ c.toNat = a.toNat % b.toNat := by
  have hb : b ≠ 0 := by
    rintro rfl
    simp at h
  refine ⟨a % b, ?_, BitVec.toNat_umod⟩
  unfold mod?
  rw [if_neg hb]

end Word

/-! ### Durations -/

namespace Duration

/-- The duration with these fields; none if the nanoseconds make a second. -/
def ofFields? (secs : BitVec 64) (nanos : BitVec 32) : Option Duration :=
  if h : nanos.toNat < 1000000000 then some ⟨⟨secs⟩, ⟨nanos⟩, h⟩ else none

/-- The duration of `n` microseconds. -/
def ofMicros? (n : BitVec 64) : Option Duration := do
  let secs ← Word.div? n 1000000#64
  let rest ← Word.mod? n 1000000#64
  let nanos ← Word.mul? (rest.setWidth 32) 1000#32
  ofFields? secs nanos

/-- The sum of two durations; none if the seconds leave 64 bits. -/
def add? (a b : Duration) : Option Duration := do
  let secs ← Word.add? a.secs.toBitVec b.secs.toBitVec
  let nanos ← Word.add? a.nanos.toBitVec b.nanos.toBitVec
  if nanos.toNat < 1000000000 then ofFields? secs nanos
  else
    -- A full second is carried over.
    let secs ← Word.add? secs 1#64
    ofFields? secs (nanos - 1000000000#32)

theorem ofFields?_eq_some (secs : BitVec 64) {nanos : BitVec 32} (h : nanos.toNat < 1000000000) :
    ∃ d, ofFields? secs nanos = some d ∧
      d.toNanos = secs.toNat * 1000000000 + nanos.toNat := by
  refine ⟨⟨⟨secs⟩, ⟨nanos⟩, h⟩, ?_, rfl⟩
  unfold ofFields?
  rw [dif_pos h]

/-- Microseconds always make a duration. -/
theorem ofMicros?_eq_some (n : BitVec 64) :
    ∃ d, ofMicros? n = some d ∧ d.toNanos = n.toNat * 1000 := by
  obtain ⟨secs, hsecs, hsecs_eq : secs.toNat = n.toNat / 1000000⟩ :=
    Word.div?_eq_some n (b := 1000000#64) (by decide)
  obtain ⟨rest, hrest, hrest_eq : rest.toNat = n.toNat % 1000000⟩ :=
    Word.mod?_eq_some n (b := 1000000#64) (by decide)
  have hcut : (rest.setWidth 32).toNat = rest.toNat := by
    rw [BitVec.toNat_setWidth]
    exact Nat.mod_eq_of_lt (by omega)
  obtain ⟨nanos, hnanos, hnanos_eq : nanos.toNat = (rest.setWidth 32).toNat * 1000⟩ :=
    Word.mul?_eq_some (a := rest.setWidth 32) (b := 1000#32) (by
      show (rest.setWidth 32).toNat * 1000 < 4294967296
      omega)
  have hsum : secs.toNat * 1000000000 + nanos.toNat = n.toNat * 1000 := by omega
  have hbelow : nanos.toNat < 1000000000 := by omega
  obtain ⟨d, hd, hd_eq⟩ := ofFields?_eq_some secs hbelow
  refine ⟨d, ?_, hd_eq.trans hsum⟩
  unfold ofMicros?
  refine Option.bind_eq_some_iff.mpr ⟨secs, hsecs, ?_⟩
  refine Option.bind_eq_some_iff.mpr ⟨rest, hrest, ?_⟩
  exact Option.bind_eq_some_iff.mpr ⟨nanos, hnanos, hd⟩

/-- A sum whose seconds fit 64 bits is exact. -/
theorem add?_eq_some {a b : Duration} (h : (a.toNanos + b.toNanos) / 1000000000 < UInt64.size) :
    ∃ d, a.add? b = some d ∧ d.toNanos = a.toNanos + b.toNanos := by
  have ha := a.nanos_lt
  have hb := b.nanos_lt
  replace h : (a.secs.toNat * 1000000000 + a.nanos.toNat +
      (b.secs.toNat * 1000000000 + b.nanos.toNat)) / 1000000000 < 18446744073709551616 := h
  obtain ⟨secs, hsecs, hsecs_eq : secs.toNat = a.secs.toNat + b.secs.toNat⟩ :=
    Word.add?_eq_some (a := a.secs.toBitVec) (b := b.secs.toBitVec) (by
      show a.secs.toNat + b.secs.toNat < 18446744073709551616
      omega)
  obtain ⟨nanos, hnanos, hnanos_eq : nanos.toNat = a.nanos.toNat + b.nanos.toNat⟩ :=
    Word.add?_eq_some (a := a.nanos.toBitVec) (b := b.nanos.toBitVec) (by
      show a.nanos.toNat + b.nanos.toNat < 4294967296
      omega)
  have hsum : secs.toNat * 1000000000 + nanos.toNat = a.toNanos + b.toNanos := by
    unfold toNanos
    omega
  by_cases hfull : nanos.toNat < 1000000000
  · obtain ⟨d, hd, hd_eq⟩ := ofFields?_eq_some secs hfull
    refine ⟨d, ?_, hd_eq.trans hsum⟩
    simp only [add?, hsecs, hnanos, hd, Option.bind_eq_bind, Option.bind_some, if_pos hfull]
  · obtain ⟨carried, hcarried, hcarried_eq : carried.toNat = secs.toNat + 1⟩ :=
      Word.add?_eq_some (a := secs) (b := 1#64) (by
        clear hsum
        show secs.toNat + 1 < 18446744073709551616
        omega)
    have hrest : (nanos - 1000000000#32).toNat = nanos.toNat - 1000000000 :=
      BitVec.toNat_sub_of_le (BitVec.le_def.mpr (Nat.le_of_not_lt hfull))
    have hcarry : carried.toNat * 1000000000 + (nanos - 1000000000#32).toNat =
        secs.toNat * 1000000000 + nanos.toNat := by
      clear hsum
      omega
    have hbelow : (nanos - 1000000000#32).toNat < 1000000000 := by
      clear hsum
      omega
    obtain ⟨d, hd, hd_eq⟩ := ofFields?_eq_some carried hbelow
    refine ⟨d, ?_, hd_eq.trans (hcarry.trans hsum)⟩
    simp only [add?, hsecs, hnanos, hcarried, hd, Option.bind_eq_bind, Option.bind_some,
      if_neg hfull]

end Duration

/-! ### Ticks -/

namespace TimeUnit

/-- The microseconds of `rest` ticks, formed in 128 bits and cast back to 64; none if a step goes
    wrong. -/
def micros? (u : TimeUnit) (rest : BitVec 64) : Option (BitVec 64) := do
  let product ← Word.mul? (rest.setWidth 128) 1000000#128
  let micros ← Word.div? product (u.perSecond.toBitVec.setWidth 128)
  some (micros.setWidth 64)

/-- The time that `ticks` ticks take, cut down to whole microseconds; none if a step goes wrong. -/
def toDuration? (u : TimeUnit) (ticks : UInt64) : Option Duration := do
  let secs ← Word.div? ticks.toBitVec u.perSecond.toBitVec
  let rest ← Word.mod? ticks.toBitVec u.perSecond.toBitVec
  let micros ← u.micros? rest
  let whole ← Duration.ofFields? secs 0#32
  let fraction ← Duration.ofMicros? micros
  whole.add? fraction

/-- The time that `ticks` ticks take, in nanoseconds. -/
def exactNanos (u : TimeUnit) (ticks : UInt64) : ℚ := ticks.toNat * 1000000000 / u.perSecond.toNat

/-- Whole seconds and the microseconds of the rest make up all microseconds. -/
theorem div_mul_add_mod_mul_div (n m : Nat) {p : Nat} (hp : 0 < p) :
    n / p * m + n % p * m / p = n * m / p := by
  have hsplit : n * m = n % p * m + p * (n / p * m) := by
    calc n * m = (p * (n / p) + n % p) * m := by rw [Nat.div_add_mod]
      _ = n % p * m + p * (n / p * m) := by rw [Nat.add_mul, Nat.add_comm, Nat.mul_assoc]
  rw [hsplit, Nat.add_mul_div_left _ _ hp, Nat.add_comm]

/-- The seconds of a conversion. -/
theorem secs_toDuration (u : TimeUnit) (ticks : UInt64) :
    (u.toDuration ticks).secs.toNat = ticks.toNat / u.perSecond.toNat :=
  UInt64.toNat_div _ _

/-- The whole of a conversion. -/
theorem toNanos_toDuration (u : TimeUnit) (ticks : UInt64) :
    (u.toDuration ticks).toNanos = 1000 * (ticks.toNat * 1000000 / u.perSecond.toNat) := by
  have hlt := u.toNat_microsOf_mod_lt ticks
  have hmicros : (u.microsOf (ticks % u.perSecond)).toNat =
      ticks.toNat % u.perSecond.toNat * 1000000 / u.perSecond.toNat := by
    rw [toNat_microsOf, UInt64.toNat_mod]
  have hthousand : (1000 : UInt32).toNat = 1000 := rfl
  have hnanos : (u.toDuration ticks).nanos.toNat =
      (u.microsOf (ticks % u.perSecond)).toNat * 1000 := by
    show (UInt32.ofBitVec _ * 1000).toNat = _
    rw [UInt32.toNat_mul, UInt32.toNat_ofBitVec, BitVec.toNat_setWidth, hthousand,
      Nat.mod_eq_of_lt (by omega : _ < 2 ^ 32), Nat.mod_eq_of_lt (by omega : _ < 2 ^ 32)]
  have hsum := div_mul_add_mod_mul_div ticks.toNat 1000000 u.perSecond_pos
  unfold Duration.toNanos
  rw [secs_toDuration, hnanos, hmicros, ← hsum]
  ring

/-- The microseconds of a rest below a second fit 128 bits on the way, and 64 bits in the end. -/
theorem micros?_eq_some (u : TimeUnit) {rest : BitVec 64} (h : rest.toNat < u.perSecond.toNat) :
    ∃ micros, u.micros? rest = some micros ∧
      micros.toNat = rest.toNat * 1000000 / u.perSecond.toNat ∧ micros.toNat < 1000000 := by
  have hpos := u.perSecond_pos
  have hper : (u.perSecond.toBitVec.setWidth 128).toNat = u.perSecond.toNat :=
    BitVec.toNat_setWidth_of_le (by decide)
  have hwide : (rest.setWidth 128).toNat = rest.toNat := BitVec.toNat_setWidth_of_le (by decide)
  obtain ⟨product, hproduct, hproduct_eq : product.toNat = (rest.setWidth 128).toNat * 1000000⟩ :=
    Word.mul?_eq_some (a := rest.setWidth 128) (b := 1000000#128) (by
      have hlt := rest.isLt
      show (rest.setWidth 128).toNat * 1000000 < 340282366920938463463374607431768211456
      omega)
  obtain ⟨micros, hmicros, hmicros_eq⟩ :=
    Word.div?_eq_some product (b := u.perSecond.toBitVec.setWidth 128) (hper ▸ hpos)
  rw [hper, hproduct_eq, hwide] at hmicros_eq
  have hmicros_lt : micros.toNat < 1000000 := by
    rw [hmicros_eq, Nat.div_lt_iff_lt_mul hpos, Nat.mul_comm 1000000]
    exact Nat.mul_lt_mul_of_pos_right h (by decide)
  have hcast : (micros.setWidth 64).toNat = micros.toNat := by
    rw [BitVec.toNat_setWidth]
    exact Nat.mod_eq_of_lt (Nat.lt_trans hmicros_lt (by decide))
  refine ⟨micros.setWidth 64, ?_, hcast.trans hmicros_eq, hcast ▸ hmicros_lt⟩
  unfold micros?
  refine Option.bind_eq_some_iff.mpr ⟨product, hproduct, ?_⟩
  exact Option.bind_eq_some_iff.mpr ⟨micros, hmicros, rfl⟩

/-- **No step of a conversion goes wrong**: there is a divisor, the product fits 128 bits, the cast
    loses nothing, and the seconds stay in 64 bits. -/
theorem toDuration?_eq (u : TimeUnit) (ticks : UInt64) :
    u.toDuration? ticks = some (u.toDuration ticks) := by
  have hpos := u.perSecond_pos
  obtain ⟨secs, hsecs, hsecs_eq : secs.toNat = ticks.toNat / u.perSecond.toNat⟩ :=
    Word.div?_eq_some ticks.toBitVec hpos
  obtain ⟨rest, hrest, hrest_eq : rest.toNat = ticks.toNat % u.perSecond.toNat⟩ :=
    Word.mod?_eq_some ticks.toBitVec hpos
  have hrest_lt : rest.toNat < u.perSecond.toNat := by
    rw [hrest_eq]
    exact Nat.mod_lt _ hpos
  obtain ⟨micros, hmicros, hmicros_eq, hmicros_lt⟩ := u.micros?_eq_some hrest_lt
  obtain ⟨whole, hwhole, hwhole_eq⟩ :=
    Duration.ofFields?_eq_some secs (by decide : (0#32).toNat < 1000000000)
  rw [BitVec.toNat_zero, Nat.add_zero] at hwhole_eq
  obtain ⟨fraction, hfraction, hfraction_eq⟩ := Duration.ofMicros?_eq_some micros
  have hfits : (whole.toNanos + fraction.toNanos) / 1000000000 < UInt64.size := by
    have hlt : secs.toNat < 18446744073709551616 := secs.isLt
    rw [hwhole_eq, hfraction_eq]
    show _ < 18446744073709551616
    clear hmicros_eq hwhole_eq hfraction_eq
    omega
  obtain ⟨d, hd, hd_eq⟩ := Duration.add?_eq_some hfits
  have hsame : d = u.toDuration ticks := by
    apply Duration.ext_toNanos
    have hsum := div_mul_add_mod_mul_div ticks.toNat 1000000 hpos
    rw [toNanos_toDuration, hd_eq, hwhole_eq, hfraction_eq, hmicros_eq, hrest_eq, hsecs_eq, ← hsum]
    ring
  rw [← hsame]
  unfold toDuration?
  refine Option.bind_eq_some_iff.mpr ⟨secs, hsecs, ?_⟩
  refine Option.bind_eq_some_iff.mpr ⟨rest, hrest, ?_⟩
  refine Option.bind_eq_some_iff.mpr ⟨micros, hmicros, ?_⟩
  refine Option.bind_eq_some_iff.mpr ⟨whole, hwhole, ?_⟩
  exact Option.bind_eq_some_iff.mpr ⟨fraction, hfraction, hd⟩

/-- A conversion never exceeds the exact time. -/
theorem toNanos_toDuration_le (u : TimeUnit) (ticks : UInt64) :
    ((u.toDuration ticks).toNanos : ℚ) ≤ u.exactNanos ticks := by
  have hpos : (0 : ℚ) < u.perSecond.toNat := Nat.cast_pos.mpr u.perSecond_pos
  have hle : (u.toDuration ticks).toNanos * u.perSecond.toNat ≤ ticks.toNat * 1000000000 := by
    rw [toNanos_toDuration]
    calc 1000 * (ticks.toNat * 1000000 / u.perSecond.toNat) * u.perSecond.toNat
        = 1000 * (ticks.toNat * 1000000 / u.perSecond.toNat * u.perSecond.toNat) :=
          Nat.mul_assoc _ _ _
      _ ≤ 1000 * (ticks.toNat * 1000000) := Nat.mul_le_mul_left _ (Nat.div_mul_le_self _ _)
      _ = ticks.toNat * 1000000000 := by ring
  unfold exactNanos
  rw [le_div_iff₀ hpos]
  exact_mod_cast hle

/-- And it falls short of it by less than a microsecond. -/
theorem exactNanos_lt (u : TimeUnit) (ticks : UInt64) :
    u.exactNanos ticks < (u.toDuration ticks).toNanos + 1000 := by
  have hpos : (0 : ℚ) < u.perSecond.toNat := Nat.cast_pos.mpr u.perSecond_pos
  have hlt : ticks.toNat * 1000000000 <
      ((u.toDuration ticks).toNanos + 1000) * u.perSecond.toNat := by
    have hdiv := Nat.lt_mul_div_succ (ticks.toNat * 1000000) u.perSecond_pos
    rw [toNanos_toDuration]
    calc ticks.toNat * 1000000000 = 1000 * (ticks.toNat * 1000000) := by ring
      _ < 1000 * (u.perSecond.toNat * (ticks.toNat * 1000000 / u.perSecond.toNat + 1)) :=
          Nat.mul_lt_mul_of_pos_left hdiv (by decide)
      _ = (1000 * (ticks.toNat * 1000000 / u.perSecond.toNat) + 1000) * u.perSecond.toNat := by ring
  unfold exactNanos
  rw [div_lt_iff₀ hpos]
  exact_mod_cast hlt

/-- More ticks do not take less time. -/
theorem toDuration_mono (u : TimeUnit) {ticks more : UInt64} (h : ticks ≤ more) :
    u.toDuration ticks ≤ u.toDuration more := by
  rw [Duration.le_def, toNanos_toDuration, toNanos_toDuration]
  exact Nat.mul_le_mul_left _
    (Nat.div_le_div_right (Nat.mul_le_mul_right _ (UInt64.le_iff_toNat_le.mp h)))

end TimeUnit

/-! ### Timeouts -/

namespace Timeout

/-- How a timeout is read: negative ticks block, none poll, and any others bound the wait by the
    time they take. -/
theorem ofTicks_cases (ticks : Int64) (u : TimeUnit) :
    (ticks.toInt < 0 ∧ ofTicks ticks u = .block) ∨ (ticks.toInt = 0 ∧ ofTicks ticks u = .poll) ∨
    (0 < ticks.toInt ∧ ∃ n : UInt64, (n.toNat : Int) = ticks.toInt ∧
      ofTicks ticks u = .bounded (u.toDuration n)) := by
  unfold ofTicks
  have hneg : ticks < 0 ↔ ticks.toInt < 0 := Int64.lt_iff_toInt_lt
  have hzero : ticks = 0 ↔ ticks.toInt = 0 := Int64.toInt_inj.symm
  rcases Int.lt_trichotomy ticks.toInt 0 with h | h | h
  · exact Or.inl ⟨h, if_pos (hneg.mpr h)⟩
  · have hnot : ¬ ticks < 0 := fun h' => by
      have := hneg.mp h'
      omega
    exact Or.inr (Or.inl ⟨h, by rw [if_neg hnot, if_pos (hzero.mpr h)]⟩)
  · have hnot : ¬ ticks < 0 := fun h' => by
      have := hneg.mp h'
      omega
    have hne : ¬ ticks = 0 := fun h' => by
      have := hzero.mp h'
      omega
    refine Or.inr (Or.inr ⟨h, ticks.toUInt64, ?_, by rw [if_neg hnot, if_neg hne]⟩)
    -- The sign bit is clear, so the bits stand for the same number without a sign.
    have hsign : 2 * ticks.toBitVec.toNat < Nat.pow 2 64 :=
      BitVec.toInt_pos_iff.mp (Int.le_of_lt h)
    exact (BitVec.toInt_eq_toNat_of_lt hsign).symm

end Timeout

/-! ### Every count of ticks -/

/-- **Conversion is exact truncation.**  Take any count of ticks of 64 bits, and any number of ticks
    per second but zero.  Converting it by machine words never goes wrong.  The result is the exact
    time, cut down to whole microseconds: it does not exceed it, falls short of it by less than a
    microsecond, has its whole seconds, and is monotone in the ticks.  A signed count of ticks is
    read as a timeout: a negative one blocks, zero polls, and any other bounds the wait by its
    conversion. -/
theorem TimeUnit.conversion_exact (u : TimeUnit) (ticks : UInt64) :
    u.toDuration? ticks = some (u.toDuration ticks) ∧
    (u.toDuration ticks).toNanos = 1000 * (ticks.toNat * 1000000 / u.perSecond.toNat) ∧
    (u.toDuration ticks).toNanos ≤ u.exactNanos ticks ∧
    u.exactNanos ticks < (u.toDuration ticks).toNanos + 1000 ∧
    (u.toDuration ticks).secs.toNat = ticks.toNat / u.perSecond.toNat ∧
    (∀ more, ticks ≤ more → u.toDuration ticks ≤ u.toDuration more) ∧
    ∀ timeout : Int64,
      (timeout.toInt < 0 ∧ Timeout.ofTicks timeout u = .block) ∨
      (timeout.toInt = 0 ∧ Timeout.ofTicks timeout u = .poll) ∨
      (0 < timeout.toInt ∧ ∃ n : UInt64, (n.toNat : Int) = timeout.toInt ∧
        Timeout.ofTicks timeout u = .bounded (u.toDuration n)) :=
  ⟨u.toDuration?_eq ticks, u.toNanos_toDuration ticks, u.toNanos_toDuration_le ticks,
    u.exactNanos_lt ticks, u.secs_toDuration ticks, fun _ h => u.toDuration_mono h,
    fun timeout => Timeout.ofTicks_cases timeout u⟩

/-- The most ticks per second that 64 bits can count, and one tick less than a second: the product
    leaves 64 bits, and the result is cut down to 999999 microseconds.  One more tick makes the
    second full. -/
theorem TimeUnit.conversion_exact_largest :
    ∃ u : TimeUnit, u.perSecond.toNat = 2 ^ 64 - 1 ∧
      u.toDuration? 18446744073709551614 = some (u.toDuration 18446744073709551614) ∧
      (u.toDuration 18446744073709551614).toNanos = 999999000 ∧
      (u.toDuration 18446744073709551614).secs.toNat = 0 ∧
      (18446744073709551614 : UInt64) ≤ 18446744073709551615 ∧
      u.toDuration 18446744073709551614 ≤ u.toDuration 18446744073709551615 ∧
      (u.toDuration 18446744073709551615).toNanos = 1000000000 := by
  let u : TimeUnit := ⟨18446744073709551615, by decide⟩
  obtain ⟨hrun, hnanos, -, -, hsecs, hmono, -⟩ := u.conversion_exact 18446744073709551614
  obtain ⟨-, hfull, -⟩ := u.conversion_exact 18446744073709551615
  exact ⟨u, rfl, hrun, hnanos.trans (by decide), hsecs.trans (by decide), by decide,
    hmono _ (by decide), hfull.trans (by decide)⟩

end Readiness
