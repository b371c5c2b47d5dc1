namespace Readiness

/-!
# Little-endian numbers

`LittleEndian.encode w n` writes the low `w` bytes of `n`, least significant byte first;
`LittleEndian.decode` reads a number back. `decode_encode` says that nothing but the bytes beyond
the width is lost.
-/

namespace LittleEndian

/-- The low `w` bytes of `n`, least significant byte first. -/
def encode : (w : Nat) → (n : Nat) → List UInt8
  | 0, _ => []
  | w + 1, n => n.toUInt8 :: encode w (n / 256)

/-- The number these bytes stand for. -/
def decode : List UInt8 → Nat
  | [] => 0
  | b :: bs => b.toNat + 256 * decode bs

@[simp] theorem length_encode (w n : Nat) : (encode w n).length = w := by
  induction w generalizing n with
  | zero => rfl
  | succ w ih => simp [encode, ih]

/-- A number comes back up to its bytes beyond the width. -/
theorem decode_encode (w n : Nat) : decode (encode w n) = n % Nat.pow 256 w := by
  show decode (encode w n) = n % 256 ^ w
  induction w generalizing n with
  | zero => simp [encode, decode, Nat.mod_one]
  | succ w ih =>
    rw [encode, decode, ih, Nat.pow_succ, Nat.mul_comm (256 ^ w), Nat.mod_mul]
    rfl

/-- Bytes stand for a number below the power of 256 given by their count. -/
theorem decode_lt (bs : List UInt8) : decode bs < Nat.pow 256 bs.length := by
  show decode bs < 256 ^ bs.length
  induction bs with
  | nil => simp [decode]
  | cons b bs ih =>
    have := b.toNat_lt
    rw [decode, List.length_cons, Nat.pow_succ]
    omega

/-- Writing a number that was read gives its bytes again. -/
theorem encode_decode (bs : List UInt8) : encode bs.length (decode bs) = bs := by
  induction bs with
  | nil => rfl
  | cons b bs ih =>
    have hb := b.toNat_lt
    have hdiv : (b.toNat + 256 * decode bs) / 256 = decode bs := by omega
    have hmod : (b.toNat + 256 * decode bs).toUInt8 = b := by
      apply UInt8.toNat_inj.mp
      show (b.toNat + 256 * decode bs) % 256 = b.toNat
      omega
    rw [List.length_cons, decode, encode, hdiv, hmod, ih]

end LittleEndian

end Readiness
