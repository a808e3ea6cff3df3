import Mathlib.Data.Nat.Digits.Defs
import Mathlib.Tactic.Ring
import Nox.Library.BoundedQuantifiers

/-! # Words as pairs of half words

Code without a 128-bit type multiplies and divides 64-bit words through their 32-bit halves and
detects a carry by the wrapped sum falling below an addend. These lemmas give the value of each
such step: the halves of a word and their reassembly, the bytes of a word, the carry flags of an
addition, the schoolbook product of two numbers from the four products of their halves, one step
of long division by a half word, and the split of a little-endian number into words.
-/

namespace UInt64

theorem toNat_shiftRight_32 (x : UInt64) : (x >>> 32).toNat = x.toNat / 2 ^ 32 := by
  rw [UInt64.toNat_shiftRight, Nat.shiftRight_eq_div_pow]
  rfl

theorem toNat_and_low32 (x : UInt64) : (x &&& 0xFFFFFFFF).toNat = x.toNat % 2 ^ 32 := by
  rw [UInt64.toNat_and]
  exact Nat.and_two_pow_sub_one_eq_mod x.toNat 32

theorem toNat_shiftLeft_32 (x : UInt64) : (x <<< 32).toNat = x.toNat % 2 ^ 32 * 2 ^ 32 := by
  rw [UInt64.toNat_shiftLeft, Nat.shiftLeft_eq]
  change x.toNat * 2 ^ 32 % 2 ^ 64 = _
  rw [show (2 : ℕ) ^ 64 = 2 ^ 32 * 2 ^ 32 by norm_num, Nat.mul_mod_mul_right]

/-- Placing a half word below a shifted word adds it. -/
theorem toNat_shiftLeft_32_or (high low : UInt64) (small : low.toNat < 2 ^ 32) :
    ((high <<< 32) ||| low).toNat = high.toNat % 2 ^ 32 * 2 ^ 32 + low.toNat := by
  rw [UInt64.toNat_or, toNat_shiftLeft_32, Nat.mul_comm, Nat.two_pow_add_eq_or_of_lt small]

/-- The same with the half word as the left operand, as `dividend |= remainder << 32` writes it. -/
theorem toNat_or_shiftLeft_32 (low high : UInt64) (small : low.toNat < 2 ^ 32) :
    (low ||| (high <<< 32)).toNat = high.toNat % 2 ^ 32 * 2 ^ 32 + low.toNat := by
  rw [UInt64.or_comm]
  exact toNat_shiftLeft_32_or high low small

/-- Placing a byte below a word shifted by a byte adds it, as a big-endian reader does. -/
theorem toNat_shiftLeft_8_or (high : UInt64) (low : UInt8) (small : high.toNat < 2 ^ 56) :
    ((high <<< 8) ||| low.toUInt64).toNat = high.toNat * 2 ^ 8 + low.toNat := by
  rw [UInt64.toNat_or, UInt64.toNat_shiftLeft, Nat.shiftLeft_eq, UInt8.toNat_toUInt64]
  change high.toNat * 2 ^ 8 % 2 ^ 64 ||| low.toNat = _
  rw [Nat.mod_eq_of_lt (by omega), Nat.mul_comm, Nat.two_pow_add_eq_or_of_lt low.toNat_lt]

/-- The byte of a word at one of its eight places. -/
theorem toNat_shiftRight_toUInt8 (x : UInt64) {place : ℕ} (inside : place < 8) :
    (x >>> (8 * place).toUInt64).toUInt8.toNat = x.toNat / 256 ^ place % 256 := by
  have shift : ((8 * place).toUInt64).toNat % 64 = 8 * place := by
    rw [Nat.toUInt64_eq, UInt64.toNat_ofNat', Nat.mod_eq_of_lt (by omega), Nat.mod_eq_of_lt (by omega)]
  rw [UInt64.toNat_toUInt8, UInt64.toNat_shiftRight, shift, Nat.shiftRight_eq_div_pow, pow_mul]
  rfl

/-- The wrapped sum falls below an addend exactly when the sum carries out of the word. -/
theorem add_lt_left_iff (a b : UInt64) : a + b < a ↔ 2 ^ 64 ≤ a.toNat + b.toNat := by
  rw [UInt64.lt_iff_toNat_lt, UInt64.toNat_add]
  have := b.toNat_lt
  omega

/-- A wrapped sum that does not carry is the true sum. -/
theorem toNat_add_of_not_lt {a b : UInt64} (fits : ¬ a + b < a) : (a + b).toNat = a.toNat + b.toNat := by
  rw [add_lt_left_iff] at fits
  rw [UInt64.toNat_add]
  omega

/-- The carry out of `a + b + carry`: the sum of the words carries, or it is the largest word and
the incoming carry is set. -/
theorem carry_iff (a b : UInt64) (carry : Bool) :
    (a + b < a ∨ (carry = true ∧ a + b = 0xFFFFFFFFFFFFFFFF)) ↔ 2 ^ 64 ≤ a.toNat + b.toNat + carry.toNat := by
  rw [add_lt_left_iff, UInt64.ext_iff, UInt64.toNat_add]
  have := a.toNat_lt
  have := b.toNat_lt
  cases carry
  · simp
  · simp
    omega

/-- The `int64_t` a word holds: the word itself below `2 ^ 63`, less `2 ^ 64` from there on. -/
theorem toInt_toInt64 (x : UInt64) :
    x.toInt64.toInt = if 2 * x.toNat < 2 ^ 64 then (x.toNat : ℤ) else (x.toNat : ℤ) - 2 ^ 64 := by
  rw [← Int64.toInt_toBitVec, UInt64.toBitVec_toInt64, BitVec.toInt_eq_toNat_cond, UInt64.toNat_toBitVec]
  push_cast
  rfl

end UInt64

namespace Nat

/-- The schoolbook product of two numbers from the products of their halves. -/
theorem mul_eq_halves (x y : ℕ) :
    x * y = x / 2 ^ 32 * (y / 2 ^ 32) * 2 ^ 64 +
      (x / 2 ^ 32 * (y % 2 ^ 32) + x % 2 ^ 32 * (y / 2 ^ 32)) * 2 ^ 32 + x % 2 ^ 32 * (y % 2 ^ 32) := by
  conv_lhs => rw [← Nat.div_add_mod x (2 ^ 32), ← Nat.div_add_mod y (2 ^ 32)]
  ring

/-- One step of long division by a divisor below the base: a remainder below the divisor with one
more digit gives a quotient digit below the base. -/
theorem div_lt_base_of_lt {remainder digit divisor base : ℕ} (below : remainder < divisor)
    (small : digit < base) : (remainder * base + digit) / divisor < base := by
  apply Nat.div_lt_of_lt_mul
  calc remainder * base + digit < (remainder + 1) * base := by rw [Nat.add_mul, Nat.one_mul]; omega
    _ ≤ divisor * base := Nat.mul_le_mul_right _ below

/-- A little-endian number splits at any digit into its low part and its high part. -/
theorem ofDigits_take_drop (base n : ℕ) (digits : List ℕ) (enough : n ≤ digits.length) :
    Nat.ofDigits base digits = Nat.ofDigits base (digits.take n) + base ^ n * Nat.ofDigits base (digits.drop n) := by
  conv_lhs => rw [← List.take_append_drop n digits]
  rw [Nat.ofDigits_append, List.length_take, Nat.min_eq_left enough]

end Nat
