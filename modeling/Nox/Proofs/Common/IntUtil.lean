import Nox.Model.Common.IntUtil
import Nox.Library.Words

/-! # What `mul128` and `div128_32` compute

`mul128` returns the two words of the true product: the partial products of the halves fit a word
each, and the two comparisons catch exactly the carries of the middle sum and of the low word.
`div128_32` returns the true quotient and remainder of a two-word number by a nonzero 32-bit
divisor: each step divides a remainder below the divisor with one more digit, so each quotient
digit fits 32 bits and the digits reassemble into the quotient.
-/

namespace Nox.IntUtil

theorem half_mul_lt {x y : ℕ} (hx : x < 2 ^ 32) (hy : y < 2 ^ 32) : x * y < 2 ^ 64 :=
  calc x * y < 2 ^ 32 * 2 ^ 32 := Nat.mul_lt_mul'' hx hy
    _ = 2 ^ 64 := by norm_num

@[simp] theorem toNat_hiDword (val : UInt64) : (hiDword val).toNat = val.toNat / 2 ^ 32 :=
  UInt64.toNat_shiftRight_32 val

@[simp] theorem toNat_loDword (val : UInt64) : (loDword val).toNat = val.toNat % 2 ^ 32 :=
  UInt64.toNat_and_low32 val

theorem hiDword_lt (val : UInt64) : (hiDword val).toNat < 2 ^ 32 := by
  rw [toNat_hiDword]
  have := val.toNat_lt
  omega

theorem loDword_lt (val : UInt64) : (loDword val).toNat < 2 ^ 32 := by
  rw [toNat_loDword]
  exact Nat.mod_lt _ (by norm_num)

theorem toNat_mul_of_halves {x y : UInt64} (hx : x.toNat < 2 ^ 32) (hy : y.toNat < 2 ^ 32) :
    (x * y).toNat = x.toNat * y.toNat := by
  rw [UInt64.toNat_mul, Nat.mod_eq_of_lt (half_mul_lt hx hy)]

/-- The high and the low word of `mul128` make the product. -/
theorem mul128_value (multiplier multiplicand : UInt64) :
    (mul128 multiplier multiplicand).2.toNat * 2 ^ 64 + (mul128 multiplier multiplicand).1.toNat =
      multiplier.toNat * multiplicand.toNat := by
  have halves := Nat.mul_eq_halves multiplier.toNat multiplicand.toNat
  have product := Nat.mul_lt_mul'' multiplier.toNat_lt multiplicand.toNat_lt
  have ac := half_mul_lt (hiDword_lt multiplier) (hiDword_lt multiplicand)
  have ad := half_mul_lt (hiDword_lt multiplier) (loDword_lt multiplicand)
  have bc := half_mul_lt (loDword_lt multiplier) (hiDword_lt multiplicand)
  have bd := half_mul_lt (loDword_lt multiplier) (loDword_lt multiplicand)
  simp only [toNat_hiDword, toNat_loDword] at ac ad bc bd
  unfold mul128
  dsimp only
  simp only [UInt64.add_lt_left_iff, UInt64.toNat_add, UInt64.toNat_shiftLeft_32, UInt64.toNat_shiftRight_32,
    toNat_mul_of_halves (hiDword_lt _) (hiDword_lt _), toNat_mul_of_halves (hiDword_lt _) (loDword_lt _),
    toNat_mul_of_halves (loDword_lt _) (hiDword_lt _), toNat_mul_of_halves (loDword_lt _) (loDword_lt _),
    toNat_hiDword, toNat_loDword]
  -- one case for each pair of carries; the product bound keeps the high word from wrapping
  split_ifs <;> simp only [UInt64.toNat_one, UInt64.toNat_zero] <;> omega

/-- `mul128` is the exact product, split into its low and its high word. -/
theorem mul128_eq (multiplier multiplicand : UInt64) :
    mul128 multiplier multiplicand =
      (UInt64.ofNat (multiplier.toNat * multiplicand.toNat % 2 ^ 64),
        UInt64.ofNat (multiplier.toNat * multiplicand.toNat / 2 ^ 64)) := by
  have value := mul128_value multiplier multiplicand
  have low := (mul128 multiplier multiplicand).1.toNat_lt
  have high := (mul128 multiplier multiplicand).2.toNat_lt
  ext
  · rw [UInt64.toNat_ofNat', ← value]
    omega
  · rw [UInt64.toNat_ofNat', ← value]
    omega

theorem divWithReminder_step {dividend : UInt64} {divisor remainder : UInt32} (small : dividend.toNat < 2 ^ 32)
    (below : remainder.toNat < divisor.toNat) :
    (divWithReminder dividend divisor remainder).1.toNat < 2 ^ 32 ∧
      (divWithReminder dividend divisor remainder).2.toNat < divisor.toNat ∧
      divisor.toNat * (divWithReminder dividend divisor remainder).1.toNat +
          (divWithReminder dividend divisor remainder).2.toNat =
        remainder.toNat * 2 ^ 32 + dividend.toNat := by
  have placed : (dividend ||| (remainder.toUInt64 <<< 32)).toNat = remainder.toNat * 2 ^ 32 + dividend.toNat := by
    rw [UInt64.toNat_or_shiftLeft_32 _ _ small, UInt32.toNat_toUInt64, Nat.mod_eq_of_lt remainder.toNat_lt]
  have positive : 0 < divisor.toNat := by omega
  have remainderLt : (remainder.toNat * 2 ^ 32 + dividend.toNat) % divisor.toNat < divisor.toNat :=
    Nat.mod_lt _ positive
  simp only [divWithReminder, UInt64.toNat_div, UInt64.toNat_toUInt32, UInt64.toNat_mod, UInt32.toNat_toUInt64, placed]
  rw [Nat.mod_eq_of_lt (remainderLt.trans divisor.toNat_lt)]
  exact ⟨Nat.div_lt_base_of_lt below small, remainderLt, Nat.div_add_mod _ _⟩

theorem div128_32_value (dividendHi dividendLo : UInt64) {divisor : UInt32} (positive : 0 < divisor.toNat) :
    (div128_32 dividendHi dividendLo divisor).2.1.toNat * 2 ^ 64 + (div128_32 dividendHi dividendLo divisor).2.2.toNat =
        (dividendHi.toNat * 2 ^ 64 + dividendLo.toNat) / divisor.toNat ∧
      (div128_32 dividendHi dividendLo divisor).1.toNat =
        (dividendHi.toNat * 2 ^ 64 + dividendLo.toNat) % divisor.toNat := by
  -- the four digits are divided highest first, each remainder carried into the next digit
  obtain ⟨quotient3, remainder3, step3⟩ : ∃ q r, divWithReminder (hiDword dividendHi) divisor 0 = (q, r) :=
    ⟨_, _, rfl⟩
  have digit3 := divWithReminder_step (hiDword_lt dividendHi) (show (0 : UInt32).toNat < divisor.toNat from positive)
  rw [step3] at digit3
  obtain ⟨small3, below3, value3⟩ := digit3
  obtain ⟨quotient2, remainder2, step2⟩ : ∃ q r, divWithReminder (loDword dividendHi) divisor remainder3 = (q, r) :=
    ⟨_, _, rfl⟩
  have digit2 := divWithReminder_step (loDword_lt dividendHi) below3
  rw [step2] at digit2
  obtain ⟨small2, below2, value2⟩ := digit2
  obtain ⟨quotient1, remainder1, step1⟩ : ∃ q r, divWithReminder (hiDword dividendLo) divisor remainder2 = (q, r) :=
    ⟨_, _, rfl⟩
  have digit1 := divWithReminder_step (hiDword_lt dividendLo) below2
  rw [step1] at digit1
  obtain ⟨small1, below1, value1⟩ := digit1
  obtain ⟨quotient0, remainder0, step0⟩ : ∃ q r, divWithReminder (loDword dividendLo) divisor remainder1 = (q, r) :=
    ⟨_, _, rfl⟩
  have digit0 := divWithReminder_step (loDword_lt dividendLo) below1
  rw [step0] at digit0
  obtain ⟨small0, below0, value0⟩ := digit0
  simp only [UInt32.toNat_zero, Nat.zero_mul, Nat.zero_add, toNat_hiDword, toNat_loDword] at value3 value2 value1 value0
  have dividend : dividendHi.toNat * 2 ^ 64 + dividendLo.toNat =
      remainder0.toNat + divisor.toNat *
        (quotient3.toNat * 2 ^ 96 + quotient2.toNat * 2 ^ 64 + quotient1.toNat * 2 ^ 32 + quotient0.toNat) := by
    have hi := Nat.div_add_mod dividendHi.toNat (2 ^ 32)
    have lo := Nat.div_add_mod dividendLo.toNat (2 ^ 32)
    rw [Nat.mul_add, Nat.mul_add, Nat.mul_add, ← Nat.mul_assoc, ← Nat.mul_assoc, ← Nat.mul_assoc]
    omega
  have quotient : (dividendHi.toNat * 2 ^ 64 + dividendLo.toNat) / divisor.toNat =
      quotient3.toNat * 2 ^ 96 + quotient2.toNat * 2 ^ 64 + quotient1.toNat * 2 ^ 32 + quotient0.toNat := by
    rw [dividend, Nat.add_mul_div_left _ _ positive, Nat.div_eq_of_lt below0, Nat.zero_add]
  have remainder : (dividendHi.toNat * 2 ^ 64 + dividendLo.toNat) % divisor.toNat = remainder0.toNat := by
    rw [dividend, Nat.add_mul_mod_self_left, Nat.mod_eq_of_lt below0]
  simp only [div128_32, step3, step2, step1, step0]
  rw [UInt64.toNat_shiftLeft_32_or _ _ small2, UInt64.toNat_shiftLeft_32_or _ _ small0,
    Nat.mod_eq_of_lt small3, Nat.mod_eq_of_lt small1, quotient, remainder]
  exact ⟨by ring, rfl⟩

end Nox.IntUtil
