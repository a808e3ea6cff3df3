import Mathlib.Tactic.Zify
import Nox.Model.CryptoNoteCore.WordArithmetic
import Nox.Proofs.Common.IntUtil
import Nox.Proofs.CryptoNoteCore.Reward

/-! # The block size penalty is an exact division

On the domain `getPenalizedAmount` asserts (sizes within `uint32_t`, the block at most twice the
median) the multiplier `size * (2 * median - size)` is at most the median's square, so it fits a
word; `mul128` forms the exact product with the amount and the two divisions by the median give
`⌊amount * size * (2 * median - size) / median²⌋`. For a block larger than the median the
multiplier is below the square, so the quotient is below the amount and its high word is 0. The
word-level function therefore agrees with the currency model's `getPenalizedAmount`.

The reward that `getBlockReward` adds up from the penalized base reward and fee is a `uint64_t`,
and the emission change an `int64_t`: both are exact only while the fee is small enough, which
the function does not check.
-/

namespace Nox.CryptoNote

/-- A block larger than the median has a multiplier below the median's square. -/
theorem size_mul_lt_square {medianSize currentBlockSize : ℕ} (above : medianSize < currentBlockSize)
    (within : currentBlockSize ≤ 2 * medianSize) :
    currentBlockSize * (2 * medianSize - currentBlockSize) < medianSize * medianSize := by
  -- `s * (2 * m - s) = m * m - (s - m) ^ 2`
  zify [within]
  nlinarith

namespace WordLevel

section Domain

variable {medianSize currentBlockSize : ℕ} (within : currentBlockSize ≤ 2 * medianSize)
  (medianFits : medianSize ≤ 2 ^ 32 - 1) (sizeFits : currentBlockSize ≤ 2 ^ 32 - 1)
include within medianFits sizeFits

/-- The multiplier is computed in `size_t` without wrapping. -/
theorem toNat_multiplier :
    (UInt64.ofNat currentBlockSize * (2 * UInt64.ofNat medianSize - UInt64.ofNat currentBlockSize)).toNat =
      currentBlockSize * (2 * medianSize - currentBlockSize) := by
  have square := size_mul_le_square medianSize currentBlockSize
  have squareFits : medianSize * medianSize < 2 ^ 64 := IntUtil.half_mul_lt (by omega) (by omega)
  have size : (UInt64.ofNat currentBlockSize).toNat = currentBlockSize := by
    rw [UInt64.toNat_ofNat']
    omega
  have twice : (2 * UInt64.ofNat medianSize).toNat = 2 * medianSize := by
    rw [UInt64.toNat_mul, UInt64.toNat_ofNat']
    simp only [UInt64.reduceToNat]
    omega
  have difference : (2 * UInt64.ofNat medianSize - UInt64.ofNat currentBlockSize).toNat =
      2 * medianSize - currentBlockSize := by
    rw [UInt64.toNat_sub_of_le _ _ (UInt64.le_iff_toNat_le.mpr (by omega)), twice, size]
  rw [UInt64.toNat_mul, size, difference, Nat.mod_eq_of_lt (by omega)]

/-- The two quotient words hold the amount times the multiplier, divided by the median's square. -/
theorem penalizedAmountWords_value (amount : UInt64) (positive : 0 < medianSize) :
    (penalizedAmountWords amount medianSize currentBlockSize).1.toNat * 2 ^ 64 +
        (penalizedAmountWords amount medianSize currentBlockSize).2.toNat =
      amount.toNat * (currentBlockSize * (2 * medianSize - currentBlockSize)) / (medianSize * medianSize) := by
  have divisor : (UInt32.ofNat medianSize).toNat = medianSize := by
    rw [UInt32.toNat_ofNat']
    omega
  have divisorPositive : 0 < (UInt32.ofNat medianSize).toNat := by
    rw [divisor]
    exact positive
  obtain ⟨productLo, productHi, product⟩ : ∃ lo hi, IntUtil.mul128 amount
      (UInt64.ofNat currentBlockSize * (2 * UInt64.ofNat medianSize - UInt64.ofNat currentBlockSize)) = (lo, hi) :=
    ⟨_, _, rfl⟩
  have productValue := IntUtil.mul128_value amount
    (UInt64.ofNat currentBlockSize * (2 * UInt64.ofNat medianSize - UInt64.ofNat currentBlockSize))
  rw [product, toNat_multiplier within medianFits sizeFits] at productValue
  obtain ⟨remainder, quotientHi, quotientLo, first⟩ : ∃ r hi lo,
      IntUtil.div128_32 productHi productLo (UInt32.ofNat medianSize) = (r, hi, lo) := ⟨_, _, _, rfl⟩
  have firstValue := (IntUtil.div128_32_value productHi productLo divisorPositive).1
  rw [first, divisor] at firstValue
  dsimp only at productValue firstValue
  have secondValue := (IntUtil.div128_32_value quotientHi quotientLo divisorPositive).1
  rw [divisor, firstValue, productValue, Nat.div_div_eq_div_mul] at secondValue
  simp only [penalizedAmountWords, product, first]
  exact secondValue

end Domain

/-- A block larger than the median, within the domain the source asserts, gets the exact quotient,
below the amount, with a zero high word. -/
theorem getPenalizedAmount_exact_of_above {amount : UInt64} {medianSize currentBlockSize : ℕ}
    (nonzero : 0 < amount.toNat) (above : medianSize < currentBlockSize)
    (within : currentBlockSize ≤ 2 * medianSize) (medianFits : medianSize ≤ 2 ^ 32 - 1)
    (sizeFits : currentBlockSize ≤ 2 ^ 32 - 1) :
    (penalizedAmountWords amount medianSize currentBlockSize).1 = 0 ∧
      (getPenalizedAmount amount medianSize currentBlockSize).toNat =
        amount.toNat * (currentBlockSize * (2 * medianSize - currentBlockSize)) / (medianSize * medianSize) ∧
      getPenalizedAmount amount medianSize currentBlockSize < amount := by
  have value := penalizedAmountWords_value within medianFits sizeFits amount (by omega)
  have below : amount.toNat * (currentBlockSize * (2 * medianSize - currentBlockSize)) /
      (medianSize * medianSize) < amount.toNat := by
    apply Nat.div_lt_of_lt_mul
    rw [Nat.mul_comm (medianSize * medianSize)]
    exact Nat.mul_lt_mul_of_pos_left (size_mul_lt_square above within) nonzero
  have fits := amount.toNat_lt
  have high : (penalizedAmountWords amount medianSize currentBlockSize).1.toNat = 0 := by omega
  have notZero : amount ≠ 0 := fun zero => by simp [zero] at nonzero
  simp only [getPenalizedAmount, notZero, if_false, show ¬ currentBlockSize ≤ medianSize by omega]
  refine ⟨UInt64.toNat_inj.mp high, by omega, UInt64.lt_iff_toNat_lt.mpr (by omega)⟩

end WordLevel

/-- On the asserted domain the currency model's penalty is the one the words compute. -/
theorem getPenalizedAmount_eq_wordLevel (amount : UInt64) {medianSize currentBlockSize : ℕ}
    (within : currentBlockSize ≤ 2 * medianSize) (medianFits : medianSize ≤ 2 ^ 32 - 1)
    (sizeFits : currentBlockSize ≤ 2 ^ 32 - 1) :
    getPenalizedAmount amount medianSize currentBlockSize =
      WordLevel.getPenalizedAmount amount medianSize currentBlockSize := by
  unfold getPenalizedAmount WordLevel.getPenalizedAmount
  split_ifs with zero within'
  · rfl
  · rfl
  · have square := size_mul_le_square medianSize currentBlockSize
    have squareFits : medianSize * medianSize < 2 ^ 64 := IntUtil.half_mul_lt (by omega) (by omega)
    have nonzero : 0 < amount.toNat := Nat.pos_of_ne_zero fun h => zero (UInt64.toNat_inj.mp h)
    have value := WordLevel.penalizedAmountWords_value within medianFits sizeFits amount (by omega)
    have high := (WordLevel.getPenalizedAmount_exact_of_above nonzero (by omega) within medianFits sizeFits).1
    rw [high, UInt64.toNat_zero, Nat.zero_mul, Nat.zero_add] at value
    dsimp only
    rw [Nat.mod_eq_of_lt (by omega), Nat.div_div_eq_div_mul, ← value, UInt64.ofNat_toNat]

namespace Currency

/-- While the supply and the fee stay below `2 ^ 63` together, the reward of `getBlockReward` is
the true sum of the penalized base reward and fee, and the emission change, read as the `int64_t`
it is, is the reward less the fee. -/
theorem getBlockReward_exact {currency : Currency} {blockMajorVersion : UInt8} {medianSize currentBlockSize : ℕ}
    {alreadyGeneratedCoins fee reward emissionChange : UInt64}
    (genesisReward : currency.genesisBlockReward ≤ currency.moneySupply)
    (withinSupply : alreadyGeneratedCoins ≤ currency.moneySupply)
    (small : currency.moneySupply.toNat + fee.toNat < 2 ^ 63)
    (rewarded : currency.getBlockReward blockMajorVersion medianSize currentBlockSize alreadyGeneratedCoins fee =
      some (reward, emissionChange)) :
    ∃ penalizedBaseReward penalizedFee : UInt64,
      penalizedBaseReward.toNat ≤ currency.moneySupply.toNat - alreadyGeneratedCoins.toNat ∧
      penalizedFee.toNat ≤ fee.toNat ∧
      reward.toNat = penalizedBaseReward.toNat + penalizedFee.toNat ∧
      emissionChange.toInt64.toInt = (reward.toNat : ℤ) - fee.toNat := by
  obtain ⟨penalizedBaseReward, penalizedFee, base, penalized, rewardEq, emissionEq⟩ :=
    getBlockReward_eq_some genesisReward withinSupply rewarded
  have sum : reward.toNat = penalizedBaseReward.toNat + penalizedFee.toNat := by
    rw [rewardEq]
    exact UInt64.toNat_add_of_lt (by omega)
  have removed : (fee - penalizedFee).toNat = fee.toNat - penalizedFee.toNat :=
    UInt64.toNat_sub_of_le _ _ (UInt64.le_iff_toNat_le.mpr penalized)
  refine ⟨penalizedBaseReward, penalizedFee, base, penalized, sum, ?_⟩
  -- the change is negative exactly when the penalty took more of the fee than the base reward pays
  rw [emissionEq, UInt64.toInt_toInt64, UInt64.toNat_sub, removed, sum]
  split_ifs <;> omega

end Currency

end Nox.CryptoNote
