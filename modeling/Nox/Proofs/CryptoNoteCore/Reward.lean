import Mathlib.Algebra.Order.Ring.Unbundled.Basic
import Mathlib.Tactic.Linarith
import Nox.Model.CryptoNoteCore.Currency
import Nox.Library.Wrapping

/-! # What `getBlockReward` pays

The base reward is a share of the money not yet generated, and the penalty of an oversized block
only shrinks it, as it shrinks the fee from version 2 on: `getPenalizedAmount` multiplies by
`size * (2 * median - size)`, a product of two numbers whose sum is twice the median and hence at
most the median's square, and divides twice by the median. So the reward pays at most what is left
of the supply, plus at most the fee, and the emission change is the penalized base reward less the
part of the fee the penalty removed.
-/

namespace Nox.CryptoNote

/-- Two sizes that add up to twice the median multiply to at most its square; past twice the
median the truncated difference is 0. -/
theorem size_mul_le_square (medianSize currentBlockSize : ℕ) :
    currentBlockSize * (2 * medianSize - currentBlockSize) ≤ medianSize * medianSize := by
  rcases le_or_gt currentBlockSize (2 * medianSize) with within | past
  · have amgm := four_mul_le_sq_add currentBlockSize (2 * medianSize - currentBlockSize)
    rw [show currentBlockSize + (2 * medianSize - currentBlockSize) = 2 * medianSize by omega] at amgm
    nlinarith [amgm]
  · rw [Nat.sub_eq_zero_of_le past.le, Nat.mul_zero]
    exact Nat.zero_le _

/-- The penalty never raises an amount. -/
theorem getPenalizedAmount_le (amount : UInt64) (medianSize currentBlockSize : ℕ) :
    (getPenalizedAmount amount medianSize currentBlockSize).toNat ≤ amount.toNat := by
  unfold getPenalizedAmount
  split_ifs with zero within
  · simp
  · exact le_refl _
  · have multiplier : currentBlockSize * (2 * medianSize - currentBlockSize) % 2 ^ 64 ≤ medianSize * medianSize :=
      (Nat.mod_le _ _).trans (size_mul_le_square medianSize currentBlockSize)
    -- dividing twice by the median is dividing by its square
    have quotient : amount.toNat * (currentBlockSize * (2 * medianSize - currentBlockSize) % 2 ^ 64) /
        medianSize / medianSize ≤ amount.toNat := by
      rw [Nat.div_div_eq_div_mul]
      apply Nat.div_le_of_le_mul
      calc amount.toNat * (currentBlockSize * (2 * medianSize - currentBlockSize) % 2 ^ 64)
          ≤ amount.toNat * (medianSize * medianSize) := Nat.mul_le_mul_left _ multiplier
        _ = medianSize * medianSize * amount.toNat := Nat.mul_comm _ _
    rw [UInt64.toNat_ofNat', Nat.mod_eq_of_lt (lt_of_le_of_lt quotient amount.toNat_lt)]
    exact quotient

namespace Currency

variable (currency : Currency)

/-- The base reward of `getBlockReward` is at most the money not yet generated, when the genesis
reward is within the supply and so are the coins generated so far. -/
theorem baseReward_le {alreadyGeneratedCoins : UInt64}
    (genesisReward : currency.genesisBlockReward ≤ currency.moneySupply)
    (withinSupply : alreadyGeneratedCoins ≤ currency.moneySupply) :
    (if alreadyGeneratedCoins = 0 ∧ currency.genesisBlockReward ≠ 0 then currency.genesisBlockReward
      else (currency.moneySupply - alreadyGeneratedCoins) >>> currency.emissionSpeedFactor.toUInt64).toNat ≤
      currency.moneySupply.toNat - alreadyGeneratedCoins.toNat := by
  split_ifs with genesis
  · rw [genesis.1, UInt64.toNat_zero, Nat.sub_zero]
    exact UInt64.le_iff_toNat_le.mp genesisReward
  · calc _ ≤ (currency.moneySupply - alreadyGeneratedCoins).toNat := UInt64.toNat_shiftRight_le _ _
      _ = _ := UInt64.toNat_sub_of_le _ _ withinSupply

variable {currency}

/-- A reward `getBlockReward` grants is a penalized base reward within what is left of the supply
plus a penalized fee within the fee, and the emission change is the first less the part of the fee
the penalty took. -/
theorem getBlockReward_eq_some {blockMajorVersion : UInt8} {medianSize currentBlockSize : ℕ}
    {alreadyGeneratedCoins fee reward emissionChange : UInt64}
    (genesisReward : currency.genesisBlockReward ≤ currency.moneySupply)
    (withinSupply : alreadyGeneratedCoins ≤ currency.moneySupply)
    (rewarded : currency.getBlockReward blockMajorVersion medianSize currentBlockSize alreadyGeneratedCoins fee =
      some (reward, emissionChange)) :
    ∃ penalizedBaseReward penalizedFee : UInt64,
      penalizedBaseReward.toNat ≤ currency.moneySupply.toNat - alreadyGeneratedCoins.toNat ∧
      penalizedFee.toNat ≤ fee.toNat ∧
      reward = penalizedBaseReward + penalizedFee ∧
      emissionChange = penalizedBaseReward - (fee - penalizedFee) := by
  unfold getBlockReward at rewarded
  dsimp only at rewarded
  split at rewarded
  · cases rewarded
  · obtain ⟨rewardEq, emissionEq⟩ := Prod.mk.inj (Option.some.inj rewarded)
    refine ⟨_, _, (getPenalizedAmount_le _ _ _).trans (currency.baseReward_le genesisReward withinSupply),
      ?_, rewardEq.symm, emissionEq.symm⟩
    -- the fee is penalized from version 2 on and paid in full before
    split_ifs
    · exact getPenalizedAmount_le _ _ _
    · exact le_refl _

end Currency

end Nox.CryptoNote
