import Mathlib.Algebra.Order.BigOperators.Group.List
import Nox.Proofs.CryptoNoteCore.Decompose
import Nox.Soundness.BlockTemplate

/-! # The miner transaction pays the block reward exactly

`decompose_amount_into_digits` hands its handlers positive values that add up to the amount: the
dust once, within the threshold, and the chunks `d * 10 ^ e` in increasing `e`. `constructMinerTx`
merges the tail of the decomposed reward until at most `maxOuts` amounts are left, which keeps them
positive and keeps their sum, and pays one output per amount, so the sum it checks at the end is the
block reward: the transaction is refused only for an extra nonce that is too long or a key
derivation that fails.
-/

namespace Nox.CryptoNote

theorem toNat_chunkPart_value {chunk : ℕ × ℕ} (fits : chunk.1 * 10 ^ chunk.2 < 2 ^ 64) :
    (chunkPart chunk).value.toNat = chunk.1 * 10 ^ chunk.2 := by
  rw [chunkPart, AmountPart.value, UInt64.toNat_ofNat', Nat.mod_eq_of_lt fits]

/-- The handler calls of `decompose_amount_into_digits`: positive values adding up to the amount,
at most one dust call and within the threshold, and chunks `d * 10 ^ e` with `1 ≤ d ≤ 9` in
increasing `e`. -/
theorem decomposeAmountIntoParts_handlers (amount dustThreshold : UInt64) :
    (∀ part ∈ decomposeAmountIntoParts amount dustThreshold, 0 < part.value.toNat) ∧
    ((decomposeAmountIntoParts amount dustThreshold).map (·.value.toNat)).sum = amount.toNat ∧
    ((decomposeAmountIntoParts amount dustThreshold).filter (·.isDust)).length ≤ 1 ∧
    (∀ part ∈ decomposeAmountIntoParts amount dustThreshold, part.isDust = true → part.value ≤ dustThreshold) ∧
    ∃ chunks : List (ℕ × ℕ),
      ((decomposeAmountIntoParts amount dustThreshold).filter (!·.isDust)).map (·.value.toNat) =
        chunks.map (fun chunk => chunk.1 * 10 ^ chunk.2) ∧
      (∀ chunk ∈ chunks, 1 ≤ chunk.1 ∧ chunk.1 ≤ 9) ∧ (chunks.map Prod.snd).Pairwise (· < ·) := by
  obtain ⟨dust, chunks, partsEq, sum, dustLe, digits, increasing⟩ :=
    decomposeAmountIntoParts_eq amount dustThreshold
  have fits := amount.toNat_lt
  -- every chunk is at most the amount, so its value fits a word
  have chunkFits (chunk : ℕ × ℕ) (member : chunk ∈ chunks) : chunk.1 * 10 ^ chunk.2 < 2 ^ 64 := by
    have := List.le_sum_of_mem (show chunk.1 * 10 ^ chunk.2 ∈ chunks.map (fun chunk : ℕ × ℕ => chunk.1 * 10 ^ chunk.2)
      from List.mem_map_of_mem member)
    omega
  have chunkValues : (chunks.map chunkPart).map (·.value.toNat) = chunks.map (fun chunk => chunk.1 * 10 ^ chunk.2) := by
    rw [List.map_map]
    exact List.map_congr_left fun chunk member => toNat_chunkPart_value (chunkFits chunk member)
  have chunksNotDust : (chunks.map chunkPart).filter (·.isDust) = [] :=
    List.filter_eq_nil_iff.mpr fun part member => by
      obtain ⟨chunk, -, rfl⟩ := List.mem_map.mp member
      simp [chunkPart, AmountPart.isDust]
  have chunksKept : (chunks.map chunkPart).filter (!·.isDust) = chunks.map chunkPart :=
    List.filter_eq_self.mpr fun part member => by
      obtain ⟨chunk, -, rfl⟩ := List.mem_map.mp member
      simp [chunkPart, AmountPart.isDust]
  rw [partsEq]
  refine ⟨?positive, ?sum, ?once, ?threshold, chunks, ?chunks, digits, increasing⟩
  case positive =>
    intro part member
    rcases List.mem_append.mp member with dustMember | chunkMember
    · split_ifs at dustMember with zero
      · cases dustMember
      · rw [List.mem_singleton.mp dustMember, AmountPart.value]
        exact Nat.pos_of_ne_zero fun toNatZero => zero (UInt64.toNat_inj.mp toNatZero)
    · obtain ⟨chunk, chunkIn, rfl⟩ := List.mem_map.mp chunkMember
      rw [toNat_chunkPart_value (chunkFits chunk chunkIn)]
      exact Nat.mul_pos (digits chunk chunkIn).1 (Nat.pos_of_ne_zero (by positivity))
  case sum =>
    rw [List.map_append, List.sum_append, chunkValues]
    split_ifs with zero
    · rw [zero] at sum
      simpa using sum
    · simpa [AmountPart.value] using sum
  case once =>
    rw [List.filter_append, chunksNotDust, List.append_nil]
    refine (List.length_filter_le _ _).trans ?_
    split_ifs <;> simp
  case threshold =>
    intro part member dustPart
    rcases List.mem_append.mp member with dustMember | chunkMember
    · split_ifs at dustMember
      · cases dustMember
      · rw [List.mem_singleton.mp dustMember]
        exact dustLe
    · obtain ⟨chunk, -, rfl⟩ := List.mem_map.mp chunkMember
      cases dustPart
  case chunks =>
    rw [List.filter_append, chunksKept, List.map_append, chunkValues]
    split_ifs <;> simp [AmountPart.isDust]

-- the example of the source's comment: 455827 is the dust below a threshold of 1000000
example : decomposeAmountIntoParts 62387455827 1000000 =
    [.dust 455827, .chunk 7000000, .chunk 80000000, .chunk 300000000, .chunk 2000000000, .chunk 60000000000] := by
  decide

section Merge

variable {maxOuts : ℕ} {outAmounts : List UInt64}

theorem mergeOutAmounts_length (atLeastOne : 1 ≤ maxOuts) : (mergeOutAmounts maxOuts outAmounts).length ≤ maxOuts := by
  unfold mergeOutAmounts
  split_ifs with short
  · exact short
  · simp only [List.length_append, List.length_take, List.length_singleton]
    omega

/-- The merged amount is the true sum of the tail while the whole stays below `2 ^ 64`. -/
theorem mergeOutAmounts_sum (small : (outAmounts.map UInt64.toNat).sum < 2 ^ 64) :
    ((mergeOutAmounts maxOuts outAmounts).map UInt64.toNat).sum = (outAmounts.map UInt64.toNat).sum := by
  unfold mergeOutAmounts
  split_ifs
  · rfl
  · have whole := List.take_append_drop (maxOuts - 1) outAmounts
    have split : (outAmounts.map UInt64.toNat).sum =
        ((outAmounts.take (maxOuts - 1)).map UInt64.toNat).sum + ((outAmounts.drop (maxOuts - 1)).map UInt64.toNat).sum := by
      rw [← List.sum_append, ← List.map_append, whole]
    rw [List.map_append, List.sum_append, List.map_singleton, List.sum_singleton, ← List.sum_eq_foldl,
      UInt64.toNat_sum_of_lt _ (by omega), split]

theorem mergeOutAmounts_pos (positive : ∀ amount ∈ outAmounts, 0 < amount.toNat)
    (small : (outAmounts.map UInt64.toNat).sum < 2 ^ 64) :
    ∀ amount ∈ mergeOutAmounts maxOuts outAmounts, 0 < amount.toNat := by
  unfold mergeOutAmounts
  split_ifs with short
  · exact positive
  · intro amount member
    rcases List.mem_append.mp member with kept | merged
    · exact positive amount (List.mem_of_mem_take kept)
    · rw [List.mem_singleton.mp merged, ← List.sum_eq_foldl]
      -- the merged tail is not empty, and every amount in it is positive
      have tailSmall : ((outAmounts.drop (maxOuts - 1)).map UInt64.toNat).sum < 2 ^ 64 := by
        have := List.take_append_drop (maxOuts - 1) outAmounts
        have total : (outAmounts.map UInt64.toNat).sum = ((outAmounts.take (maxOuts - 1)).map UInt64.toNat).sum +
            ((outAmounts.drop (maxOuts - 1)).map UInt64.toNat).sum := by
          rw [← List.sum_append, ← List.map_append, this]
        omega
      obtain ⟨first, rest, tailEq⟩ : ∃ first rest, outAmounts.drop (maxOuts - 1) = first :: rest :=
        List.exists_cons_of_ne_nil (by simp only [ne_eq, List.drop_eq_nil_iff]; omega)
      have firstPositive := positive first (List.mem_of_mem_drop (tailEq ▸ List.mem_cons_self))
      rw [UInt64.toNat_sum_of_lt _ tailSmall, tailEq, List.map_cons, List.sum_cons]
      omega

end Merge

/-- The outputs pay the amounts they were derived for, in order. -/
theorem deriveOutputs_amounts {environment : TemplateEnvironment} {minerAddress : AccountPublicAddress} :
    ∀ {no : ℕ} {amounts : List UInt64} {outputs : List TransactionOutput},
      deriveOutputs environment minerAddress no amounts = some outputs → outputs.map (·.amount) = amounts
  | _, [], outputs, derived => by
    cases derived
    rfl
  | no, amount :: amounts, outputs, derived => by
    simp only [deriveOutputs, bind, Option.bind_eq_some_iff, pure, Option.some.injEq] at derived
    obtain ⟨derivation, -, key, -, rest, restDerived, rfl⟩ := derived
    rw [List.map_cons, deriveOutputs_amounts restDerived]

section Reward

variable {currency : Currency} {environment : TemplateEnvironment} {blockMajorVersion : UInt8}
  {height medianSize currentBlockSize maxOuts : ℕ} {alreadyGeneratedCoins fee blockReward emissionChange : UInt64}
  {minerAddress : AccountPublicAddress} {extraNonce : List UInt8}

/-- The amounts `constructMinerTx` pays are at most `maxOuts`, positive, and add up to the reward. -/
theorem minerAmounts_pay_reward (blockReward dustThreshold : UInt64) (atLeastOne : 1 ≤ maxOuts) :
    (mergeOutAmounts maxOuts (decomposeAmountIntoDigits blockReward dustThreshold)).length ≤ maxOuts ∧
    (∀ amount ∈ mergeOutAmounts maxOuts (decomposeAmountIntoDigits blockReward dustThreshold), 0 < amount.toNat) ∧
    ((mergeOutAmounts maxOuts (decomposeAmountIntoDigits blockReward dustThreshold)).map UInt64.toNat).sum =
      blockReward.toNat := by
  obtain ⟨positive, sum, -⟩ := decomposeAmountIntoParts_handlers blockReward dustThreshold
  have values : (decomposeAmountIntoDigits blockReward dustThreshold).map UInt64.toNat =
      (decomposeAmountIntoParts blockReward dustThreshold).map (·.value.toNat) := by
    rw [decomposeAmountIntoDigits_eq_parts, List.map_map]
    rfl
  have small : ((decomposeAmountIntoDigits blockReward dustThreshold).map UInt64.toNat).sum < 2 ^ 64 := by
    rw [values, sum]
    exact blockReward.toNat_lt
  have decomposedPositive : ∀ amount ∈ decomposeAmountIntoDigits blockReward dustThreshold, 0 < amount.toNat := by
    intro amount member
    rw [decomposeAmountIntoDigits_eq_parts] at member
    obtain ⟨part, partMember, rfl⟩ := List.mem_map.mp member
    exact positive part partMember
  refine ⟨mergeOutAmounts_length atLeastOne, mergeOutAmounts_pos decomposedPositive small, ?_⟩
  rw [mergeOutAmounts_sum small, values, sum]

/-- The sum `constructMinerTx` checks at the end is the reward. -/
theorem minerOutputs_sum (atLeastOne : 1 ≤ maxOuts) (dustThreshold : UInt64) {outputs : List TransactionOutput}
    (derived : deriveOutputs environment minerAddress 0
      (mergeOutAmounts maxOuts (decomposeAmountIntoDigits blockReward dustThreshold)) = some outputs) :
    (outputs.map (·.amount)).foldl (· + ·) 0 = blockReward := by
  obtain ⟨-, -, sum⟩ := minerAmounts_pay_reward blockReward dustThreshold atLeastOne
  rw [deriveOutputs_amounts derived, ← List.sum_eq_foldl]
  apply UInt64.toNat_inj.mp
  rw [UInt64.toNat_sum_of_lt _ (by rw [sum]; exact blockReward.toNat_lt), sum]

/-- After the reward, `constructMinerTx` pays the decomposed amounts and fails only on an extra
nonce that is too long or on a key derivation that fails: its final check always passes. -/
theorem constructMinerTx_of_reward (atLeastOne : 1 ≤ maxOuts)
    (rewarded : currency.getBlockReward blockMajorVersion medianSize currentBlockSize alreadyGeneratedCoins fee =
      some (blockReward, emissionChange)) :
    (∀ transaction, currency.constructMinerTx environment blockMajorVersion height medianSize alreadyGeneratedCoins
        currentBlockSize fee minerAddress extraNonce maxOuts = some transaction →
      transaction.outputs.map (·.amount) =
        mergeOutAmounts maxOuts (decomposeAmountIntoDigits blockReward (currency.defaultDustThresholdAt height))) ∧
    ((currency.constructMinerTx environment blockMajorVersion height medianSize alreadyGeneratedCoins
        currentBlockSize fee minerAddress extraNonce maxOuts).isSome ↔
      (extraNonce = [] ∨ extraNonce.length ≤ TX_EXTRA_NONCE_MAX_COUNT) ∧
        (deriveOutputs environment minerAddress 0
          (mergeOutAmounts maxOuts (decomposeAmountIntoDigits blockReward (currency.defaultDustThresholdAt height)))).isSome) := by
  unfold Currency.constructMinerTx
  simp only [rewarded, bind, Option.bind_some, pure, if_neg (show ¬ maxOuts < 1 by omega)]
  cases derived : deriveOutputs environment minerAddress 0
      (mergeOutAmounts maxOuts (decomposeAmountIntoDigits blockReward (currency.defaultDustThresholdAt height))) with
  | none =>
    refine ⟨?_, by simp⟩
    intro transaction built
    split_ifs at built
    · simp at built
    · simp [addExtraNonceToTransactionExtra] at built
  | some outputs =>
    have checked := minerOutputs_sum atLeastOne (currency.defaultDustThresholdAt height) derived
    have amounts := deriveOutputs_amounts derived
    simp only [Option.bind_some, checked, ne_eq, not_true_eq_false, if_false, Option.isSome_some, and_true]
    by_cases empty : extraNonce = []
    · simp [empty, amounts]
    · simp only [List.isEmpty_eq_false_iff.mpr empty, Bool.false_eq_true, if_false, addExtraNonceToTransactionExtra,
        empty, false_or]
      split_ifs with long
      · simp only [Option.bind_none, reduceCtorEq, false_iff, not_le, Option.isSome_none, Bool.false_eq_true,
          IsEmpty.forall_iff, implies_true, true_and]
        exact long
      · simp only [Option.bind_some, Option.some.injEq, Option.isSome_some, true_iff]
        exact ⟨fun transaction built => by rw [← built, amounts], not_lt.mp long⟩

end Reward


/-- The handlers of `decompose_amount_into_digits` receive positive values adding up to the
amount, the dust handler at most once and within the threshold, the chunk handler `d * 10 ^ e` with
`1 ≤ d ≤ 9` in increasing `e`; `constructMinerTx`, once the reward is granted, pays at most
`maxOuts` positive amounts adding up to the reward, and its final check never fails. -/
theorem minerTransaction_pays_reward :
    (∀ amount dustThreshold : UInt64,
      (∀ part ∈ decomposeAmountIntoParts amount dustThreshold, 0 < part.value.toNat) ∧
      ((decomposeAmountIntoParts amount dustThreshold).map (·.value.toNat)).sum = amount.toNat ∧
      ((decomposeAmountIntoParts amount dustThreshold).filter (·.isDust)).length ≤ 1 ∧
      (∀ part ∈ decomposeAmountIntoParts amount dustThreshold, part.isDust = true → part.value ≤ dustThreshold) ∧
      ∃ chunks : List (ℕ × ℕ),
        ((decomposeAmountIntoParts amount dustThreshold).filter (!·.isDust)).map (·.value.toNat) =
          chunks.map (fun chunk => chunk.1 * 10 ^ chunk.2) ∧
        (∀ chunk ∈ chunks, 1 ≤ chunk.1 ∧ chunk.1 ≤ 9) ∧ (chunks.map Prod.snd).Pairwise (· < ·)) ∧
    (∀ (currency : Currency) (environment : TemplateEnvironment) (blockMajorVersion : UInt8)
        (height medianSize : ℕ) (alreadyGeneratedCoins : UInt64) (currentBlockSize : ℕ) (fee : UInt64)
        (minerAddress : AccountPublicAddress) (extraNonce : List UInt8) (maxOuts : ℕ)
        (blockReward emissionChange : UInt64),
      1 ≤ maxOuts →
      currency.getBlockReward blockMajorVersion medianSize currentBlockSize alreadyGeneratedCoins fee =
        some (blockReward, emissionChange) →
      (mergeOutAmounts maxOuts (decomposeAmountIntoDigits blockReward (currency.defaultDustThresholdAt height))).length ≤
        maxOuts ∧
      (∀ amount ∈ mergeOutAmounts maxOuts (decomposeAmountIntoDigits blockReward (currency.defaultDustThresholdAt height)),
        0 < amount.toNat) ∧
      ((mergeOutAmounts maxOuts (decomposeAmountIntoDigits blockReward (currency.defaultDustThresholdAt height))).map
        UInt64.toNat).sum = blockReward.toNat ∧
      (∀ transaction, currency.constructMinerTx environment blockMajorVersion height medianSize alreadyGeneratedCoins
          currentBlockSize fee minerAddress extraNonce maxOuts = some transaction →
        transaction.outputs.map (·.amount) =
          mergeOutAmounts maxOuts (decomposeAmountIntoDigits blockReward (currency.defaultDustThresholdAt height))) ∧
      ((currency.constructMinerTx environment blockMajorVersion height medianSize alreadyGeneratedCoins
          currentBlockSize fee minerAddress extraNonce maxOuts).isSome ↔
        (extraNonce = [] ∨ extraNonce.length ≤ TX_EXTRA_NONCE_MAX_COUNT) ∧
          (deriveOutputs environment minerAddress 0
            (mergeOutAmounts maxOuts
              (decomposeAmountIntoDigits blockReward (currency.defaultDustThresholdAt height)))).isSome)) := by
  refine ⟨decomposeAmountIntoParts_handlers, ?_⟩
  intro currency environment blockMajorVersion height medianSize alreadyGeneratedCoins currentBlockSize fee
    minerAddress extraNonce maxOuts blockReward emissionChange atLeastOne rewarded
  obtain ⟨length, positive, sum⟩ :=
    minerAmounts_pay_reward blockReward (currency.defaultDustThresholdAt height) atLeastOne
  exact ⟨length, positive, sum, constructMinerTx_of_reward atLeastOne rewarded⟩

open Scenario in
/-- The first reward of the configured currency, 2980232, paid to the scenario's miner in at most
three outputs. -/
theorem minerTransaction_pays_reward_first_block :
    1 ≤ 3 ∧ currency.getBlockReward 1 0 0 0 0 = some (2980232, 2980232) ∧
    (mergeOutAmounts 3 (decomposeAmountIntoDigits 2980232 (currency.defaultDustThresholdAt 1))).length ≤ 3 ∧
    (∀ amount ∈ mergeOutAmounts 3 (decomposeAmountIntoDigits 2980232 (currency.defaultDustThresholdAt 1)),
      0 < amount.toNat) ∧
    ((mergeOutAmounts 3 (decomposeAmountIntoDigits 2980232 (currency.defaultDustThresholdAt 1))).map
      UInt64.toNat).sum = (2980232 : UInt64).toNat ∧
    (∀ transaction, currency.constructMinerTx templateEnvironment 1 1 0 0 0 0 miner [] 3 = some transaction →
      transaction.outputs.map (·.amount) =
        mergeOutAmounts 3 (decomposeAmountIntoDigits 2980232 (currency.defaultDustThresholdAt 1))) ∧
    ((currency.constructMinerTx templateEnvironment 1 1 0 0 0 0 miner [] 3).isSome ↔
      ([] = ([] : List UInt8) ∨ ([] : List UInt8).length ≤ TX_EXTRA_NONCE_MAX_COUNT) ∧
        (deriveOutputs templateEnvironment miner 0
          (mergeOutAmounts 3 (decomposeAmountIntoDigits 2980232 (currency.defaultDustThresholdAt 1)))).isSome) :=
  ⟨by decide, by decide,
    minerTransaction_pays_reward.2 currency templateEnvironment 1 1 0 0 0 0 miner [] 3 2980232 2980232
      (by decide) (by decide)⟩

end Nox.CryptoNote
