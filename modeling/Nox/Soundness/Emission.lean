import Nox.Soundness.SegmentTree
import Nox.Proofs.CryptoNoteCore.AddBlock
import Nox.Proofs.CryptoNoteCore.Amounts
import Nox.Proofs.CryptoNoteCore.Reward
import Nox.Proofs.CryptoNoteCore.PushBlock
import Nox.Library.Ledger

/-! # Emission accounting along a chain

Each block stores the coins generated up to it: those of its previous block plus its emission
change, added in a `uint64_t` although the change is signed. The change is the penalized base
reward less the part of the fee the penalty removed, and the coinbase pays the penalized base
reward plus the penalized fee. So, over the integers, a block adds its coinbase less its fees, and
the coins of a chain are the sum of that over its blocks, provided no addition wraps.

Wrapping is ruled out by two bounds. The base reward is a share of the money not yet generated, so
the coins never pass the supply. Fees are what inputs spend beyond what outputs create; when every
input spends an earlier output once, the fees of a block are at most the coins before it and the
coins after it are not negative. The second bound rests on ring signatures and key images being
sound, which the chain cannot check for itself: it is the hypothesis `Ledger.SpendsEarlier`.

A chain is given as the blocks with their transactions and stored coins, each accepted by
`checkBlock` on top of the one before, on a chain that reports the previous block's coins; the coins
stored for it are those plus its emission change, which `pushBlock` stores for a block pushed on top
of a segment (`BlockchainCache.getAlreadyGeneratedCoins_pushBlock`).
-/

namespace Nox.CryptoNote

open Nox.Crypto

/-- A block of a chain as the emission accounting sees it: the block, its transactions, and the
coins the chain has generated up to it. -/
structure LedgerBlock where
  cachedBlock : CachedBlock
  transactions : List CachedTransaction
  alreadyGeneratedCoins : UInt64

/-- The fee of a transaction: its key inputs less its outputs. -/
def transactionFee (transaction : CachedTransaction) : ℤ :=
  ((keyInputAmounts transaction.transaction.inputs).sum : ℤ) - (outputAmounts transaction.transaction.outputs).sum

namespace LedgerBlock

def coinbaseAmounts (block : LedgerBlock) : List ℕ := outputAmounts block.cachedBlock.block.baseTransaction.outputs

/-- The amounts the block's transactions spend. -/
def spentAmounts (block : LedgerBlock) : List ℕ :=
  block.transactions.flatMap fun transaction => keyInputAmounts transaction.transaction.inputs

/-- The amounts the block creates: its coinbase and its transactions' outputs. -/
def createdAmounts (block : LedgerBlock) : List ℕ :=
  block.coinbaseAmounts ++ block.transactions.flatMap fun transaction => outputAmounts transaction.transaction.outputs

/-- What a block adds to the coins: its coinbase less its fees. -/
def emission (block : LedgerBlock) : ℤ :=
  (block.coinbaseAmounts.sum : ℤ) - (block.transactions.map transactionFee).sum

/-- The genesis block has no transactions and stores its coinbase, within the supply. -/
def IsGenesis (currency : Currency) (block : LedgerBlock) : Prop :=
  block.transactions = [] ∧ block.alreadyGeneratedCoins.toNat = block.coinbaseAmounts.sum ∧
    block.alreadyGeneratedCoins ≤ currency.moneySupply

theorem sum_transactionFee (transactions : List CachedTransaction) :
    (transactions.map transactionFee).sum =
      ((transactions.flatMap fun transaction => keyInputAmounts transaction.transaction.inputs).sum : ℤ) -
        (transactions.flatMap fun transaction => outputAmounts transaction.transaction.outputs).sum := by
  induction transactions with
  | nil => simp
  | cons transaction transactions ih =>
    simp only [List.map_cons, List.sum_cons, List.flatMap_cons, List.sum_append, ih, transactionFee]
    omega

/-- A block's emission is its balance as a ledger block: created less spent. -/
theorem emission_eq_balance (block : LedgerBlock) : block.emission = Ledger.balance spentAmounts createdAmounts [block] := by
  rw [Ledger.balance_singleton, emission, sum_transactionFee]
  simp only [createdAmounts, spentAmounts, List.sum_append]
  omega

theorem sum_emission_eq_balance (blocks : List LedgerBlock) :
    (blocks.map emission).sum = Ledger.balance spentAmounts createdAmounts blocks := by
  induction blocks with
  | nil => simp
  | cons block blocks ih =>
    rw [List.map_cons, List.sum_cons, ih, emission_eq_balance, ← Ledger.balance_append, List.singleton_append]

end LedgerBlock

/-- `block` was accepted by `addBlock` on top of `previous`: `checkBlock` passed for it on a chain
that reports the coins of `previous` at the previous block, and the coins stored for it are those
plus its emission change. -/
def AcceptedAfter (context : CoreContext) (previous block : LedgerBlock) : Prop :=
  ∃ (core : Core) (rawBlock : RawBlock) (accepted : AcceptedBlock),
    core.checkBlock context block.cachedBlock rawBlock = .ok accepted ∧
    accepted.transactions = block.transactions ∧
    (Segment.getAlreadyGeneratedCoins (core.segments accepted.cache) accepted.previousBlockIndex).getD 0 =
      previous.alreadyGeneratedCoins ∧
    block.alreadyGeneratedCoins = previous.alreadyGeneratedCoins + accepted.emissionChange

/-- The fees `validateSemantic` returns are the transactions' fees, and add up to at most what the
transactions spend. -/
theorem fees_of_validateSemantic {primitives : Primitives} {blockIndex : ℕ} {transactions : List CachedTransaction}
    {fees : List UInt64}
    (semantic : List.Forall₂ (fun transaction fee =>
      validateSemantic primitives transaction.transaction blockIndex = .ok fee) transactions fees) :
    ((fees.map UInt64.toNat).sum : ℤ) = (transactions.map transactionFee).sum ∧
      (fees.map UInt64.toNat).sum ≤
        (transactions.flatMap fun transaction => keyInputAmounts transaction.transaction.inputs).sum := by
  induction semantic with
  | nil => simp
  | cons valid _ ih =>
    have exact := validateSemantic_eq_ok valid
    simp only [List.map_cons, List.sum_cons, List.flatMap_cons, List.sum_append, transactionFee]
    omega

section Accounting

variable {context : CoreContext}

/-- One block of the accounting: a block accepted on top of coins within the supply, whose
transactions spend at most those coins and which leaves them non-negative, stores the previous coins
plus its emission, exactly, and stays within the supply. -/
theorem AcceptedAfter.alreadyGeneratedCoins {previous block : LedgerBlock}
    (genesisReward : context.currency.genesisBlockReward ≤ context.currency.moneySupply)
    (accepted : AcceptedAfter context previous block)
    (withinSupply : previous.alreadyGeneratedCoins ≤ context.currency.moneySupply)
    (covered : (block.spentAmounts.sum : ℤ) ≤ previous.alreadyGeneratedCoins.toNat)
    (nonnegative : 0 ≤ (previous.alreadyGeneratedCoins.toNat : ℤ) + block.emission) :
    (block.alreadyGeneratedCoins.toNat : ℤ) = previous.alreadyGeneratedCoins.toNat + block.emission ∧
      block.alreadyGeneratedCoins ≤ context.currency.moneySupply := by
  obtain ⟨core, rawBlock, checkedBlock, checked, sameTransactions, previousCoins, stored⟩ := accepted
  obtain ⟨-, -, -, -, -, -, cumulativeSize, minerReward, cumulativeFee, -, -, validBlock, validTransactions,
    rewarded⟩ := Core.checkBlock_eq_ok checked
  rw [previousCoins] at rewarded
  rw [sameTransactions] at validTransactions
  -- the coinbase pays the reward, exactly
  have coinbase : minerReward.toNat = block.coinbaseAmounts.sum := by
    simpa [LedgerBlock.coinbaseAmounts] using validateOutputs_eq_ok (CoreContext.validateBlock_eq_ok validBlock)
  -- the fees are the transactions' fees and fit in the word, being below the previous coins
  obtain ⟨fees, semantic, feeSum⟩ := CoreContext.validateTransactions_eq_ok validTransactions
  obtain ⟨feeValue, feeBound⟩ := fees_of_validateSemantic semantic
  have supply := context.currency.moneySupply.toNat_lt
  have previousNat := UInt64.le_iff_toNat_le.mp withinSupply
  have spent : block.spentAmounts.sum = (block.transactions.flatMap fun transaction =>
      keyInputAmounts transaction.transaction.inputs).sum := rfl
  have feeExact : cumulativeFee.toNat = (fees.map UInt64.toNat).sum := by
    rw [feeSum, UInt64.zero_add]
    exact UInt64.toNat_sum_of_lt fees (by omega)
  -- the reward is a penalized base reward within the rest of the supply plus a penalized fee
  obtain ⟨penalizedBaseReward, penalizedFee, baseLe, feeLe, rewardEq, emissionEq⟩ :=
    Currency.getBlockReward_eq_some genesisReward withinSupply rewarded
  have rewardExact : minerReward.toNat = penalizedBaseReward.toNat + penalizedFee.toNat := by
    rw [rewardEq]
    exact UInt64.toNat_add_of_lt (by omega)
  have removed : (cumulativeFee - penalizedFee).toNat = cumulativeFee.toNat - penalizedFee.toNat :=
    UInt64.toNat_sub_of_le _ _ (UInt64.le_iff_toNat_le.mpr feeLe)
  have emission : block.emission = (block.coinbaseAmounts.sum : ℤ) - (fees.map UInt64.toNat).sum := by
    rw [LedgerBlock.emission, feeValue]
  have storedExact : block.alreadyGeneratedCoins.toNat =
      previous.alreadyGeneratedCoins.toNat + penalizedBaseReward.toNat - (cumulativeFee - penalizedFee).toNat := by
    rw [stored, emissionEq]
    exact UInt64.toNat_add_sub_of_le _ _ _ (by omega) (by omega)
  refine ⟨by omega, UInt64.le_iff_toNat_le.mpr (by omega)⟩

end Accounting

namespace Scenario

/-- The genesis block of a fresh node as the accounting sees it. -/
def genesisLedger : LedgerBlock := ⟨⟨genesis⟩, [], genesisCoins⟩

/-- What `checkBlock` records for block 1 on a fresh node. -/
def firstAccepted : AcceptedBlock :=
  match node.checkBlock (context noCheckpoints) ⟨first⟩ (relay first) with
  | .ok accepted => accepted
  | .error _ => ⟨0, 0, false, [], ⟨[]⟩, 0, 0, 0⟩

/-- Block 1 with the coins `pushBlock` stores for it. -/
def firstLedger : LedgerBlock := ⟨⟨first⟩, [], genesisCoins + firstAccepted.emissionChange⟩

end Scenario

end Nox.CryptoNote
