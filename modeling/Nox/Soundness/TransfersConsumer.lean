import Nox.Proofs.Transfers.TransfersConsumer
import Nox.Soundness.TransfersContainer
import Nox.Soundness.SegmentTree

/-! # Blocks the consumer never finishes

A block counts as processed when its last transaction, flagged so in the queue, has been processed.
A transaction without a public key is never queued, so a block whose last transaction has none is
never counted: `onNewBlocks` reports fewer blocks than it was given and detaches the subscriptions
from that block, whatever the containers do with the transactions before it. The synchronizer hands
the block over again on the next round, with the same outcome.

The count also starts at the number of blocks without data or older than the sync start, wherever
they are in the batch. Two old blocks at the end of a batch make the first block advance the
subscriptions two heights too far, so that the next block's transactions fail the container's height
check and are lost.
-/

namespace Nox.CryptoNote

open Nox.Crypto TransfersConsumer

/-- A block in the batch with data, not older than the sync start, whose last transaction has no
public key makes `onNewBlocks` report fewer blocks than the batch holds, for every consumer and
every outcome of the preprocessing. -/
theorem onNewBlocks_skips_keyless_block (consumer : TransfersConsumer)
    (preprocess : TransactionBlockInfo → TransactionReader → Option PreprocessInfo)
    (blocks : List CompleteBlock) (startHeight count : ℕ) {i : ℕ} (inBatch : i < count)
    {block : CompleteBlock} {template : BlockTemplate} (listed : blocks[i]? = some block)
    (full : block.block = some template)
    (unfiltered : consumer.syncStart.timestamp = 0 ∨ consumer.syncStart.timestamp ≤ template.timestamp)
    (keyless : ∀ tx ∈ block.transactions.getLast?, tx.reader.transactionPublicKey = NULL_PUBLIC_KEY) :
    (consumer.onNewBlocks preprocess blocks startHeight count).2 < count := by
  have bound := onNewBlocks_count_le consumer preprocess blocks startHeight count
  have member : block ∈ blocks.take count :=
    List.mem_of_getElem? (by rw [List.getElem?_take, if_pos inBatch, listed])
  -- the block is neither empty nor flagged last
  have notCounted : countsAsProcessed consumer.syncStart block = false := by
    have notFiltered : (consumer.syncStart.timestamp != 0 && template.timestamp < consumer.syncStart.timestamp) = false := by
      rcases unfiltered with unset | older
      · simp [unset]
      · have notOlder : ¬ template.timestamp < consumer.syncStart.timestamp := by
          rw [UInt64.lt_iff_toNat_lt]
          rw [UInt64.le_iff_toNat_le] at older
          omega
        simp [notOlder]
    have notKeyed : lastTransactionKeyed block.transactions = false := by
      cases last : block.transactions.getLast? with
      | none => simp [lastTransactionKeyed, last]
      | some tx => simp [lastTransactionKeyed, last, keyless tx (by simp [last])]
    simp [countsAsProcessed, full, notFiltered, notKeyed]
  have short : (blocks.take count).countP (countsAsProcessed consumer.syncStart) < (blocks.take count).length := by
    refine lt_of_le_of_ne List.countP_le_length fun all => ?_
    have := List.countP_eq_length.mp all block member
    rw [notCounted] at this
    exact Bool.false_ne_true this
  have := List.length_take_le count blocks
  omega

namespace Scenario

/-- A transaction that pays one output of 1 and names its public key `keyOf n` in its extra. -/
def keyedTransaction (n : ℕ) : TransactionPrefixInfo :=
  ⟨hashOf n,
    { version := 1, unlockTime := 0, inputs := [.base ⟨0⟩], outputs := [⟨1, .key ⟨keyOf n⟩⟩],
      extra := addTransactionPublicKeyToExtra [] (keyOf n) }⟩

/-- A transaction without a public key. -/
def keylessTransaction (n : ℕ) : TransactionPrefixInfo :=
  ⟨hashOf n, { version := 1, unlockTime := 0, inputs := [], outputs := [], extra := [] }⟩

/-- A block with the timestamp and transactions. -/
def completeBlock (n : ℕ) (timestamp : UInt64) (transactions : List TransactionPrefixInfo) : CompleteBlock :=
  ⟨hashOf n, some (block n (hashOf 0) (UInt32.ofNat n) timestamp 0), transactions⟩

/-- A block whose coinbase has a public key and whose second transaction has none. -/
def keylessLastBlock : CompleteBlock := completeBlock 1 100 [keyedTransaction 11, keylessTransaction 12]

/-- A consumer without subscriptions or sync start. -/
def idleConsumer : TransfersConsumer := ⟨⟨0, 0⟩, [], []⟩

/-- The consumer given the block alone reports none of it processed. -/
theorem onNewBlocks_skips_keyless_block_alone :
    (0 < 1 ∧ [keylessLastBlock][0]? = some keylessLastBlock ∧
      keylessLastBlock.block = some (block 1 (hashOf 0) 1 100 0) ∧
      (idleConsumer.syncStart.timestamp = 0 ∨ idleConsumer.syncStart.timestamp ≤ (block 1 (hashOf 0) 1 100 0).timestamp) ∧
      ∀ tx ∈ keylessLastBlock.transactions.getLast?, tx.reader.transactionPublicKey = NULL_PUBLIC_KEY) ∧
      (idleConsumer.onNewBlocks (fun _ _ => some ⟨[], []⟩) [keylessLastBlock] 0 1).2 < 1 := by
  have keyless : ∀ tx ∈ keylessLastBlock.transactions.getLast?, tx.reader.transactionPublicKey = NULL_PUBLIC_KEY := by
    intro tx last
    simp only [keylessLastBlock, completeBlock, List.getLast?_cons_cons, List.getLast?_singleton,
      Option.mem_def, Option.some.injEq] at last
    subst last
    decide
  exact ⟨⟨Nat.one_pos, rfl, rfl, .inl rfl, keyless⟩,
    onNewBlocks_skips_keyless_block idleConsumer (fun _ _ => some ⟨[], []⟩) [keylessLastBlock] 0 1 Nat.one_pos
      rfl rfl (.inl rfl) keyless⟩

/-- The subscription of these runs, keyed `keyOf 50`, with an empty container. -/
def walletSubscription : TransfersSubscription := ⟨keyOf 50, emptyContainer⟩

/-- A consumer with the subscription and a sync start at time 95. -/
def walletConsumer : TransfersConsumer := ⟨⟨95, 0⟩, [walletSubscription], []⟩

/-- Preprocessing that finds one output of 1 for the subscription in every transaction, at global
index 3. -/
def payingPreprocess (_ : TransactionBlockInfo) (tx : TransactionReader) : Option PreprocessInfo :=
  some ⟨[(keyOf 50,
    [{ amount := 1, globalOutputIndex := 3, outputInTransaction := 0, transactionHash := tx.transactionHash,
       transactionPublicKey := tx.transactionPublicKey, outputKey := keyOf 50,
       keyImage := ⟨tx.transactionHash.data⟩ }])], [3]⟩

/-- Two blocks after the sync start, then two before it, at heights 10 to 13. -/
def oldBlocksLast : List CompleteBlock :=
  [completeBlock 1 100 [keyedTransaction 21], completeBlock 2 200 [keyedTransaction 22],
    completeBlock 3 90 [keyedTransaction 23], completeBlock 4 91 [keyedTransaction 24]]

/-- The same blocks with the two old ones first. -/
def oldBlocksFirst : List CompleteBlock :=
  [completeBlock 3 90 [keyedTransaction 23], completeBlock 4 91 [keyedTransaction 24],
    completeBlock 1 100 [keyedTransaction 21], completeBlock 2 200 [keyedTransaction 22]]

/-- Given the block whose last transaction has no key, the consumer reports none of it and
detaches. Given two blocks after the sync start and two before it, it reports three with the old
blocks last and keeps the first block's transaction alone, the second's failing the height check;
with the old blocks first it reports all four and keeps both. -/
theorem onNewBlocks_depends_on_keys_and_order :
    (walletConsumer.onNewBlocks payingPreprocess [keylessLastBlock] 10 1).2 = 0 ∧
      (walletConsumer.onNewBlocks payingPreprocess oldBlocksLast 10 4).2 = 3 ∧
      ((walletConsumer.onNewBlocks payingPreprocess oldBlocksLast 10 4).1.subscriptions.map fun sub =>
        sub.container.transactions.map (·.transactionHash)) = [[hashOf 21]] ∧
      (walletConsumer.onNewBlocks payingPreprocess oldBlocksFirst 10 4).2 = 4 ∧
      ((walletConsumer.onNewBlocks payingPreprocess oldBlocksFirst 10 4).1.subscriptions.map fun sub =>
        sub.container.transactions.map (·.transactionHash)) = [[hashOf 21, hashOf 22]] := by
  decide

end Scenario

end Nox.CryptoNote
