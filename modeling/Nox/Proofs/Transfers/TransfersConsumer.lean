import Nox.Model.Transfers.TransfersConsumer

/-! # What `onNewBlocks` counts

Only a queued transaction flagged last counts its block, and a block's transaction is flagged last
only when it is the block's last one and has a public key: a transaction without one is never
queued. So the count `onNewBlocks` reports is at most the number of blocks without data or older
than the sync start plus the number of blocks whose last transaction has a public key, whatever the
preprocessing and the containers do.
-/

namespace Nox.CryptoNote

namespace TransfersConsumer

/-- Whether a block's last transaction has a public key. -/
def lastTransactionKeyed (txs : List TransactionPrefixInfo) : Bool :=
  txs.getLast?.any fun tx => decide (tx.reader.transactionPublicKey ≠ NULL_PUBLIC_KEY)

/-- Whether the pushing thread lets a block count: it is counted as empty, or its last transaction
is queued flagged last. -/
def countsAsProcessed (syncStart : SynchronizationStart) (block : CompleteBlock) : Bool :=
  match block.block with
  | none => true
  | some template =>
    (syncStart.timestamp != 0 && template.timestamp < syncStart.timestamp) || lastTransactionKeyed block.transactions

/-- A block's queued transactions flag one as last exactly when the block's last transaction has a
public key. The induction keeps the index and the rest of the block adding up to its size. -/
theorem countP_queueTransactions (height : UInt32) (timestamp : UInt64) :
    ∀ (txs : List TransactionPrefixInfo) (transactionIndex size : ℕ), transactionIndex + txs.length = size →
      (queueTransactions height timestamp size transactionIndex txs).countP (·.isLastTransactionInBlock) =
        if lastTransactionKeyed txs then 1 else 0
  | [], _, _, _ => rfl
  | [tx], transactionIndex, size, sized => by
    have last : (transactionIndex + 1 == size) = true := by simp at sized; simp [sized]
    by_cases keyed : tx.reader.transactionPublicKey = NULL_PUBLIC_KEY
    · simp [queueTransactions, lastTransactionKeyed, keyed]
    · simp [queueTransactions, lastTransactionKeyed, keyed, last]
  | tx :: next :: txs, transactionIndex, size, sized => by
    -- the first of two or more transactions is not the last one
    have notLast : (transactionIndex + 1 == size) = false := by simp at sized; simp; omega
    have rest := countP_queueTransactions height timestamp (next :: txs) (transactionIndex + 1) size
      (by simp at sized ⊢; omega)
    have sameLast : lastTransactionKeyed (tx :: next :: txs) = lastTransactionKeyed (next :: txs) := by
      simp only [lastTransactionKeyed, List.getLast?_cons_cons]
    rw [sameLast, ← rest]
    by_cases keyed : tx.reader.transactionPublicKey = NULL_PUBLIC_KEY
    · rw [queueTransactions, if_pos keyed]
    · rw [queueTransactions, if_neg keyed, List.countP_cons, notLast]
      rfl

/-- The pushing thread's flagged transactions and empty blocks together are the blocks that count. -/
theorem pushBlocks_count (syncStart : SynchronizationStart) (startHeight : ℕ) :
    ∀ (blocks : List CompleteBlock) (i : ℕ),
      (pushBlocks syncStart startHeight i blocks).1.countP (·.isLastTransactionInBlock) +
        (pushBlocks syncStart startHeight i blocks).2 = blocks.countP (countsAsProcessed syncStart)
  | [], _ => rfl
  | block :: blocks, i => by
    have rest := pushBlocks_count syncStart startHeight blocks (i + 1)
    simp only [pushBlocks]
    rw [List.countP_cons]
    -- a block without data, or older than the sync start, counts as empty
    cases found : block.block with
    | none => simp [countsAsProcessed, found]; omega
    | some template =>
      by_cases filtered : (syncStart.timestamp != 0 && template.timestamp < syncStart.timestamp) = true
      · simp only [filtered, if_true, countsAsProcessed, found, Bool.true_or]
        omega
      · simp only [filtered, Bool.false_eq_true, if_false, countsAsProcessed, found, Bool.false_or,
          List.countP_append]
        rw [countP_queueTransactions _ _ _ 0 _ (Nat.zero_add _)]
        split_ifs <;> omega

/-- The processing loop counts at most one block for each transaction flagged last. -/
theorem processLoop_count_le (startHeight : UInt32) :
    ∀ (items : List (QueuedTransaction × PreprocessInfo)) (processedBlockCount : ℕ) (subs : List TransfersSubscription),
      (processLoop startHeight items processedBlockCount subs).2.1 ≤
        processedBlockCount + items.countP (·.1.isLastTransactionInBlock)
  | [], _, _ => Nat.le_refl _
  | (item, info) :: items, processedBlockCount, subs => by
    rw [List.countP_cons]
    simp only [processLoop]
    split
    · -- an exception ends the loop with the count so far
      dsimp only
      omega
    · rename_i processed _
      by_cases last : item.isLastTransactionInBlock = true
      · have := processLoop_count_le startHeight items (processedBlockCount + 1)
          (advanceHeight (startHeight + UInt32.ofNat (processedBlockCount + 1) - 1) processed)
        simp only [last, if_true]
        omega
      · have := processLoop_count_le startHeight items processedBlockCount processed
        simp only [last, Bool.false_eq_true, if_false]
        omega

/-- Preprocessing pairs each queued transaction with its result, in order. -/
theorem map_fst_of_mapM_preprocess
    (preprocess : TransactionBlockInfo → TransactionReader → Option PreprocessInfo) :
    ∀ {queue : List QueuedTransaction} {preprocessed : List (QueuedTransaction × PreprocessInfo)},
      queue.mapM (fun item => (preprocess item.blockInfo item.tx.reader).map (item, ·)) = some preprocessed →
        preprocessed.map Prod.fst = queue
  | [], preprocessed, mapped => by
    simp only [List.mapM_nil, pure, Option.some.injEq] at mapped
    simp [← mapped]
  | item :: queue, preprocessed, mapped => by
    simp only [List.mapM_cons, bind, pure, Option.bind_eq_some_iff, Option.map_eq_some_iff,
      Option.some.injEq] at mapped
    obtain ⟨_, ⟨info, _, rfl⟩, rest, restMapped, rfl⟩ := mapped
    simp [map_fst_of_mapM_preprocess preprocess restMapped]

/-- `onNewBlocks` reports at most the blocks that count, whatever the preprocessing gives. -/
theorem onNewBlocks_count_le (consumer : TransfersConsumer)
    (preprocess : TransactionBlockInfo → TransactionReader → Option PreprocessInfo)
    (blocks : List CompleteBlock) (startHeight count : ℕ) :
    (consumer.onNewBlocks preprocess blocks startHeight count).2 ≤
      (blocks.take count).countP (countsAsProcessed consumer.syncStart) := by
  have pushed := pushBlocks_count consumer.syncStart startHeight (blocks.take count) 0
  rcases pushing : pushBlocks consumer.syncStart startHeight 0 (blocks.take count) with ⟨queue, emptyBlockCount⟩
  rw [pushing] at pushed
  simp only [onNewBlocks, pushing]
  split
  · exact Nat.zero_le _
  · rename_i preprocessed mapped
    have paired := map_fst_of_mapM_preprocess preprocess mapped
    have looped := processLoop_count_le (UInt32.ofNat startHeight) preprocessed emptyBlockCount consumer.subscriptions
    -- the loop's flagged transactions are the queue's
    have flagged : preprocessed.countP (·.1.isLastTransactionInBlock) = queue.countP (·.isLastTransactionInBlock) := by
      rw [← paired, List.countP_map]
      rfl
    simp only at pushed
    rcases looping : processLoop (UInt32.ofNat startHeight) preprocessed emptyBlockCount consumer.subscriptions with
      ⟨thrown, processedBlockCount, subs⟩
    rw [looping] at looped
    simp only at looped ⊢
    -- the count reported is the loop's, whatever it threw
    rcases thrown with _ | ⟨_ | _⟩ <;> omega

end TransfersConsumer

end Nox.CryptoNote
