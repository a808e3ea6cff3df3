import Nox.Proofs.CryptoNoteCore.PaymentIds
import Nox.Soundness.SegmentTree

/-! # The database root against the in-memory root, by payment id

Pushed the same blocks from empty roots, the two roots disagree on `getTransactionHashesByPaymentId`
for every payment id that no pushed transaction carries: the database holds no count for it and
`at` throws, where the in-memory root returns no hashes. They disagree as well on every block in
which several transactions carry one payment id: the database reads one count for the whole block,
so its count grows by one, where the in-memory root records a pair for each transaction.
-/

namespace Nox.CryptoNote

open Nox.Crypto

/-- For every run of blocks from empty roots and every payment id that no pushed transaction
carries, the database root throws where the in-memory root returns no hashes. -/
theorem getTransactionHashesByPaymentId_throws_on_unseen (primitives : Primitives) (calls : List PushBlockCall)
    (paymentId : Hash) (unseen : ∀ call ∈ calls, paymentId ∉ carriedPaymentIds call.transactions) :
    (calls.foldl (fun tables call => tables.pushBlock primitives call) PaymentIdTables.empty).getTransactionHashesByPaymentId
        paymentId = none ∧
      BlockchainCache.getTransactionHashesByPaymentId
        [calls.foldl (BlockchainCache.pushBlockCall primitives []) (BlockchainCache.empty none 0)] paymentId = [] := by
  constructor
  · -- the count that `at` reads was never written
    have uncounted :=
      PaymentIdTables.foldl_pushBlock_transactionCountByPaymentId_of_not_mem primitives unseen PaymentIdTables.empty
    rw [PaymentIdTables.getTransactionHashesByPaymentId, uncounted]
    rfl
  · have unrecorded :=
      BlockchainCache.foldl_pushBlockCall_paymentIds_filter_of_not_mem primitives [] unseen (BlockchainCache.empty none 0)
    rw [BlockchainCache.getTransactionHashesByPaymentId, BlockchainCache.getTransactionHashesByPaymentId, unrecorded]
    rfl

namespace Scenario

/-- The test network's block 0 built from the configuration, without transactions. -/
def firstCall : PushBlockCall :=
  { cachedBlock := ⟨block 0 (hashOf 71) 71 0 0⟩, cachedTransactions := [], validatorState := ⟨[]⟩,
    blockSize := 0, generatedCoins := 0, blockDifficulty := 0, rawBlock := relay (block 0 (hashOf 71) 71 0 0) }

/-- After block 0, the database root throws for a payment id of 32 bytes 5. -/
theorem getTransactionHashesByPaymentId_throws_after_first_block :
    (∀ call ∈ [firstCall], hashOf 5 ∉ carriedPaymentIds call.transactions) ∧
      ([firstCall].foldl (fun tables call => tables.pushBlock primitives call) PaymentIdTables.empty).getTransactionHashesByPaymentId
          (hashOf 5) = none ∧
        BlockchainCache.getTransactionHashesByPaymentId
          [[firstCall].foldl (BlockchainCache.pushBlockCall primitives []) (BlockchainCache.empty none 0)] (hashOf 5) = [] :=
  have unseen : ∀ call ∈ [firstCall], hashOf 5 ∉ carriedPaymentIds call.transactions := by decide
  ⟨unseen, getTransactionHashesByPaymentId_throws_on_unseen primitives [firstCall] (hashOf 5) unseen⟩

end Scenario

/-- The pairs a block adds to a segment, read by payment id: as many as its transactions carry it. -/
theorem length_filter_paymentIdPairs (primitives : Primitives) (transactions : List Transaction) (paymentId : Hash) :
    ((paymentIdPairs primitives transactions).filter (·.paymentId == paymentId)).length =
      (carriedPaymentIds transactions).count paymentId := by
  have ids : (paymentIdPairs primitives transactions).map (·.paymentId) = carriedPaymentIds transactions := by
    simp only [paymentIdPairs, carriedPaymentIds, List.map_filterMap, Option.map_map, Function.comp_def,
      Option.map_id']
  rw [← ids, List.count, List.countP_map, List.countP_eq_length_filter]
  rfl

/-- On a block of distinct hashes that the in-memory root does not hold, the database adds one to
the count of each payment id the block carries, however many of its transactions carry it, and the
in-memory root one pair for each of them. -/
theorem pushBlock_counts_payment_id_once (primitives : Primitives) (tables : PaymentIdTables) (cache : BlockchainCache)
    {call : PushBlockCall} (distinct : (call.transactions.map primitives.getTransactionHash).Nodup)
    (fresh : ∀ pair ∈ cache.paymentIds, pair.transactionHash ∉ call.transactions.map primitives.getTransactionHash)
    {paymentId : Hash} (carried : paymentId ∈ carriedPaymentIds call.transactions) :
    (tables.pushBlock primitives call).transactionCountByPaymentId paymentId =
        some ((tables.transactionCountByPaymentId paymentId).getD 0 + 1) ∧
      ((cache.pushBlockCall primitives [] call).paymentIds.filter (·.paymentId == paymentId)).length =
        (cache.paymentIds.filter (·.paymentId == paymentId)).length + (carriedPaymentIds call.transactions).count paymentId := by
  constructor
  · rw [PaymentIdTables.pushBlock_transactionCountByPaymentId, if_pos carried]
  · rw [BlockchainCache.pushBlockCall_paymentIds primitives [] distinct cache fresh, List.filter_append, List.length_append,
      length_filter_paymentIdPairs]

end Nox.CryptoNote
