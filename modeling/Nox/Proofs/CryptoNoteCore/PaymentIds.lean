import Nox.Model.CryptoNoteCore.DatabasePaymentIds
import Nox.Proofs.CryptoNoteCore.PushBlock

/-! # What the two roots record for a payment id

The in-memory root records one pair for every transaction of a block that carries a payment id,
unless its hash is held. The database root reads one count per payment id for the whole block, so
a block adds one to the count of each payment id its transactions carry, however many carry it, and
the entry at the old count holds the hash of the last of them. A payment id that no pushed
transaction carries has no count in the database, where `at` throws, and no pair in memory.
-/

namespace Nox.CryptoNote

open Nox.Crypto KeyValueStore

/-- The payment ids a list of transactions carries, in order. -/
def carriedPaymentIds (transactions : List Transaction) : List Hash :=
  transactions.filterMap (getPaymentIdFromTxExtra ·.extra)

/-- The pair of payment id and hash of each transaction that carries a payment id, in order. -/
def paymentIdPairs (primitives : Primitives) (transactions : List Transaction) : List PaymentIdTransactionHashPair :=
  transactions.filterMap fun transaction =>
    (getPaymentIdFromTxExtra transaction.extra).map fun paymentId => ⟨paymentId, primitives.getTransactionHash transaction⟩

theorem mem_carriedPaymentIds_cons {transaction : Transaction} {transactions : List Transaction} {paymentId : Hash} :
    paymentId ∈ carriedPaymentIds (transaction :: transactions) ↔
      getPaymentIdFromTxExtra transaction.extra = some paymentId ∨ paymentId ∈ carriedPaymentIds transactions := by
  cases carried : getPaymentIdFromTxExtra transaction.extra <;>
    simp [carriedPaymentIds, carried, eq_comm]

theorem paymentIdPairs_cons (primitives : Primitives) (transaction : Transaction) (transactions : List Transaction) :
    paymentIdPairs primitives (transaction :: transactions) =
      paymentIdPairs primitives [transaction] ++ paymentIdPairs primitives transactions := by
  cases carried : getPaymentIdFromTxExtra transaction.extra <;> simp [paymentIdPairs, carried]

theorem mem_paymentIdPairs {primitives : Primitives} {transactions : List Transaction}
    {pair : PaymentIdTransactionHashPair} (mem : pair ∈ paymentIdPairs primitives transactions) :
    ∃ transaction ∈ transactions, getPaymentIdFromTxExtra transaction.extra = some pair.paymentId ∧
      pair.transactionHash = primitives.getTransactionHash transaction := by
  simp only [paymentIdPairs, List.mem_filterMap, Option.map_eq_some_iff] at mem
  obtain ⟨transaction, mem, paymentId, carried, rfl⟩ := mem
  exact ⟨transaction, mem, carried, rfl⟩

namespace BlockchainCache

variable (primitives : Primitives) (parents : List Segment)

@[simp] theorem addSpentKeyImage_paymentIds (keyImage : KeyImage) (blockIndex : ℕ) (cache : BlockchainCache) :
    (addSpentKeyImage keyImage blockIndex cache).paymentIds = cache.paymentIds := by
  unfold addSpentKeyImage
  split <;> rfl

@[simp] theorem foldl_addSpentKeyImage_paymentIds (keyImages : List KeyImage) (blockIndex : ℕ)
    (cache : BlockchainCache) :
    (keyImages.foldl (fun cache keyImage => addSpentKeyImage keyImage blockIndex cache) cache).paymentIds =
      cache.paymentIds := by
  induction keyImages generalizing cache with
  | nil => rfl
  | cons keyImage keyImages ih => simp [ih]

@[simp] theorem pushOutputs_paymentIds (blockIndex transactionIndex outputIndex : ℕ)
    (outputs : List TransactionOutput) (cache : BlockchainCache) :
    (pushOutputs parents blockIndex transactionIndex outputIndex outputs cache).1.paymentIds = cache.paymentIds := by
  induction outputs generalizing outputIndex cache with
  | nil => rfl
  | cons output outputs ih =>
    simp only [pushOutputs, ih]
    rfl

/-- A transaction adds the pair of the payment id it carries, unless the segment holds its hash. -/
theorem pushTransaction_paymentIds (blockIndex transactionIndex : ℕ) (transaction : Transaction)
    (cache : BlockchainCache) :
    (pushTransaction primitives parents blockIndex transactionIndex transaction cache).paymentIds =
      match getPaymentIdFromTxExtra transaction.extra with
      | none => cache.paymentIds
      | some paymentId =>
        if cache.paymentIds.any (·.transactionHash == primitives.getTransactionHash transaction) then cache.paymentIds
        else cache.paymentIds ++ [⟨paymentId, primitives.getTransactionHash transaction⟩] := by
  unfold pushTransaction
  dsimp only
  split <;> split <;> (try split) <;> simp_all

/-- A block that carries no transaction of a payment id adds no pair of it. -/
theorem pushTransactions_paymentIds_filter_of_not_mem (blockIndex transactionIndex : ℕ)
    {transactions : List Transaction} {paymentId : Hash} (unseen : paymentId ∉ carriedPaymentIds transactions)
    (cache : BlockchainCache) :
    (pushTransactions primitives parents blockIndex transactionIndex transactions cache).paymentIds.filter
        (·.paymentId == paymentId) = cache.paymentIds.filter (·.paymentId == paymentId) := by
  induction transactions generalizing transactionIndex cache with
  | nil => rfl
  | cons transaction transactions ih =>
    rw [mem_carriedPaymentIds_cons, not_or] at unseen
    obtain ⟨notThis, later⟩ := unseen
    rw [pushTransactions, ih _ later, pushTransaction_paymentIds]
    cases carried : getPaymentIdFromTxExtra transaction.extra with
    | none => rfl
    | some other =>
      have different : other ≠ paymentId := fun same => notThis (same ▸ carried)
      dsimp only
      split <;> simp [List.filter_append, different]

/-- Where the hashes of a block are distinct and the segment holds none of them, every transaction
of the block that carries a payment id adds its pair, in order. -/
theorem pushTransactions_paymentIds (blockIndex transactionIndex : ℕ) {transactions : List Transaction}
    (distinct : (transactions.map primitives.getTransactionHash).Nodup) (cache : BlockchainCache)
    (fresh : ∀ pair ∈ cache.paymentIds, pair.transactionHash ∉ transactions.map primitives.getTransactionHash) :
    (pushTransactions primitives parents blockIndex transactionIndex transactions cache).paymentIds =
      cache.paymentIds ++ paymentIdPairs primitives transactions := by
  induction transactions generalizing transactionIndex cache with
  | nil => simp [pushTransactions, paymentIdPairs]
  | cons transaction transactions ih =>
    rw [List.map_cons, List.nodup_cons] at distinct
    obtain ⟨notLater, distinct⟩ := distinct
    have unheld : cache.paymentIds.any (·.transactionHash == primitives.getTransactionHash transaction) = false := by
      rw [List.any_eq_false]
      intro pair mem same
      exact fresh pair mem (List.mem_cons.mpr (.inl (beq_iff_eq.mp same)))
    have pushed : (pushTransaction primitives parents blockIndex transactionIndex transaction cache).paymentIds =
        cache.paymentIds ++ paymentIdPairs primitives [transaction] := by
      rw [pushTransaction_paymentIds]
      cases carried : getPaymentIdFromTxExtra transaction.extra <;> simp [carried, unheld, paymentIdPairs]
    -- the pair the transaction adds has a hash that no later transaction has
    have freshAfter : ∀ pair ∈ (pushTransaction primitives parents blockIndex transactionIndex transaction cache).paymentIds,
        pair.transactionHash ∉ transactions.map primitives.getTransactionHash := by
      intro pair mem
      rw [pushed, List.mem_append] at mem
      rcases mem with old | new
      · exact fun later => fresh pair old (List.mem_cons_of_mem _ later)
      · obtain ⟨_, isThis, _, hashed⟩ := mem_paymentIdPairs new
        rw [List.mem_singleton.mp isThis] at hashed
        rwa [hashed]
    rw [pushTransactions, ih _ distinct _ freshAfter, pushed, List.append_assoc, ← paymentIdPairs_cons]

/-- `pushBlock` records the block info and the key images before the transactions, and neither
touches the pairs of payment ids; it stores the raw block after them. -/
theorem pushBlockCall_paymentIds_eq (call : PushBlockCall) (cache : BlockchainCache) :
    ∃ pushed : BlockchainCache, pushed.paymentIds = cache.paymentIds ∧
      (cache.pushBlockCall primitives parents call).paymentIds =
        (pushTransactions primitives parents call.cachedBlock.getBlockIndex 0 call.transactions pushed).paymentIds := by
  refine ⟨_, ?_, rfl⟩
  simp only [foldl_addSpentKeyImage_paymentIds]
  split <;> rfl

/-- A block of distinct hashes that the segment does not hold adds the pair of every transaction
that carries a payment id. -/
theorem pushBlockCall_paymentIds {call : PushBlockCall}
    (distinct : (call.transactions.map primitives.getTransactionHash).Nodup) (cache : BlockchainCache)
    (fresh : ∀ pair ∈ cache.paymentIds, pair.transactionHash ∉ call.transactions.map primitives.getTransactionHash) :
    (cache.pushBlockCall primitives parents call).paymentIds = cache.paymentIds ++ paymentIdPairs primitives call.transactions := by
  obtain ⟨pushed, kept, recorded⟩ := pushBlockCall_paymentIds_eq primitives parents call cache
  rw [recorded, pushTransactions_paymentIds primitives parents _ _ distinct pushed (kept ▸ fresh), kept]

theorem pushBlockCall_paymentIds_filter_of_not_mem {call : PushBlockCall} {paymentId : Hash}
    (unseen : paymentId ∉ carriedPaymentIds call.transactions) (cache : BlockchainCache) :
    (cache.pushBlockCall primitives parents call).paymentIds.filter (·.paymentId == paymentId) =
      cache.paymentIds.filter (·.paymentId == paymentId) := by
  obtain ⟨pushed, kept, recorded⟩ := pushBlockCall_paymentIds_eq primitives parents call cache
  rw [recorded, pushTransactions_paymentIds_filter_of_not_mem primitives parents _ _ unseen, kept]

/-- Over a run of blocks none of which carries a payment id, a segment records no pair of it. -/
theorem foldl_pushBlockCall_paymentIds_filter_of_not_mem {calls : List PushBlockCall} {paymentId : Hash}
    (unseen : ∀ call ∈ calls, paymentId ∉ carriedPaymentIds call.transactions) (cache : BlockchainCache) :
    (calls.foldl (pushBlockCall primitives parents) cache).paymentIds.filter (·.paymentId == paymentId) =
      cache.paymentIds.filter (·.paymentId == paymentId) := by
  induction calls generalizing cache with
  | nil => rfl
  | cons call calls ih =>
    rw [List.foldl_cons, ih (fun later mem => unseen later (List.mem_cons_of_mem _ mem)),
      pushBlockCall_paymentIds_filter_of_not_mem primitives parents (unseen call List.mem_cons_self)]

end BlockchainCache

namespace PaymentIdTables

variable (tables : PaymentIdTables) (primitives : Primitives)

/-- The count writes of a block: each carried payment id at one more than its database count. -/
theorem foldl_pushTransaction_counts (transactions : List Transaction) (batch : PaymentIdWriteBatch) :
    (transactions.foldl (tables.pushTransaction primitives) batch).counts =
      { rawDataToInsert := batch.counts.rawDataToInsert ++ (carriedPaymentIds transactions).map
          fun paymentId => (paymentId, (tables.transactionCountByPaymentId paymentId).getD 0 + 1),
        rawKeysToRemove := batch.counts.rawKeysToRemove } := by
  induction transactions generalizing batch with
  | nil => simp [carriedPaymentIds]
  | cons transaction transactions ih =>
    rw [List.foldl_cons, ih]
    -- a transaction without a payment id leaves the batch as it is
    cases carried : getPaymentIdFromTxExtra transaction.extra with
    | none => simp [pushTransaction, carried, carriedPaymentIds]
    | some paymentId =>
      simp [pushTransaction, carried, carriedPaymentIds, insertPaymentId,
        PaymentIdWriteBatch.insertPaymentId]

/-- The hash writes of a block: each carrying transaction's hash at its payment id's database count. -/
theorem foldl_pushTransaction_hashes (transactions : List Transaction) (batch : PaymentIdWriteBatch) :
    (transactions.foldl (tables.pushTransaction primitives) batch).hashes =
      { rawDataToInsert := batch.hashes.rawDataToInsert ++ transactions.filterMap fun transaction =>
          (getPaymentIdFromTxExtra transaction.extra).map fun paymentId =>
            ((paymentId, (tables.transactionCountByPaymentId paymentId).getD 0), primitives.getTransactionHash transaction),
        rawKeysToRemove := batch.hashes.rawKeysToRemove } := by
  induction transactions generalizing batch with
  | nil => simp
  | cons transaction transactions ih =>
    rw [List.foldl_cons, ih]
    cases carried : getPaymentIdFromTxExtra transaction.extra with
    | none => simp [pushTransaction, carried]
    | some paymentId =>
      simp [pushTransaction, carried, insertPaymentId, PaymentIdWriteBatch.insertPaymentId]

/-- A block adds one to the database count of every payment id it carries, and leaves the others. -/
theorem pushBlock_transactionCountByPaymentId (call : PushBlockCall) (paymentId : Hash) :
    (tables.pushBlock primitives call).transactionCountByPaymentId paymentId =
      if paymentId ∈ carriedPaymentIds call.transactions then
        some ((tables.transactionCountByPaymentId paymentId).getD 0 + 1)
      else tables.transactionCountByPaymentId paymentId := by
  have written := foldl_pushTransaction_counts tables primitives call.transactions .empty
  -- every count write of the payment id gives it the same number, read before the block
  have same : ∀ pair ∈ (carriedPaymentIds call.transactions).map
      (fun carried => (carried, (tables.transactionCountByPaymentId carried).getD 0 + 1)),
      pair.1 = paymentId → pair.2 = (tables.transactionCountByPaymentId paymentId).getD 0 + 1 := by
    simp only [List.mem_map]
    rintro _ ⟨carried, _, rfl⟩ rfl
    rfl
  have last := lastValue_eq_of_forall same
  rw [List.map_map] at last
  rw [pushBlock, write]
  dsimp only
  rw [write_apply, written]
  dsimp only [PaymentIdWriteBatch.empty, WriteBatch.empty]
  rw [List.nil_append, last]
  by_cases carried : paymentId ∈ carriedPaymentIds call.transactions <;> simp [carried, Function.comp_def]

/-- Of the hash writes of a block, the last one at a payment id's database count is that of the
last transaction carrying it: the writes of other payment ids have other keys. -/
theorem lastValue_hashWrites (transactions : List Transaction) (paymentId : Hash) :
    lastValue (transactions.filterMap fun transaction =>
        (getPaymentIdFromTxExtra transaction.extra).map fun carried =>
          ((carried, (tables.transactionCountByPaymentId carried).getD 0), primitives.getTransactionHash transaction))
      (paymentId, (tables.transactionCountByPaymentId paymentId).getD 0) =
      ((transactions.filter fun transaction => getPaymentIdFromTxExtra transaction.extra = some paymentId).getLast?).map
        primitives.getTransactionHash := by
  induction transactions using List.reverseRecOn with
  | nil => rfl
  | append_singleton transactions transaction ih =>
    rw [List.filterMap_append, List.filter_append]
    cases carried : getPaymentIdFromTxExtra transaction.extra with
    | none => simp [carried, ih]
    | some other =>
      by_cases same : other = paymentId
      · subst same
        simp [carried, lastValue_append_singleton]
      · simp [carried, lastValue_append_singleton, same, ih]

/-- The entry at a payment id's old count holds the hash of the last transaction of the block that
carries it: the transactions before it in the block wrote the same key. -/
theorem pushBlock_transactionHashByPaymentId_count (call : PushBlockCall) (paymentId : Hash) :
    (tables.pushBlock primitives call).transactionHashByPaymentId
        (paymentId, (tables.transactionCountByPaymentId paymentId).getD 0) =
      (((call.transactions.filter fun transaction => getPaymentIdFromTxExtra transaction.extra = some paymentId).getLast?).map
        primitives.getTransactionHash).or
        (tables.transactionHashByPaymentId (paymentId, (tables.transactionCountByPaymentId paymentId).getD 0)) := by
  have written := foldl_pushTransaction_hashes tables primitives call.transactions .empty
  rw [pushBlock, write]
  dsimp only
  rw [write_apply, written]
  dsimp only [PaymentIdWriteBatch.empty, WriteBatch.empty]
  rw [List.nil_append, lastValue_hashWrites]
  simp

/-- A block that carries no transaction of a payment id leaves its count. -/
theorem pushBlock_transactionCountByPaymentId_of_not_mem {call : PushBlockCall} {paymentId : Hash}
    (unseen : paymentId ∉ carriedPaymentIds call.transactions) :
    (tables.pushBlock primitives call).transactionCountByPaymentId paymentId =
      tables.transactionCountByPaymentId paymentId := by
  rw [pushBlock_transactionCountByPaymentId, if_neg unseen]

/-- Over a run of blocks none of which carries a payment id, its database count stays as it was. -/
theorem foldl_pushBlock_transactionCountByPaymentId_of_not_mem {calls : List PushBlockCall} {paymentId : Hash}
    (unseen : ∀ call ∈ calls, paymentId ∉ carriedPaymentIds call.transactions) (tables : PaymentIdTables) :
    (calls.foldl (fun tables call => tables.pushBlock primitives call) tables).transactionCountByPaymentId paymentId =
      tables.transactionCountByPaymentId paymentId := by
  induction calls generalizing tables with
  | nil => rfl
  | cons call calls ih =>
    rw [List.foldl_cons, ih (fun later mem => unseen later (List.mem_cons_of_mem _ mem)),
      pushBlock_transactionCountByPaymentId_of_not_mem _ _ (unseen call List.mem_cons_self)]

end PaymentIdTables

end Nox.CryptoNote
