import Nox.Library.KeyValueStore
import Nox.Model.CryptoNoteCore.BlockchainCache

/-! # The payment id tables of the database root: `CryptoNoteCore/DatabaseBlockchainCache.cpp`

The database root indexes its transactions by payment id in two tables under
`DB::PAYMENT_ID_TO_TX_HASH_PREFIX`: the number of transactions of each payment id, and the hash of
the transaction at each number. `pushBlock` collects the writes of a whole block in one
`BlockchainWriteBatch` and writes it at the end, and `insertPaymentId` reads the number it extends
from the database, not from that batch, so the transactions of one block that carry one payment id
all read the same number and write the same two keys. `split` reads the payment id of each
transaction it deletes back from the stored block, and `requestDeletePaymentId` lowers each number
by the count it deleted, removing the one entry at the new number. `getTransactionHashesByPaymentId`
reads the number with `at`, which throws for a payment id that has none.

`RocksDBWrapper::write` applies a batch as `KeyValueStore.write` does: the puts in order, then the
removals. The hashes `getTransactionHashesByPaymentId` returns come out of an `unordered_map`; the
model lists them by number, and nothing proved about it depends on that order. The tables sit
beside the ones `DatabaseBlockchainCache` models, written by the same `pushBlock` and `split`.
-/

namespace Nox.CryptoNote

open Nox.Crypto KeyValueStore

/-- The two tables of `DB::PAYMENT_ID_TO_TX_HASH_PREFIX`. -/
structure PaymentIdTables where
  transactionCountByPaymentId : Hash → Option UInt32
  transactionHashByPaymentId : Hash × UInt32 → Option Hash

/-- The writes of a `BlockchainWriteBatch` to the two tables. -/
structure PaymentIdWriteBatch where
  counts : WriteBatch Hash UInt32
  hashes : WriteBatch (Hash × UInt32) Hash

namespace PaymentIdWriteBatch

def empty : PaymentIdWriteBatch := ⟨.empty, .empty⟩

/-- `BlockchainWriteBatch::insertPaymentId(transactionHash, paymentId, totalTxsCountForPaymentId)`. -/
def insertPaymentId (batch : PaymentIdWriteBatch) (transactionHash paymentId : Hash)
    (totalTxsCountForPaymentId : UInt32) : PaymentIdWriteBatch :=
  { counts := batch.counts.insert paymentId totalTxsCountForPaymentId,
    hashes := batch.hashes.insert (paymentId, totalTxsCountForPaymentId - 1) transactionHash }

/-- `BlockchainWriteBatch::removePaymentId(paymentId, totalTxsCountForPaymentId)`: the new number,
and the one entry at it removed. -/
def removePaymentId (batch : PaymentIdWriteBatch) (paymentId : Hash) (totalTxsCountForPaymentId : UInt32) :
    PaymentIdWriteBatch :=
  { counts := batch.counts.insert paymentId totalTxsCountForPaymentId,
    hashes := batch.hashes.remove (paymentId, totalTxsCountForPaymentId) }

end PaymentIdWriteBatch

/-- The arguments of one `pushBlock` call. -/
structure PushBlockCall where
  cachedBlock : CachedBlock
  cachedTransactions : List CachedTransaction
  validatorState : TransactionValidatorState
  blockSize : ℕ
  generatedCoins : UInt64
  blockDifficulty : UInt64
  rawBlock : RawBlock

/-- The transactions `pushBlock` pushes: the coinbase first. -/
def PushBlockCall.transactions (call : PushBlockCall) : List Transaction :=
  call.cachedBlock.block.baseTransaction :: call.cachedTransactions.map (·.transaction)

namespace DatabaseBlockchainCache

variable (cache : DatabaseBlockchainCache)

/-- `extractTransaction(block, transactionIndex)`: the coinbase of the block template at index 0,
and the stored transaction before the index otherwise. The code asserts that both deserialize. -/
def extractTransaction (block : RawBlock) (transactionIndex : ℕ) : Option Transaction :=
  if transactionIndex = 0 then
    (fromBinaryArray (inputBlockTemplate unreadParentBlock) block.block).toOption.map (·.baseTransaction)
  else (block.transactions[transactionIndex - 1]?).bind fun binary => (fromBinaryArray inputTransaction binary).toOption

/-- `requestPaymentId(database, transactionHash, paymentId)`: the transaction is read back from its
block, and its extra is parsed again. -/
def requestPaymentId (transactionHash : Hash) : Option Hash := do
  let info ← cache.transactions.find? (·.transactionHash == transactionHash)
  let block ← cache.getBlockByIndex info.blockIndex
  let transaction ← extractTransaction block info.transactionIndex
  getPaymentIdFromTxExtra transaction.extra

end DatabaseBlockchainCache

namespace PaymentIdTables

def empty : PaymentIdTables := ⟨fun _ => none, fun _ => none⟩

variable (tables : PaymentIdTables) (primitives : Primitives)

/-- `database.write(batch)`. -/
def write (batch : PaymentIdWriteBatch) : PaymentIdTables :=
  { transactionCountByPaymentId := KeyValueStore.write tables.transactionCountByPaymentId batch.counts,
    transactionHashByPaymentId := KeyValueStore.write tables.transactionHashByPaymentId batch.hashes }

/-- `insertPaymentId(batch, transactionHash, paymentId)`: one more than the number the database
holds, in `uint32_t`. -/
def insertPaymentId (batch : PaymentIdWriteBatch) (transactionHash paymentId : Hash) : PaymentIdWriteBatch :=
  let count := (tables.transactionCountByPaymentId paymentId).getD 0 + 1
  batch.insertPaymentId transactionHash paymentId count

/-- The payment id step of `pushTransaction`. -/
def pushTransaction (batch : PaymentIdWriteBatch) (transaction : Transaction) : PaymentIdWriteBatch :=
  match getPaymentIdFromTxExtra transaction.extra with
  | some paymentId => tables.insertPaymentId batch (primitives.getTransactionHash transaction) paymentId
  | none => batch

/-- The payment id writes of `pushBlock`: every transaction of the block adds to one batch, which
is written after the last. -/
def pushBlock (call : PushBlockCall) : PaymentIdTables :=
  tables.write (call.transactions.foldl (tables.pushTransaction primitives) .empty)

/-- `getTransactionHashesByPaymentId(paymentId)`, `none` where `at` throws: the hashes the read
batch finds at the numbers below the count. -/
def getTransactionHashesByPaymentId (paymentId : Hash) : Option (List Hash) := do
  let count ← tables.transactionCountByPaymentId paymentId
  pure ((List.range count.toNat).filterMap fun i => tables.transactionHashByPaymentId (paymentId, UInt32.ofNat i))

/-- `requestDeletePaymentId(writeBatch, paymentId, toDelete)`: the count less `toDelete`, cast to
`uint32_t`. The code asserts that it does not wrap. -/
def requestDeletePaymentId (batch : PaymentIdWriteBatch) (paymentId : Hash) (toDelete : ℕ) : PaymentIdWriteBatch :=
  let count := (tables.transactionCountByPaymentId paymentId).getD 0
  batch.removePaymentId paymentId (count - UInt32.ofNat toDelete)

/-- `requestDeletePaymentIds(writeBatch, transactionHashes)`: the deleted transactions whose payment
id reads back, counted by payment id. The writes of distinct payment ids touch distinct keys, so
the order of the `unordered_map` they come from does not matter. -/
def requestDeletePaymentIds (cache : DatabaseBlockchainCache) (transactionHashes : List Hash) : PaymentIdWriteBatch :=
  let paymentIds := transactionHashes.filterMap cache.requestPaymentId
  paymentIds.eraseDups.foldl (fun batch paymentId => tables.requestDeletePaymentId batch paymentId (paymentIds.count paymentId))
    .empty

/-- The payment id writes of `split(splitBlockIndex)`, for the transactions of the blocks it moves. -/
def split (cache : DatabaseBlockchainCache) (splitBlockIndex : ℕ) : PaymentIdTables :=
  tables.write (tables.requestDeletePaymentIds cache (cache.transactionHashesByBlocks.drop splitBlockIndex).flatten)

end PaymentIdTables

/-- `pushBlock` on an in-memory segment with the arguments of a call. -/
def BlockchainCache.pushBlockCall (primitives : Primitives) (parents : List Segment) (cache : BlockchainCache) (call : PushBlockCall) :
    BlockchainCache :=
  cache.pushBlock primitives parents call.cachedBlock call.cachedTransactions call.validatorState call.blockSize
    call.generatedCoins call.blockDifficulty call.rawBlock

end Nox.CryptoNote
