import Nox.Model.Common.IntUtil
import Nox.Model.CryptoNoteCore.BlockTemplate
import Nox.Model.CryptoNoteCore.CryptoNoteFormatUtils

/-! # The transaction pool of `TransactionPool.cpp`, its cleaner and the pool side of `Core.cpp`

`TransactionPool` keeps the pending transactions in a multi-index unique by hash, and in
`poolState` the key images they spend. `pushTransaction` refuses a known hash and a state that
meets the pool's, and otherwise merges the state and inserts; `removeTransaction` excludes the
transaction's key images and erases it. `TransactionPoolCleanWrapper`, the pool `Core` holds,
refuses transactions it deleted recently and, in `clean`, deletes the transactions past their live
time and those whose mixin the height no longer allows.

`Core::addTransactionToPool` validates a transaction against the main chain from an empty state,
which leaves the state holding the transaction's key images, and pushes it with that state.
`actualizePoolTransactions` takes every transaction out and adds it again, and
`actualizePoolTransactionsLite` removes those that meet a block's key images or are now too large.
A read of a hash the pool does not hold, which the code asserts against and then dereferences, is
`none`. The chain these functions read is a `PoolChainView`: the main chain's segments, its top
index and the block median size.
-/

namespace Nox.CryptoNote

open Nox.Crypto

/-! ## Validator states of `TransactionValidatiorState.cpp` -/

/-- `std::unordered_set::insert`: a key image already in the set is not added again. -/
def insertKeyImage (images : List KeyImage) (keyImage : KeyImage) : List KeyImage :=
  if keyImage ∈ images then images else images ++ [keyImage]

/-- `mergeStates(destination, source)`. -/
def mergeStates (destination source : TransactionValidatorState) : TransactionValidatorState :=
  ⟨source.spentKeyImages.foldl insertKeyImage destination.spentKeyImages⟩

/-- `hasIntersections(destination, source)`: some key image of `source` is in `destination`. -/
def hasIntersections (destination source : TransactionValidatorState) : Bool :=
  source.spentKeyImages.any fun keyImage => keyImage ∈ destination.spentKeyImages

/-- `excludeFromState(state, transaction)`: the image of every key input is erased. The asserts
that the image is there and that no other input occurs are not compiled in release builds. -/
def excludeFromState (state : TransactionValidatorState) (cachedTransaction : CachedTransaction) :
    TransactionValidatorState :=
  cachedTransaction.transaction.inputs.foldl
    (fun state input =>
      match input with
      | .key input => ⟨state.spentKeyImages.erase input.keyImage⟩
      | .base _ => state)
    state

/-- `extractSpentOutputs(transaction)` of `Core.cpp`: the images of the key inputs. -/
def extractSpentOutputs (transaction : CachedTransaction) : TransactionValidatorState :=
  transaction.transaction.inputs.foldl
    (fun state input =>
      match input with
      | .key input => ⟨insertKeyImage state.spentKeyImages input.keyImage⟩
      | .base _ => state)
    ⟨[]⟩

/-! ## The pool -/

/-- `PendingTransactionInfo`. -/
structure PendingTransactionInfo where
  receiveTime : UInt64
  cachedTransaction : CachedTransaction
  paymentId : Option Hash
deriving DecidableEq, Repr

/-- `TransactionPool`: the entries of its multi-index, in the order they were inserted, and the
key images they spend. -/
structure TransactionPool where
  transactions : List PendingTransactionInfo
  poolState : TransactionValidatorState
deriving DecidableEq, Repr

/-- The pool as `Core` creates it. -/
def TransactionPool.empty : TransactionPool := ⟨[], ⟨[]⟩⟩

/-- `TransactionPriorityComparator`: `lhs` comes first when its fee per byte is higher, then when
it is smaller, then when it is older; the products are compared as 128-bit numbers. -/
def transactionPriorityComparator (lhs rhs : PendingTransactionInfo) : Bool :=
  let left := lhs.cachedTransaction
  let right := rhs.cachedTransaction
  let (lhsLo, lhsHi) := IntUtil.mul128 left.getTransactionFee (UInt64.ofNat right.transactionBinaryArray.length)
  let (rhsLo, rhsHi) := IntUtil.mul128 right.getTransactionFee (UInt64.ofNat left.transactionBinaryArray.length)
  lhsHi > rhsHi || (lhsHi == rhsHi && lhsLo > rhsLo) ||
    (lhsHi == rhsHi && lhsLo == rhsLo && left.transactionBinaryArray.length < right.transactionBinaryArray.length) ||
    (lhsHi == rhsHi && lhsLo == rhsLo && left.transactionBinaryArray.length == right.transactionBinaryArray.length &&
      lhs.receiveTime < rhs.receiveTime)

section Pool

variable (primitives : Primitives)

/-- `PendingTransactionInfo::getTransactionHash`. -/
def PendingTransactionInfo.getTransactionHash (info : PendingTransactionInfo) : Hash :=
  primitives.getTransactionHash info.cachedTransaction.transaction

/-- `transactionHashIndex.find(hash)`. -/
def TransactionPool.find (pool : TransactionPool) (hash : Hash) : Option PendingTransactionInfo :=
  pool.transactions.find? fun info => info.getTransactionHash primitives = hash

/-- `TransactionPool::pushTransaction(transaction, transactionState)`, at the clock time `now`. -/
def TransactionPool.pushTransaction (now : UInt64) (transaction : CachedTransaction)
    (transactionState : TransactionValidatorState) (pool : TransactionPool) : TransactionPool × Bool :=
  let pendingTx : PendingTransactionInfo :=
    ⟨now, transaction, getPaymentIdFromTxExtra transaction.transaction.extra⟩
  if (pool.find primitives (pendingTx.getTransactionHash primitives)).isSome then (pool, false)
  else if hasIntersections pool.poolState transactionState then (pool, false)
  else (⟨pool.transactions ++ [pendingTx], mergeStates pool.poolState transactionState⟩, true)

/-- `TransactionPool::removeTransaction(hash)`. -/
def TransactionPool.removeTransaction (hash : Hash) (pool : TransactionPool) : TransactionPool × Bool :=
  match pool.find primitives hash with
  | none => (pool, false)
  | some info => (⟨pool.transactions.erase info, excludeFromState pool.poolState info.cachedTransaction⟩, true)

/-- `TransactionPool::getTransaction(hash)`; `none` where the code asserts and reads past the end. -/
def TransactionPool.getTransaction (pool : TransactionPool) (hash : Hash) : Option CachedTransaction :=
  (pool.find primitives hash).map (·.cachedTransaction)

/-- `TransactionPool::getTransactionReceiveTime(hash)`, with the same assert. -/
def TransactionPool.getTransactionReceiveTime (pool : TransactionPool) (hash : Hash) : Option UInt64 :=
  (pool.find primitives hash).map (·.receiveTime)

/-- `TransactionPool::getTransactionHashes`: the hashes in the order of the cost index, equal
entries in the order they were inserted. -/
def TransactionPool.getTransactionHashes (pool : TransactionPool) : List Hash :=
  (pool.transactions.mergeSort fun lhs rhs => !transactionPriorityComparator rhs lhs).map
    (·.getTransactionHash primitives)

/-- `TransactionPool::getPoolTransactions`: the transactions in the order of the cost index. -/
def TransactionPool.getPoolTransactions (pool : TransactionPool) : List CachedTransaction :=
  (pool.transactions.mergeSort fun lhs rhs => !transactionPriorityComparator rhs lhs).map (·.cachedTransaction)

end Pool

/-! ## The cleaner of `TransactionPoolCleaner.cpp` -/

/-- `TransactionPoolCleanWrapper`: the pool, the hashes it deleted with the time of deletion, and
the live time of a pending transaction. -/
structure TransactionPoolCleanWrapper where
  transactionPool : TransactionPool
  recentlyDeletedTransactions : List (Hash × UInt64)
  timeout : UInt64
deriving DecidableEq, Repr

/-- `CRYPTONOTE_MEMPOOL_TX_LIVETIME`, the live time `Core` gives its cleaner. -/
def CRYPTONOTE_MEMPOOL_TX_LIVETIME : UInt64 := 60 * 60 * 24

/-- The pool `Core::Core` creates: empty, nothing deleted, and the currency's live time. -/
def TransactionPoolCleanWrapper.empty : TransactionPoolCleanWrapper :=
  ⟨TransactionPool.empty, [], CRYPTONOTE_MEMPOOL_TX_LIVETIME⟩

section Cleaner

variable (primitives : Primitives)

/-- `isTransactionRecentlyDeleted(hash)`: the time of deletion is compared with the live time. -/
def TransactionPoolCleanWrapper.isTransactionRecentlyDeleted (wrapper : TransactionPoolCleanWrapper)
    (hash : Hash) : Bool :=
  match wrapper.recentlyDeletedTransactions.lookup hash with
  | some deletedAt => deletedAt ≥ wrapper.timeout
  | none => false

/-- `recentlyDeletedTransactions.emplace(hash, currentTime)`, which keeps an earlier entry. -/
def TransactionPoolCleanWrapper.rememberDeleted (wrapper : TransactionPoolCleanWrapper) (hash : Hash)
    (currentTime : UInt64) : TransactionPoolCleanWrapper :=
  match wrapper.recentlyDeletedTransactions.lookup hash with
  | some _ => wrapper
  | none => { wrapper with recentlyDeletedTransactions := wrapper.recentlyDeletedTransactions ++ [(hash, currentTime)] }

/-- `cleanRecentlyDeletedTransactions(currentTime)`. -/
def TransactionPoolCleanWrapper.cleanRecentlyDeletedTransactions (wrapper : TransactionPoolCleanWrapper)
    (currentTime : UInt64) : TransactionPoolCleanWrapper :=
  { wrapper with
    recentlyDeletedTransactions := wrapper.recentlyDeletedTransactions.filter fun entry =>
      !(currentTime - entry.2 ≥ wrapper.timeout) }

/-- `TransactionPoolCleanWrapper::pushTransaction`. -/
def TransactionPoolCleanWrapper.pushTransaction (now : UInt64) (transaction : CachedTransaction)
    (transactionState : TransactionValidatorState) (wrapper : TransactionPoolCleanWrapper) :
    TransactionPoolCleanWrapper × Bool :=
  if wrapper.isTransactionRecentlyDeleted (primitives.getTransactionHash transaction.transaction) then (wrapper, false)
  else
    let (pool, pushed) := wrapper.transactionPool.pushTransaction primitives now transaction transactionState
    ({ wrapper with transactionPool := pool }, pushed)

/-- `TransactionPoolCleanWrapper::removeTransaction`. -/
def TransactionPoolCleanWrapper.removeTransaction (hash : Hash) (wrapper : TransactionPoolCleanWrapper) :
    TransactionPoolCleanWrapper × Bool :=
  let (pool, removed) := wrapper.transactionPool.removeTransaction primitives hash
  ({ wrapper with transactionPool := pool }, removed)

/-- A deletion of `clean`: the hash is remembered, removed, and reported. -/
def TransactionPoolCleanWrapper.deleteTransaction (hash : Hash) (currentTime : UInt64)
    (wrapper : TransactionPoolCleanWrapper) (deletedTransactions : List Hash) :
    TransactionPoolCleanWrapper × List Hash :=
  (((wrapper.rememberDeleted hash currentTime).removeTransaction primitives hash).1, deletedTransactions ++ [hash])

/-- The loop of `clean(height)` over the hashes it read first. A transaction past its live time is
deleted, and the loop then reads it from the pool all the same to check its mixin. -/
def TransactionPoolCleanWrapper.cleanLoop (validateMixins : List CachedTransaction → ℕ → Bool) (height : ℕ)
    (currentTime : UInt64) :
    List Hash → TransactionPoolCleanWrapper → List Hash → Option (TransactionPoolCleanWrapper × List Hash)
  | [], wrapper, deletedTransactions => some (wrapper, deletedTransactions)
  | hash :: hashes, wrapper, deletedTransactions => do
    let receiveTime ← wrapper.transactionPool.getTransactionReceiveTime primitives hash
    let (wrapper, deletedTransactions) :=
      if currentTime - receiveTime ≥ wrapper.timeout then
        wrapper.deleteTransaction primitives hash currentTime deletedTransactions
      else (wrapper, deletedTransactions)
    let transaction ← wrapper.transactionPool.getTransaction primitives hash
    let (wrapper, deletedTransactions) :=
      if !validateMixins [transaction] height then
        wrapper.deleteTransaction primitives hash currentTime deletedTransactions
      else (wrapper, deletedTransactions)
    cleanLoop validateMixins height currentTime hashes wrapper deletedTransactions

/-- `TransactionPoolCleanWrapper::clean(height)` at the time `currentTime` of its time provider. -/
def TransactionPoolCleanWrapper.clean (validateMixins : List CachedTransaction → ℕ → Bool) (height : ℕ)
    (currentTime : UInt64) (wrapper : TransactionPoolCleanWrapper) :
    Option (TransactionPoolCleanWrapper × List Hash) := do
  let (wrapper, deletedTransactions) ← TransactionPoolCleanWrapper.cleanLoop primitives validateMixins height
    currentTime (wrapper.transactionPool.getTransactionHashes primitives) wrapper []
  pure (wrapper.cleanRecentlyDeletedTransactions currentTime, deletedTransactions)

end Cleaner

/-! ## The pool side of `Core` -/

def MINIMUM_FEE : UInt64 := 10
def FUSION_TX_MIN_INPUT_COUNT : ℕ := 12
def FUSION_TX_MIN_IN_OUT_COUNT_RATIO : ℕ := 4
def FUSION_DUST_THRESHOLD_HEIGHT_V2 : ℕ := 800000

/-- `Currency::defaultFusionDustThreshold(height)`. -/
def Currency.defaultFusionDustThreshold (currency : Currency) (height : ℕ) : UInt64 :=
  if height ≥ FUSION_DUST_THRESHOLD_HEIGHT_V2 then DEFAULT_DUST_THRESHOLD_V2 else currency.defaultDustThreshold

/-- `getInputsAmounts(transaction)`: the amounts of the key inputs. -/
def getInputsAmounts (transaction : Transaction) : List UInt64 :=
  transaction.inputs.filterMap fun
    | .key input => some input.amount
    | .base _ => none

/-- `Currency::isFusionTransaction(inputsAmounts, outputsAmounts, size, height)`: a small
transaction of many inputs above the fusion dust threshold, whose outputs are the sorted
decomposition of their sum. -/
def Currency.isFusionTransaction (currency : Currency) (inputsAmounts outputsAmounts : List UInt64)
    (size height : ℕ) : Bool :=
  if size > currency.fusionTxMaxSize then false
  else if inputsAmounts.length < FUSION_TX_MIN_INPUT_COUNT then false
  else if inputsAmounts.length < outputsAmounts.length * FUSION_TX_MIN_IN_OUT_COUNT_RATIO then false
  else if inputsAmounts.any (· < currency.defaultFusionDustThreshold height) then false
  else
    let expectedOutputsAmounts :=
      decomposeAmount inputsAmounts.sum (currency.defaultFusionDustThreshold height) []
    expectedOutputsAmounts.mergeSort (· ≤ ·) == outputsAmounts

/-- `getMaximumTransactionAllowedSize(blockSizeMedian, currency)`; its assert keeps the difference
positive. -/
def getMaximumTransactionAllowedSize (blockSizeMedian : ℕ) (currency : Currency) : ℕ :=
  blockSizeMedian * 2 - currency.minerTxBlobReservedSize

/-- What the pool functions of `Core` read of the chain: the segments from `chainsLeaves[0]` to the
root, `getTopBlockIndex()` and `blockMedianSize`. -/
structure PoolChainView where
  mainChain : List Segment
  topBlockIndex : ℕ
  blockMedianSize : ℕ

section Core

variable (context : CoreContext) (view : PoolChainView)

/-- `Core::isTransactionValidForPool(cachedTransaction, validatorState)` from an empty state: the
state it leaves, when it returns `true`. -/
def isTransactionValidForPool (cachedTransaction : CachedTransaction) : Option TransactionValidatorState :=
  if !context.validateMixins [cachedTransaction] view.topBlockIndex then none
  else
    match context.validateTransaction view.mainChain cachedTransaction ⟨[]⟩ view.topBlockIndex with
    | .error _ => none
    | .ok (fee, validatorState) =>
      if cachedTransaction.transactionBinaryArray.length >
          getMaximumTransactionAllowedSize view.blockMedianSize context.currency then none
      else
        let isFusion := fee == 0 && context.currency.isFusionTransaction
          (getInputsAmounts cachedTransaction.transaction)
          (cachedTransaction.transaction.outputs.map (·.amount))
          cachedTransaction.transactionBinaryArray.length view.topBlockIndex
        if !isFusion && fee < MINIMUM_FEE then none else some validatorState

/-- `Core::addTransactionToPool(cachedTransaction)` at the clock time `now`. -/
def addTransactionToPool (now : UInt64) (cachedTransaction : CachedTransaction)
    (pool : TransactionPoolCleanWrapper) : TransactionPoolCleanWrapper × Bool :=
  match isTransactionValidForPool context view cachedTransaction with
  | none => (pool, false)
  | some validatorState => pool.pushTransaction context.primitives now cachedTransaction validatorState

/-- The loop of `Core::actualizePoolTransactions`: each transaction is removed and added again. -/
def actualizePoolTransactionsLoop (now : UInt64) :
    List Hash → TransactionPoolCleanWrapper → Option TransactionPoolCleanWrapper
  | [], pool => some pool
  | hash :: hashes, pool => do
    let tx ← pool.transactionPool.getTransaction context.primitives hash
    let pool := (pool.removeTransaction context.primitives hash).1
    let pool := (addTransactionToPool context view now tx pool).1
    actualizePoolTransactionsLoop now hashes pool

/-- `Core::actualizePoolTransactions()`. -/
def actualizePoolTransactions (now : UInt64) (pool : TransactionPoolCleanWrapper) :
    Option TransactionPoolCleanWrapper :=
  actualizePoolTransactionsLoop context view now (pool.transactionPool.getTransactionHashes context.primitives) pool

/-- The loop of `Core::actualizePoolTransactionsLite(validatorState)`: a transaction that spends a
key image of the state, or is now too large, is removed. -/
def actualizePoolTransactionsLiteLoop (validatorState : TransactionValidatorState) :
    List Hash → TransactionPoolCleanWrapper → Option TransactionPoolCleanWrapper
  | [], pool => some pool
  | hash :: hashes, pool => do
    let tx ← pool.transactionPool.getTransaction context.primitives hash
    let txState := extractSpentOutputs tx
    let pool :=
      if hasIntersections validatorState txState ||
          decide (tx.transactionBinaryArray.length > getMaximumTransactionAllowedSize view.blockMedianSize context.currency)
      then (pool.removeTransaction context.primitives hash).1
      else pool
    actualizePoolTransactionsLiteLoop validatorState hashes pool

/-- `Core::actualizePoolTransactionsLite(validatorState)`. -/
def actualizePoolTransactionsLite (validatorState : TransactionValidatorState) (pool : TransactionPoolCleanWrapper) :
    Option TransactionPoolCleanWrapper :=
  actualizePoolTransactionsLiteLoop context view validatorState
    (pool.transactionPool.getTransactionHashes context.primitives) pool

end Core

/-- The calls that change the pool, each with the chain it reads. -/
inductive PoolOperation where
  | add (view : PoolChainView) (now : UInt64) (transaction : CachedTransaction)
  | remove (hash : Hash)
  | actualize (view : PoolChainView) (now : UInt64)
  | actualizeLite (view : PoolChainView) (validatorState : TransactionValidatorState)
  | clean (height : ℕ) (currentTime : UInt64)

/-- One call; `none` where it reads a hash the pool does not hold. -/
def PoolOperation.apply (context : CoreContext) (pool : TransactionPoolCleanWrapper) :
    PoolOperation → Option TransactionPoolCleanWrapper
  | .add view now transaction => some (addTransactionToPool context view now transaction pool).1
  | .remove hash => some (pool.removeTransaction context.primitives hash).1
  | .actualize view now => actualizePoolTransactions context view now pool
  | .actualizeLite view validatorState => actualizePoolTransactionsLite context view validatorState pool
  | .clean height currentTime =>
    (pool.clean context.primitives context.validateMixins height currentTime).map (·.1)

/-- A run of calls, up to the first undefined one. -/
def runPool (context : CoreContext) : List PoolOperation → TransactionPoolCleanWrapper → Option TransactionPoolCleanWrapper
  | [], pool => some pool
  | operation :: operations, pool => do
    let pool ← operation.apply context pool
    runPool context operations pool

end Nox.CryptoNote
