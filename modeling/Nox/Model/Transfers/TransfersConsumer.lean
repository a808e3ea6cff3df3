import Nox.Model.Transfers.TransfersContainer
import Nox.Model.Transfers.BlockchainSynchronizer
import Nox.Model.CryptoNoteCore.TransactionExtraWriter

/-! # `TransfersConsumer::onNewBlocks`

The consumer hands the transactions of a batch of blocks to its subscriptions. A pushing thread
walks the blocks: a block without data, or older than the sync start, is counted as empty; a
transaction without a public key is skipped; every other one is queued with its height, its index
in the block and whether it is the block's last. Workers preprocess the queue, finding the outputs
of each subscription and their global indexes. The results are sorted back into the order of the
queue and processed one by one: each subscription's container adds the transaction or confirms it.
The count of processed blocks starts at the number of empty blocks and grows at each transaction
flagged last, when every subscription advances to the height that count names. Whatever the count
falls short of the batch, the subscriptions are detached from.

Finding a subscription's outputs needs the view key and the node's global indexes, so the
preprocessing is a parameter, `preprocess`, that fails where the source returns an error code. The
workers preprocess every transaction before any is processed, and the order they finish in is undone
by the sort, so the model preprocesses in queue order. The observers and the log lines are left out.
-/

namespace Nox.CryptoNote

open Nox.Crypto

/-- `NULL_PUBLIC_KEY`. -/
def NULL_PUBLIC_KEY : PublicKey := ⟨Vector.replicate 32 0⟩

/-- The amount an input spends, `getTransactionInputAmount`: none for a coinbase input. -/
def getTransactionInputAmount : TransactionInput → UInt64
  | .base _ => 0
  | .key input => input.amount

/-- `TransactionPrefixImpl` over a transaction prefix: what the consumer and the containers read of a
transaction, with the extra parsed once. -/
def TransactionPrefixInfo.reader (info : TransactionPrefixInfo) : TransactionReader where
  transactionHash := info.txHash
  transactionPublicKey := getTransactionPublicKeyFromExtra info.txPrefix.extra
  unlockTime := info.txPrefix.unlockTime
  paymentId := getPaymentIdFromTxExtra info.txPrefix.extra
  extra := info.txPrefix.extra
  inputTotalAmount := info.txPrefix.inputs.foldl (fun total input => total + getTransactionInputAmount input) 0
  outputTotalAmount := info.txPrefix.outputs.foldl (fun total output => total + output.amount) 0
  inputs := info.txPrefix.inputs

/-- `TransfersSubscription`: the spend key it is found by in the consumer, and its container. -/
structure TransfersSubscription where
  spendPublicKey : PublicKey
  container : TransfersContainer
deriving DecidableEq, Repr

/-- `PreprocessInfo`: the transfers found for each subscription, and the transaction's global
output indexes. -/
structure PreprocessInfo where
  outputs : List (PublicKey × List TransactionOutputInformationIn)
  globalIdxs : List UInt32
deriving DecidableEq, Repr

/-- The state of a `TransfersConsumer` that `onNewBlocks` reads and changes: the sync start, the
subscriptions in the order `forEachSubscription` visits them, and the pool transactions it knows. -/
structure TransfersConsumer where
  syncStart : SynchronizationStart
  subscriptions : List TransfersSubscription
  poolTxs : List Hash
deriving DecidableEq, Repr

/-- The `Tx` of a queued transaction. -/
structure QueuedTransaction where
  blockInfo : TransactionBlockInfo
  tx : TransactionPrefixInfo
  isLastTransactionInBlock : Bool
deriving DecidableEq, Repr

/-- What `processTransaction` throws: `MarkTransactionConfirmedException` with its hash, or another
exception. -/
inductive ConsumerException where
  | markTransactionConfirmed (transactionHash : Hash)
  | other (message : String)
deriving DecidableEq, Repr

namespace TransfersConsumer

/-- The loop over a block's transactions in the pushing thread, from index `transactionIndex` on in
a block of `size` transactions: a transaction without a public key is skipped, but counted in the
index. -/
def queueTransactions (height : UInt32) (timestamp : UInt64) (size : ℕ) :
    ℕ → List TransactionPrefixInfo → List QueuedTransaction
  | _, [] => []
  | transactionIndex, tx :: txs =>
    if tx.reader.transactionPublicKey = NULL_PUBLIC_KEY then queueTransactions height timestamp size (transactionIndex + 1) txs
    else
      ⟨⟨height, timestamp, UInt32.ofNat transactionIndex⟩, tx, transactionIndex + 1 == size⟩ ::
        queueTransactions height timestamp size (transactionIndex + 1) txs

/-- The pushing thread over the first `count` blocks, from the block at `startHeight + i` on: the
queue and `emptyBlockCount`. A block without data, or older than a sync start that is set, is
counted as empty. -/
def pushBlocks (syncStart : SynchronizationStart) (startHeight : ℕ) :
    ℕ → List CompleteBlock → List QueuedTransaction × ℕ
  | _, [] => ([], 0)
  | i, block :: blocks =>
    let (queue, emptyBlockCount) := pushBlocks syncStart startHeight (i + 1) blocks
    match block.block with
    | none => (queue, emptyBlockCount + 1)
    | some template =>
      if syncStart.timestamp != 0 && template.timestamp < syncStart.timestamp then (queue, emptyBlockCount + 1)
      else
        (queueTransactions (UInt32.ofNat (startHeight + i)) template.timestamp block.transactions.length 0
          block.transactions ++ queue, emptyBlockCount)

variable (consumer : TransfersConsumer)

/-- `processOutputs(blockInfo, sub, tx, transfers, globalIdxs, contains, updated)` on one
subscription: a transaction the container holds unconfirmed is confirmed, one it does not hold is
added, and one it holds in a block is left alone. A failed confirmation throws
`MarkTransactionConfirmedException`, a failed addition what the container threw. -/
def processOutputs (blockInfo : TransactionBlockInfo) (tx : TransactionReader)
    (transfers : List TransactionOutputInformationIn) (globalIdxs : List UInt32) (sub : TransfersSubscription) :
    Except ConsumerException Bool × TransfersSubscription :=
  match sub.container.transactions.find? (·.transactionHash == tx.transactionHash) with
  | some info =>
    if info.blockHeight == WALLET_UNCONFIRMED_TRANSACTION_HEIGHT &&
        blockInfo.height != WALLET_UNCONFIRMED_TRANSACTION_HEIGHT then
      match sub.container.markTransactionConfirmed blockInfo tx.transactionHash globalIdxs with
      | (.error _, container) => (.error (.markTransactionConfirmed tx.transactionHash), { sub with container })
      | (.ok _, container) => (.ok true, { sub with container })
    else (.ok false, sub)
  | none =>
    match sub.container.addTransaction blockInfo tx transfers with
    | (.error message, container) => (.error (.other message), { sub with container })
    | (.ok updated, container) => (.ok updated, { sub with container })

/-- `processTransaction(blockInfo, tx, info)`: `processOutputs` on every subscription in turn, each
with the transfers found for it; an exception stops the loop with the subscriptions as it leaves
them. -/
def processTransaction (blockInfo : TransactionBlockInfo) (tx : TransactionReader) (info : PreprocessInfo) :
    List TransfersSubscription → Except ConsumerException Unit × List TransfersSubscription
  | [] => (.ok (), [])
  | sub :: subs =>
    let transfers := (info.outputs.lookup sub.spendPublicKey).getD []
    match processOutputs blockInfo tx transfers info.globalIdxs sub with
    | (.error e, sub) => (.error e, sub :: subs)
    | (.ok _, sub) =>
      let (result, subs) := processTransaction blockInfo tx info subs
      (result, sub :: subs)

/-- `forEachSubscription` with `advanceHeight(height)`. -/
def advanceHeight (height : UInt32) (subs : List TransfersSubscription) : List TransfersSubscription :=
  subs.map fun sub => { sub with container := (sub.container.advanceHeight height).2 }

/-- `forEachSubscription` with `onBlockchainDetach(height)`. -/
def onBlockchainDetach (height : UInt32) (subs : List TransfersSubscription) : List TransfersSubscription :=
  subs.map fun sub => { sub with container := (sub.container.detach height).2 }

/-- `forEachSubscription` with `onError(ec, height)`: a detach at the height unless it is the
unconfirmed one. -/
def onError (height : UInt32) (subs : List TransfersSubscription) : List TransfersSubscription :=
  if height != WALLET_UNCONFIRMED_TRANSACTION_HEIGHT then onBlockchainDetach height subs else subs

/-- `forEachSubscription` with `deleteUnconfirmedTransaction(transactionHash)`. -/
def deleteUnconfirmedTransaction (transactionHash : Hash) (subs : List TransfersSubscription) :
    List TransfersSubscription :=
  subs.map fun sub => { sub with container := (sub.container.deleteUnconfirmedTransaction transactionHash).2 }

/-- The processing loop over the sorted transactions, with `processedBlockCount`: each transaction
flagged last counts its block and advances every subscription to the height the count names. An
exception ends the loop, with the count so far. -/
def processLoop (startHeight : UInt32) :
    List (QueuedTransaction × PreprocessInfo) → ℕ → List TransfersSubscription →
      Option ConsumerException × ℕ × List TransfersSubscription
  | [], processedBlockCount, subs => (none, processedBlockCount, subs)
  | (item, info) :: items, processedBlockCount, subs =>
    match processTransaction item.blockInfo item.tx.reader info subs with
    | (.error e, subs) => (some e, processedBlockCount, subs)
    | (.ok (), subs) =>
      if item.isLastTransactionInBlock then
        let processedBlockCount := processedBlockCount + 1
        processLoop startHeight items processedBlockCount
          (advanceHeight (startHeight + UInt32.ofNat processedBlockCount - 1) subs)
      else processLoop startHeight items processedBlockCount subs

variable (preprocess : TransactionBlockInfo → TransactionReader → Option PreprocessInfo)

/-- `onNewBlocks(blocks, startHeight, count)`: the consumer after the batch and the number of
blocks it reports processed. A failed preprocessing reports an error to every subscription and
none of the blocks processed. -/
def onNewBlocks (blocks : List CompleteBlock) (startHeight count : ℕ) : TransfersConsumer × ℕ :=
  let (queue, emptyBlockCount) := pushBlocks consumer.syncStart startHeight 0 (blocks.take count)
  match queue.mapM (fun item => (preprocess item.blockInfo item.tx.reader).map (item, ·)) with
  | none => ({ consumer with subscriptions := onError (UInt32.ofNat startHeight) consumer.subscriptions }, 0)
  | some preprocessed =>
    let (thrown, processedBlockCount, subs) :=
      processLoop (UInt32.ofNat startHeight) preprocessed emptyBlockCount consumer.subscriptions
    let (subs, poolTxs) := match thrown with
      | some (.markTransactionConfirmed transactionHash) =>
        (deleteUnconfirmedTransaction transactionHash subs, consumer.poolTxs.erase transactionHash)
      | _ => (subs, consumer.poolTxs)
    let subs := if processedBlockCount < count then
      onBlockchainDetach (UInt32.ofNat (startHeight + processedBlockCount)) subs else subs
    ({ consumer with subscriptions := subs, poolTxs }, processedBlockCount)

end TransfersConsumer

end Nox.CryptoNote
