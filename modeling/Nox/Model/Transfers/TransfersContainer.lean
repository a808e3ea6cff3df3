import Nox.Model.CryptoNoteCore.Currency

/-! # The transfers of a wallet: `Transfers/TransfersContainer.cpp`

A `TransfersContainer` holds the transactions of one wallet address and the outputs they pay it,
the transfers: those of unconfirmed transactions, the available ones and the spent ones, each spent
transfer with the input that spent it. `addTransaction` records a transaction with its outputs and
the inputs that spend available outputs, `markTransactionConfirmed` moves an unconfirmed transaction
and its transfers into a block, `deleteUnconfirmedTransaction` and `detach` remove transactions and
give the outputs they spent back, and `advanceHeight` moves the current height up.

Two outputs may carry one key image (two outputs with one key). Only one of them can be spent, and
only one is visible: the spent one, if there is one, else the available one of the earliest block
and transaction, else the unconfirmed one if there is exactly one. `updateTransfersVisibility`
recomputes this for a key image after each change of its transfers.

`addTransaction` and `markTransactionConfirmed` throw from the middle of their loops and undo, in
their handlers, what the loops did: a call here returns its result or its error together with the
state the container is left in.

Each `boost::multi_index_container` is a list in the order its index walks: an element is emplaced
at the end of its group, an erase keeps the order of the others, and `replace` keeps the place. The
transactions are kept in the order of their height index: an emplace goes after the transactions of
its height, and a `replace` that changes the height relinks the transaction after those of its new
height unless it still sits between its neighbours, as Boost's ordered index does. `std::sort` of
the transfers of a key image is a stable sort: the source leaves the order of transfers of one block
and transaction unspecified. Every output of this currency is a key output, so every transfer is of
type `Key`; and the asserts are those of a release build, which does not check them.
-/

namespace Nox.CryptoNote

open Nox.Crypto

/-- `WALLET_UNCONFIRMED_TRANSACTION_HEIGHT`. -/
def WALLET_UNCONFIRMED_TRANSACTION_HEIGHT : UInt32 := 0xFFFFFFFF

/-- `UNCONFIRMED_TRANSACTION_GLOBAL_OUTPUT_INDEX`. -/
def UNCONFIRMED_TRANSACTION_GLOBAL_OUTPUT_INDEX : UInt32 := 0xFFFFFFFF

/-- `NULL_HASH`. -/
def NULL_HASH : Hash := ⟨Vector.replicate 32 0⟩

/-- `TransactionBlockInfo`: where a transaction is, or `WALLET_UNCONFIRMED_TRANSACTION_HEIGHT`. -/
structure TransactionBlockInfo where
  height : UInt32
  timestamp : UInt64
  transactionIndex : UInt32
deriving DecidableEq, Repr

/-- `TransactionInformation`. -/
structure TransactionInformation where
  transactionHash : Hash
  publicKey : PublicKey
  blockHeight : UInt32
  timestamp : UInt64
  unlockTime : UInt64
  totalAmountIn : UInt64
  totalAmountOut : UInt64
  extra : List UInt8
  paymentId : Hash
deriving DecidableEq, Repr

/-- `TransactionOutputInformationIn`: an output of a transaction that pays the wallet, as
`TransfersConsumer` finds it, with its key image. -/
structure TransactionOutputInformationIn where
  amount : UInt64
  globalOutputIndex : UInt32
  outputInTransaction : UInt32
  transactionHash : Hash
  transactionPublicKey : PublicKey
  outputKey : PublicKey
  keyImage : KeyImage
deriving DecidableEq, Repr

/-- `TransactionOutputInformationEx`: a transfer as the container keeps it. -/
structure TransactionOutputInformationEx extends TransactionOutputInformationIn where
  unlockTime : UInt64
  blockHeight : UInt32
  transactionIndex : UInt32
  visible : Bool
deriving DecidableEq, Repr

/-- `SpentTransactionOutput`: a spent transfer and the input that spent it. -/
structure SpentTransactionOutput extends TransactionOutputInformationEx where
  spendingBlock : TransactionBlockInfo
  spendingTransactionHash : Hash
  inputInTransaction : UInt32
deriving DecidableEq, Repr

/-- What the container reads of a transaction through `ITransactionReader`: `getPaymentId` is
`none` where it returns false, and the inputs are those `getInputType` and `getInput` walk. -/
structure TransactionReader where
  transactionHash : Hash
  transactionPublicKey : PublicKey
  unlockTime : UInt64
  paymentId : Option Hash
  extra : List UInt8
  inputTotalAmount : UInt64
  outputTotalAmount : UInt64
  inputs : List TransactionInput
deriving DecidableEq, Repr

/-- The state of a `TransfersContainer`. `transactionSpendableAge` is set by the constructor. -/
structure TransfersContainer where
  transactions : List TransactionInformation
  unconfirmedTransfers : List TransactionOutputInformationEx
  availableTransfers : List TransactionOutputInformationEx
  spentTransfers : List SpentTransactionOutput
  currentHeight : UInt32
  transactionSpendableAge : ℕ
deriving DecidableEq, Repr

/-- What a call returns, or the message of the exception it throws, and the state it leaves. -/
abbrev Outcome (α : Type) := Except String α × TransfersContainer

/-- `TransferIteratorList::lessTIterator`. -/
def lessTIterator (first second : TransactionOutputInformationEx) : Bool :=
  first.blockHeight < second.blockHeight ||
    (first.blockHeight == second.blockHeight && first.transactionIndex < second.transactionIndex)

/-- `TransferIteratorList::minElement`: `std::min_element` keeps the first of the least. -/
def minElement : List TransactionOutputInformationEx → Option TransactionOutputInformationEx
  | [] => none
  | first :: rest => some (rest.foldl (fun best transfer => if lessTIterator transfer best then transfer else best) first)

/-- `TransferIteratorList::sort` followed by `findFirstByAmount(amount)`. -/
def findFirstByAmount (transfers : List TransactionOutputInformationEx) (amount : UInt64) :
    Option TransactionOutputInformationEx :=
  (transfers.insertionSort fun first second => !lessTIterator second first).find? (·.amount == amount)

/-- `updateVisibility(collection, range, visible)` over the transfers of a key image. -/
def setVisible (keyImage : KeyImage) (visible : Bool) (transfers : List TransactionOutputInformationEx) :
    List TransactionOutputInformationEx :=
  transfers.map fun transfer => if transfer.keyImage == keyImage then { transfer with visible := visible } else transfer

/-- `updateVisibility(spentIndex, spentRange, true)`. -/
def setSpentVisible (keyImage : KeyImage) (transfers : List SpentTransactionOutput) : List SpentTransactionOutput :=
  transfers.map fun transfer =>
    if transfer.keyImage == keyImage then { transfer with visible := true } else transfer

/-- `emplace` into the height index: after the transactions of the same height. -/
def insertByHeight (info : TransactionInformation) (transactions : List TransactionInformation) :
    List TransactionInformation :=
  transactions.takeWhile (·.blockHeight ≤ info.blockHeight) ++ info :: transactions.dropWhile (·.blockHeight ≤ info.blockHeight)

/-- `m_transactions.replace(it, info)` of the transaction at place `i` of the height index: it stays
where it is while its new height is between those of its neighbours. -/
def replaceTransaction (transactions : List TransactionInformation) (i : ℕ) (info : TransactionInformation) :
    List TransactionInformation :=
  let afterPrevious := match i with
    | 0 => true
    | j + 1 => transactions[j]?.all fun previous => previous.blockHeight ≤ info.blockHeight
  let beforeNext := transactions[i + 1]?.all fun next => info.blockHeight ≤ next.blockHeight
  if afterPrevious && beforeNext then transactions.set i info else insertByHeight info (transactions.eraseIdx i)

namespace TransfersContainer

variable (container : TransfersContainer)

/-- `updateTransfersVisibility(keyImage)`. -/
def updateTransfersVisibility (keyImage : KeyImage) : TransfersContainer :=
  let unconfirmedCount := container.unconfirmedTransfers.countP (·.keyImage == keyImage)
  let availableCount := container.availableTransfers.countP (·.keyImage == keyImage)
  let spentCount := container.spentTransfers.countP (·.keyImage == keyImage)
  if spentCount > 0 then
    { container with
      unconfirmedTransfers := setVisible keyImage false container.unconfirmedTransfers,
      availableTransfers := setVisible keyImage false container.availableTransfers,
      spentTransfers := setSpentVisible keyImage container.spentTransfers }
  else if availableCount > 0 then
    let availableTransfers := setVisible keyImage false container.availableTransfers
    { container with
      unconfirmedTransfers := setVisible keyImage false container.unconfirmedTransfers,
      availableTransfers :=
        match minElement (availableTransfers.filter (·.keyImage == keyImage)) with
        | some earliest => availableTransfers.replace earliest { earliest with visible := true }
        | none => availableTransfers }
  else
    { container with
      unconfirmedTransfers := setVisible keyImage (unconfirmedCount == 1) container.unconfirmedTransfers }

/-- The loop over the spending index in `deleteTransactionTransfers`: `count` rounds, each moving the
first transfer the transaction spent back to the available ones. -/
def restoreSpentLoop (transactionHash : Hash) : ℕ → TransfersContainer → TransfersContainer
  | 0, container => container
  | count + 1, container =>
    match container.spentTransfers.find? (·.spendingTransactionHash == transactionHash) with
    | none => container
    | some spent =>
      let container := { container with
        availableTransfers := container.availableTransfers ++ [spent.toTransactionOutputInformationEx],
        spentTransfers := container.spentTransfers.eraseP (·.spendingTransactionHash == transactionHash) }
      restoreSpentLoop transactionHash count (container.updateTransfersVisibility spent.keyImage)

/-- The loop over the unconfirmed transfers of a transaction in `deleteTransactionTransfers`. -/
def eraseUnconfirmedLoop (transactionHash : Hash) : ℕ → TransfersContainer → TransfersContainer
  | 0, container => container
  | count + 1, container =>
    match container.unconfirmedTransfers.find? (·.transactionHash == transactionHash) with
    | none => container
    | some transfer =>
      let container := { container with
        unconfirmedTransfers := container.unconfirmedTransfers.eraseP (·.transactionHash == transactionHash) }
      eraseUnconfirmedLoop transactionHash count (container.updateTransfersVisibility transfer.keyImage)

/-- The loop over the available transfers of a transaction in `deleteTransactionTransfers`. -/
def eraseAvailableLoop (transactionHash : Hash) : ℕ → TransfersContainer → TransfersContainer
  | 0, container => container
  | count + 1, container =>
    match container.availableTransfers.find? (·.transactionHash == transactionHash) with
    | none => container
    | some transfer =>
      let container := { container with
        availableTransfers := container.availableTransfers.eraseP (·.transactionHash == transactionHash) }
      eraseAvailableLoop transactionHash count (container.updateTransfersVisibility transfer.keyImage)

/-- `deleteTransactionTransfers(transactionHash)`: the outputs the transaction spent become available
again, and its own transfers are erased. Each loop runs once over the range it starts with. -/
def deleteTransactionTransfers (transactionHash : Hash) : TransfersContainer :=
  let container := restoreSpentLoop transactionHash
    (container.spentTransfers.countP (·.spendingTransactionHash == transactionHash)) container
  let container := eraseUnconfirmedLoop transactionHash
    (container.unconfirmedTransfers.countP (·.transactionHash == transactionHash)) container
  eraseAvailableLoop transactionHash
    (container.availableTransfers.countP (·.transactionHash == transactionHash)) container

/-- The private `addTransaction(block, tx)`: the transaction's record in `m_transactions`. -/
def addTransactionInformation (block : TransactionBlockInfo) (tx : TransactionReader) : TransfersContainer :=
  let txInfo : TransactionInformation :=
    { blockHeight := block.height, timestamp := block.timestamp, transactionHash := tx.transactionHash,
      unlockTime := tx.unlockTime, publicKey := tx.transactionPublicKey, totalAmountIn := tx.inputTotalAmount,
      totalAmountOut := tx.outputTotalAmount, extra := tx.extra, paymentId := tx.paymentId.getD NULL_HASH }
  { container with transactions := insertByHeight txInfo container.transactions }

/-- The loop of `addTransactionOutputs` over the transfers, with `outputsAdded`. -/
def addTransactionOutputsLoop (block : TransactionBlockInfo) (tx : TransactionReader) :
    List TransactionOutputInformationIn → Bool → TransfersContainer → Outcome Bool
  | [], outputsAdded, container => (.ok outputsAdded, container)
  | transfer :: transfers, _, container =>
    let transactionIsUnconfimed := block.height == WALLET_UNCONFIRMED_TRANSACTION_HEIGHT
    let transferIsUnconfirmed := transfer.globalOutputIndex == UNCONFIRMED_TRANSACTION_GLOBAL_OUTPUT_INDEX
    if transactionIsUnconfimed != transferIsUnconfirmed then
      (.error "Failed to add transaction output: globalOutputIndex is invalid", container)
    else
      let info : TransactionOutputInformationEx :=
        { toTransactionOutputInformationIn := { transfer with transactionHash := tx.transactionHash },
          blockHeight := block.height, transactionIndex := block.transactionIndex, unlockTime := tx.unlockTime,
          visible := true }
      if transferIsUnconfirmed then
        let container := { container with unconfirmedTransfers := container.unconfirmedTransfers ++ [info] }
        addTransactionOutputsLoop block tx transfers true (container.updateTransfersVisibility info.keyImage)
      else
        let sameOutput (other : TransactionOutputInformationEx) : Bool :=
          other.keyImage == info.keyImage && other.transactionHash == info.transactionHash &&
            other.outputInTransaction == info.outputInTransaction
        let duplicate := container.availableTransfers.any sameOutput ||
          container.spentTransfers.any (sameOutput ·.toTransactionOutputInformationEx)
        if duplicate then (.error "Failed to add transaction output: key output already exists", container)
        else
          let container := { container with availableTransfers := container.availableTransfers ++ [info] }
          addTransactionOutputsLoop block tx transfers true (container.updateTransfersVisibility info.keyImage)

/-- `copyToSpent(block, tx, inputIndex, output)`: `emplace` into the index unique by key image. -/
def copyToSpent (block : TransactionBlockInfo) (tx : TransactionReader) (inputIndex : ℕ)
    (output : TransactionOutputInformationEx) : TransfersContainer :=
  let spentOutput : SpentTransactionOutput :=
    { toTransactionOutputInformationEx := output, spendingBlock := block,
      spendingTransactionHash := tx.transactionHash, inputInTransaction := inputIndex.toUInt32 }
  if container.spentTransfers.any (·.keyImage == output.keyImage) then container
  else { container with spentTransfers := container.spentTransfers ++ [spentOutput] }

/-- The loop of `addTransactionInputs` over the inputs, from input `i` on, with `inputsAdded`. -/
def addTransactionInputsLoop (block : TransactionBlockInfo) (tx : TransactionReader) :
    List TransactionInput → ℕ → Bool → TransfersContainer → Outcome Bool
  | [], _, inputsAdded, container => (.ok inputsAdded, container)
  | .base _ :: inputs, i, inputsAdded, container => addTransactionInputsLoop block tx inputs (i + 1) inputsAdded container
  | .key input :: inputs, i, inputsAdded, container =>
    if container.spentTransfers.any (·.keyImage == input.keyImage) then
      (.error "Failed add key input: key image already spent", container)
    else
      let available := container.availableTransfers.filter (·.keyImage == input.keyImage)
      let unconfirmedCount := container.unconfirmedTransfers.countP (·.keyImage == input.keyImage)
      if available.length = 0 then
        if unconfirmedCount > 0 then
          (.error "Failed to add key input: spend output of unconfirmed transaction", container)
        -- This input doesn't spend any transfer from this container
        else addTransactionInputsLoop block tx inputs (i + 1) inputsAdded container
      else
        match findFirstByAmount available input.amount with
        | none => (.error "Failed to add key input: invalid amount", container)
        | some spendingTransfer =>
          let container := container.copyToSpent block tx i spendingTransfer
          let container := { container with availableTransfers := container.availableTransfers.erase spendingTransfer }
          addTransactionInputsLoop block tx inputs (i + 1) true (container.updateTransfersVisibility input.keyImage)

/-- The `try` block of the public `addTransaction`. -/
def addTransactionBody (block : TransactionBlockInfo) (tx : TransactionReader)
    (transfers : List TransactionOutputInformationIn) : Outcome Bool :=
  if block.height < container.currentHeight then
    (.error "Failed to add transaction: block index < m_currentHeight", container)
  else if container.transactions.any (·.transactionHash == tx.transactionHash) then
    (.error "Transaction is already added", container)
  else
    match addTransactionOutputsLoop block tx transfers false container with
    | (.error message, container) => (.error message, container)
    | (.ok outputsAdded, container) =>
      -- `added |= addTransactionInputs(block, tx)` runs the inputs whatever the outputs gave.
      match addTransactionInputsLoop block tx tx.inputs 0 false container with
      | (.error message, container) => (.error message, container)
      | (.ok inputsAdded, container) =>
        let added := outputsAdded || inputsAdded
        let container := if added then container.addTransactionInformation block tx else container
        let container := if block.height != WALLET_UNCONFIRMED_TRANSACTION_HEIGHT then
          { container with currentHeight := block.height } else container
        (.ok added, container)

/-- `addTransaction(block, tx, transfers)`: on an exception, the transfers of a transaction that was
not recorded are deleted before it is thrown again. -/
def addTransaction (block : TransactionBlockInfo) (tx : TransactionReader)
    (transfers : List TransactionOutputInformationIn) : Outcome Bool :=
  match container.addTransactionBody block tx transfers with
  | (.ok added, container) => (.ok added, container)
  | (.error message, container) =>
    if container.transactions.any (·.transactionHash == tx.transactionHash) then (.error message, container)
    else (.error message, container.deleteTransactionTransfers tx.transactionHash)

/-- `deleteUnconfirmedTransaction(transactionHash)`. -/
def deleteUnconfirmedTransaction (transactionHash : Hash) : Bool × TransfersContainer :=
  match container.transactions.find? (·.transactionHash == transactionHash) with
  | none => (false, container)
  | some info =>
    if info.blockHeight != WALLET_UNCONFIRMED_TRANSACTION_HEIGHT then (false, container)
    else
      let container := container.deleteTransactionTransfers info.transactionHash
      (true, { container with
        transactions := container.transactions.filter (·.transactionHash != transactionHash) })

/-- `m_transactions.replace` of the transaction with the hash, by the change `update`. -/
def replaceTransactionInformation (transactionHash : Hash)
    (update : TransactionInformation → TransactionInformation) : TransfersContainer :=
  match container.transactions.findIdx? (·.transactionHash == transactionHash) with
  | none => container
  | some i =>
    match container.transactions[i]? with
    | none => container
    | some info => { container with transactions := replaceTransaction container.transactions i (update info) }

/-- The loop over the unconfirmed transfers of the transaction in `markTransactionConfirmed`: each
moves to the available ones with the block and its global index. -/
def confirmTransfersLoop (block : TransactionBlockInfo) (transactionHash : Hash) (globalIndices : List UInt32) :
    ℕ → TransfersContainer → Outcome Unit
  | 0, container => (.ok (), container)
  | count + 1, container =>
    match container.unconfirmedTransfers.find? (·.transactionHash == transactionHash) with
    | none => (.ok (), container)
    | some transfer =>
      match globalIndices[transfer.outputInTransaction.toNat]? with
      | none => (.error "Failed to confirm transaction: not enough elements in globalIndices", container)
      | some globalOutputIndex =>
        let confirmed := { transfer with
          blockHeight := block.height, transactionIndex := block.transactionIndex,
          globalOutputIndex := globalOutputIndex }
        let container := { container with
          availableTransfers := container.availableTransfers ++ [confirmed],
          unconfirmedTransfers := container.unconfirmedTransfers.eraseP (·.transactionHash == transactionHash) }
        confirmTransfersLoop block transactionHash globalIndices count
          (container.updateTransfersVisibility confirmed.keyImage)

/-- The loop of the handler of `markTransactionConfirmed` that moves the available transfers of the
transaction back to the unconfirmed ones. -/
def unconfirmTransfersLoop (transactionHash : Hash) : ℕ → TransfersContainer → TransfersContainer
  | 0, container => container
  | count + 1, container =>
    match container.availableTransfers.find? (·.transactionHash == transactionHash) with
    | none => container
    | some transfer =>
      let unconfirmedTransfer := { transfer with
        blockHeight := WALLET_UNCONFIRMED_TRANSACTION_HEIGHT, transactionIndex := 0,
        globalOutputIndex := UNCONFIRMED_TRANSACTION_GLOBAL_OUTPUT_INDEX }
      let container := { container with
        unconfirmedTransfers := container.unconfirmedTransfers ++ [unconfirmedTransfer],
        availableTransfers := container.availableTransfers.eraseP (·.transactionHash == transactionHash) }
      unconfirmTransfersLoop transactionHash count (container.updateTransfersVisibility unconfirmedTransfer.keyImage)

/-- The spending block of every input of the transaction. -/
def setSpendingBlock (transactionHash : Hash) (block : TransactionBlockInfo) : TransfersContainer :=
  { container with spentTransfers := container.spentTransfers.map fun spent =>
      if spent.spendingTransactionHash == transactionHash then { spent with spendingBlock := block } else spent }

/-- The handler of `markTransactionConfirmed`: the transaction and its transfers go back to
unconfirmed, and so do the spending blocks of its inputs. -/
def unconfirmTransaction (transactionHash : Hash) : TransfersContainer :=
  let container := container.replaceTransactionInformation transactionHash fun txInfo =>
    { txInfo with blockHeight := WALLET_UNCONFIRMED_TRANSACTION_HEIGHT, timestamp := 0 }
  let container := unconfirmTransfersLoop transactionHash
    (container.availableTransfers.countP (·.transactionHash == transactionHash)) container
  container.setSpendingBlock transactionHash { height := WALLET_UNCONFIRMED_TRANSACTION_HEIGHT, timestamp := 0, transactionIndex := 0 }

/-- `markTransactionConfirmed(block, transactionHash, globalIndices)`. -/
def markTransactionConfirmed (block : TransactionBlockInfo) (transactionHash : Hash) (globalIndices : List UInt32) :
    Outcome Bool :=
  if block.height == WALLET_UNCONFIRMED_TRANSACTION_HEIGHT then
    (.error "Failed to confirm transaction: block height is unconfirmed", container)
  else
    match container.transactions.find? (·.transactionHash == transactionHash) with
    | none => (.ok false, container)
    | some info =>
      if info.blockHeight != WALLET_UNCONFIRMED_TRANSACTION_HEIGHT then (.ok false, container)
      else
        let container := container.replaceTransactionInformation transactionHash fun txInfo =>
          { txInfo with blockHeight := block.height, timestamp := block.timestamp }
        match confirmTransfersLoop block transactionHash globalIndices
            (container.unconfirmedTransfers.countP (·.transactionHash == transactionHash)) container with
        | (.error message, container) => (.error message, container.unconfirmTransaction transactionHash)
        | (.ok (), container) => (.ok true, container.setSpendingBlock transactionHash block)

/-- The loop of `detach(height)` over the height index from its end: an unconfirmed transaction
goes when it spends an output of a block from `height` on, a confirmed one when its block is from
`height` on, and the first confirmed one below `height` ends the loop. -/
def detachLoop (height : UInt32) : List TransactionInformation → List Hash → TransfersContainer →
    List Hash × TransfersContainer
  | [], deletedTransactions, container => (deletedTransactions, container)
  | info :: rest, deletedTransactions, container =>
    let delete (container : TransfersContainer) : TransfersContainer :=
      let container := container.deleteTransactionTransfers info.transactionHash
      { container with transactions := container.transactions.filter (·.transactionHash != info.transactionHash) }
    if info.blockHeight == WALLET_UNCONFIRMED_TRANSACTION_HEIGHT then
      let doDelete := container.spentTransfers.any fun spent =>
        spent.spendingTransactionHash == info.transactionHash && spent.blockHeight ≥ height
      if doDelete then detachLoop height rest (deletedTransactions ++ [info.transactionHash]) (delete container)
      else detachLoop height rest deletedTransactions container
    else if info.blockHeight ≥ height then
      detachLoop height rest (deletedTransactions ++ [info.transactionHash]) (delete container)
    else (deletedTransactions, container)

/-- `detach(height)`: the deleted transactions, latest first. -/
def detach (height : UInt32) : List Hash × TransfersContainer :=
  let (deletedTransactions, container) := detachLoop height container.transactions.reverse [] container
  (deletedTransactions, { container with currentHeight := if height == 0 then 0 else height - 1 })

/-- `advanceHeight(height)`. -/
def advanceHeight (height : UInt32) : Bool × TransfersContainer :=
  if container.currentHeight ≤ height then (true, { container with currentHeight := height })
  else (false, container)

/-- `ITransfersContainer::IncludeStateUnlocked`. -/
def IncludeStateUnlocked : UInt32 := 0x01
/-- `ITransfersContainer::IncludeStateLocked`. -/
def IncludeStateLocked : UInt32 := 0x02
/-- `ITransfersContainer::IncludeStateSoftLocked`. -/
def IncludeStateSoftLocked : UInt32 := 0x04
/-- `ITransfersContainer::IncludeTypeKey`. -/
def IncludeTypeKey : UInt32 := 0x100

/-- The static `isIncluded(type, state, flags)` for a key output. -/
def isIncludedState (state flags : UInt32) : Bool :=
  flags &&& IncludeTypeKey != 0 && flags &&& state != 0

variable (currency : Currency) (now : UInt64)

/-- `isSpendTimeUnlocked(unlockTime)` at the clock `now`: the rule of
`Currency::isTransactionSpendTimeUnlocked` at the current height. -/
def isSpendTimeUnlocked (unlockTime : UInt64) : Bool :=
  currency.isTransactionSpendTimeUnlocked now unlockTime container.currentHeight.toNat

/-- `isIncluded(info, flags)`. -/
def isIncluded (info : TransactionOutputInformationEx) (flags : UInt32) : Bool :=
  let state :=
    if info.blockHeight == WALLET_UNCONFIRMED_TRANSACTION_HEIGHT || !container.isSpendTimeUnlocked currency now info.unlockTime then
      IncludeStateLocked
    else if container.currentHeight.toNat < info.blockHeight.toNat + container.transactionSpendableAge then
      IncludeStateSoftLocked
    else IncludeStateUnlocked
  isIncludedState state flags

/-- `balance(flags)`: the visible transfers the flags include, summed in `uint64_t`. -/
def balance (flags : UInt32) : UInt64 :=
  let available := (container.availableTransfers.filter fun t => t.visible && container.isIncluded currency now t flags).map
    (·.amount)
  let unconfirmed := if flags &&& IncludeStateLocked != 0 then
      (container.unconfirmedTransfers.filter fun t => t.visible && isIncludedState IncludeStateLocked flags).map (·.amount)
    else []
  (available ++ unconfirmed).foldl (· + ·) 0

/-- `getOutputs(transfers, flags)`: the transfers `balance` sums, in the order it visits them. -/
def getOutputs (flags : UInt32) : List TransactionOutputInformationEx :=
  container.availableTransfers.filter (fun t => t.visible && container.isIncluded currency now t flags) ++
    if flags &&& IncludeStateLocked != 0 then
      container.unconfirmedTransfers.filter fun t => t.visible && isIncludedState IncludeStateLocked flags
    else []

end TransfersContainer

end Nox.CryptoNote
