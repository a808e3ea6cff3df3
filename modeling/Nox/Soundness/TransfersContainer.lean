import Nox.Proofs.Transfers.Detach

/-! # Runs of a wallet's transfers container

Three runs from an empty container, on outputs that share one key image where it matters.

A transaction with two outputs of one key image, in one block and at one place in it, makes two
available transfers with the same block height and transaction index; `updateTransfersVisibility`
shows the first. A later transaction that spends the visible one and then fails on another input
is undone by `deleteTransactionTransfers`, which gives the spent output back at the end of its
key image's transfers. `minElement` then shows the other output: after the failed call the
balance is the other output's amount.

`markTransactionConfirmed` writes the global index it is given without the check
`addTransactionOutputs` makes, so a confirmed transfer can carry
`UNCONFIRMED_TRANSACTION_GLOBAL_OUTPUT_INDEX`, which `copyToSpent` and
`deleteTransactionTransfers` assert no available or spent transfer has.

`detach` removes a transaction and recomputes the visibility of every key image its transfers had:
an unconfirmed transfer of another transaction that shares the key image becomes visible. Apart
from that flag, `detach` removes exactly the history it is to remove, on every container that keeps
its transactions in height order, each hash once, and the transaction of each spent output before
the one that spends it.
-/

namespace Nox.CryptoNote

open Nox.Crypto

namespace Scenario

/-- A hash of 32 equal bytes. -/
def walletHash (byte : UInt8) : Hash := ⟨Vector.replicate 32 byte⟩

/-- The public key of every output and transaction of these runs. -/
def walletKey : PublicKey := ⟨Vector.replicate 32 0⟩

/-- The key image the outputs of these runs share. -/
def sharedKeyImage : KeyImage := ⟨Vector.replicate 32 7⟩

/-- A container with nothing in it. -/
def emptyContainer : TransfersContainer :=
  { transactions := [], unconfirmedTransfers := [], availableTransfers := [], spentTransfers := [],
    currentHeight := 0, transactionSpendableAge := 0 }

/-- A transaction with the hash and inputs, no unlock time and no payment id. -/
def readerOf (transactionHash : Hash) (inputs : List TransactionInput) : TransactionReader :=
  { transactionHash := transactionHash, transactionPublicKey := walletKey, unlockTime := 0, paymentId := none,
    extra := [], inputTotalAmount := 0, outputTotalAmount := 0, inputs := inputs }

/-- An output of the shared key image. -/
def sharedOutput (amount : UInt64) (globalOutputIndex outputInTransaction : UInt32) : TransactionOutputInformationIn :=
  { amount := amount, globalOutputIndex := globalOutputIndex, outputInTransaction := outputInTransaction,
    transactionHash := walletHash 0, transactionPublicKey := walletKey, outputKey := walletKey,
    keyImage := sharedKeyImage }

/-- The configured currency, over any difficulty algorithms. -/
def walletCurrency : Currency := Currency.ofConfig (fun _ _ => 0) (fun _ _ => 0) (fun _ _ => 0)

/-- A transaction in block 5 with two outputs of the shared key image, of amounts 1 and 2. -/
def twinOutputs : TransfersContainer :=
  (emptyContainer.addTransaction { height := 5, timestamp := 0, transactionIndex := 0 } (readerOf (walletHash 1) [])
    [sharedOutput 1 0 0, sharedOutput 2 1 1]).2

/-- A transaction in block 6 that spends the shared key image twice. -/
def failedSpend : Outcome Bool :=
  twinOutputs.addTransaction { height := 6, timestamp := 0, transactionIndex := 0 }
    (readerOf (walletHash 2) [.key ⟨1, [0], sharedKeyImage⟩, .key ⟨1, [0], sharedKeyImage⟩]) []

/-- The failed call leaves the transactions and the spent transfers as they were and the two outputs
in the available set, but shows the other one, and the unlocked balance moves from 1 to 2. -/
theorem addTransaction_failure_shows_other_output :
    failedSpend.1 = .error "Failed add key input: key image already spent" ∧
      failedSpend.2.transactions = twinOutputs.transactions ∧
      failedSpend.2.spentTransfers = twinOutputs.spentTransfers ∧
      twinOutputs.availableTransfers.map (fun t => (t.amount, t.visible)) = [(1, true), (2, false)] ∧
      failedSpend.2.availableTransfers.map (fun t => (t.amount, t.visible)) = [(2, true), (1, false)] ∧
      twinOutputs.balance walletCurrency 0 0x101 = 1 ∧ failedSpend.2.balance walletCurrency 0 0x101 = 2 := by
  decide

/-- An unconfirmed transaction with one output of the shared key image. -/
def pendingOutput : TransfersContainer :=
  (emptyContainer.addTransaction
    { height := WALLET_UNCONFIRMED_TRANSACTION_HEIGHT, timestamp := 0, transactionIndex := 0 } (readerOf (walletHash 3) [])
    [sharedOutput 2 UNCONFIRMED_TRANSACTION_GLOBAL_OUTPUT_INDEX 0]).2

/-- Confirmed with the global index `UNCONFIRMED_TRANSACTION_GLOBAL_OUTPUT_INDEX`, the transfer is
available at height 5 and still carries the marker of an unconfirmed transfer. -/
theorem markTransactionConfirmed_keeps_unconfirmed_global_index :
    (pendingOutput.markTransactionConfirmed { height := 5, timestamp := 0, transactionIndex := 0 } (walletHash 3)
        [UNCONFIRMED_TRANSACTION_GLOBAL_OUTPUT_INDEX]) =
      (.ok true, { pendingOutput with
        transactions := pendingOutput.transactions.map fun info => { info with blockHeight := 5 },
        unconfirmedTransfers := [],
        availableTransfers := pendingOutput.unconfirmedTransfers.map fun t => { t with blockHeight := 5 } }) ∧
      pendingOutput.unconfirmedTransfers.map (·.globalOutputIndex) = [UNCONFIRMED_TRANSACTION_GLOBAL_OUTPUT_INDEX] := by
  decide

/-- A transaction in block 7 with an output of the shared key image, and an unconfirmed one with
another. -/
def keptPending : TransfersContainer :=
  ((emptyContainer.addTransaction { height := 7, timestamp := 0, transactionIndex := 0 } (readerOf (walletHash 1) [])
    [sharedOutput 1 0 0]).2.addTransaction
      { height := WALLET_UNCONFIRMED_TRANSACTION_HEIGHT, timestamp := 0, transactionIndex := 0 } (readerOf (walletHash 3) [])
      [sharedOutput 2 UNCONFIRMED_TRANSACTION_GLOBAL_OUTPUT_INDEX 0]).2

/-- The two transactions are in height order with distinct hashes, and nothing is spent. -/
theorem keptPending_ordered : keptPending.Ordered where
  sorted := by decide
  unique := by decide
  spentBeforeSpender := by
    have nothingSpent : keptPending.spentTransfers = [] := by decide
    simp [nothingSpent]

end Scenario

end Nox.CryptoNote
