import Nox.Model.Common.ShuffleGenerator
import Nox.Model.CryptoNoteCore.BlockTemplate
import Nox.Model.CryptoNoteCore.CryptoNoteFormatUtils

/-! # Building a transaction in `WalletGreen.cpp`

`prepareTransaction` turns the orders into transfers and sums what they need with the fee, each
step refusing an overflow. `selectTransfers` then draws unspent outputs in a random order: the
outputs above the dust threshold until they cover the need, then, when the mixin is zero, at least
one dust output and more until the need is covered. A donation, when set, takes the largest pieces
of the decomposed surplus that fit its threshold, and the rest of the surplus is the change. Every
destination, the donation and the change are decomposed into the amounts of the outputs.

The random order comes from two `ShuffleGenerator`s, one per kind of output, each over a stream of
draws. `prepareInputs` turns each selected transfer into the ring of its input: the decoys the node
answered for it, sorted by global index, without the real output and at most `mixIn` of them, with
the real output inserted in order. The request for the decoys and the transaction `makeTransaction`
builds from the inputs are left out, and so are the log lines and the texts of the exceptions. An
address is read and written by functions the development takes as given.
-/

namespace Nox.CryptoNote

open Nox.Crypto Nox.Common

/-- What `prepareTransaction` throws: the `std::error_code` of each `std::system_error`, and
`SequenceEnded` of a shuffle. -/
inductive WalletError where
  | WRONG_AMOUNT
  | ZERO_DESTINATION
  | INVALID_ARGUMENT
  | SUM_OVERFLOW
  | BAD_ADDRESS
  | SEQUENCE_ENDED
deriving DecidableEq, Repr

inductive WalletTransferType where
  | USUAL
  | DONATION
  | CHANGE
deriving DecidableEq, Repr

structure WalletOrder where
  address : String
  amount : UInt64
deriving DecidableEq, Repr

structure WalletTransfer where
  type : WalletTransferType
  address : String
  amount : Int64
deriving DecidableEq, Repr

structure DonationSettings where
  address : String
  threshold : UInt64
deriving DecidableEq, Repr

/-- `TransactionOutputInformation` of a key output: the amount, its global index, the transaction
and position that make the output the one it is, and the keys the input spending it is built from. -/
structure TransactionOutputInformation where
  amount : UInt64
  globalOutputIndex : UInt32
  outputInTransaction : UInt32
  transactionHash : Hash
  transactionPublicKey : PublicKey
  outputKey : PublicKey
deriving DecidableEq, Repr

/-- `WalletOuts`: a wallet, named by its place in the container, and its unlocked outputs. -/
structure WalletOuts where
  wallet : ℕ
  outs : List TransactionOutputInformation
deriving DecidableEq, Repr

structure OutputToTransfer where
  out : TransactionOutputInformation
  wallet : ℕ
deriving DecidableEq, Repr

structure ReceiverAmounts where
  receiver : AccountPublicAddress
  amounts : List UInt64
deriving DecidableEq, Repr

/-- `std::numeric_limits<int64_t>::max()`, as a `uint64_t`. -/
def INT64_MAX : UInt64 := 0x7FFFFFFFFFFFFFFF

/-- `calculateDonationAmount(freeAmount, donationThreshold, dustThreshold)`: the decomposed surplus
from its largest piece down, each piece taken while it fits what the threshold leaves. -/
def calculateDonationAmount (freeAmount donationThreshold dustThreshold : UInt64) : UInt64 :=
  let decomposedAmounts := (decomposeAmount freeAmount dustThreshold []).mergeSort fun a b => a ≥ b
  decomposedAmounts.foldl
    (fun donationAmount amount =>
      if amount > donationThreshold - donationAmount then donationAmount else donationAmount + amount)
    0

/-- `WalletGreen::convertOrdersToTransfers(orders)`. -/
def convertOrdersToTransfers (orders : List WalletOrder) : Except WalletError (List WalletTransfer) :=
  orders.mapM fun order =>
    if order.amount > INT64_MAX then .error .WRONG_AMOUNT
    else .ok ⟨.USUAL, order.address, order.amount.toInt64⟩

/-- The loop of `countNeededMoney` over the destinations. -/
def countNeededMoneyLoop : List WalletTransfer → UInt64 → Except WalletError UInt64
  | [], neededMoney => .ok neededMoney
  | transfer :: transfers, neededMoney =>
    if transfer.amount = 0 then .error .ZERO_DESTINATION
    else if transfer.amount < 0 then .error .INVALID_ARGUMENT
    else
      let uamount := transfer.amount.toUInt64
      if neededMoney ≤ UINT64_MAX - uamount then countNeededMoneyLoop transfers (neededMoney + uamount)
      else .error .SUM_OVERFLOW

/-- `WalletGreen::countNeededMoney(destinations, fee)`. -/
def countNeededMoney (destinations : List WalletTransfer) (fee : UInt64) : Except WalletError UInt64 := do
  let neededMoney ← countNeededMoneyLoop destinations 0
  if neededMoney ≤ UINT64_MAX - fee then pure (neededMoney + fee) else throw .SUM_OVERFLOW

/-- `WalletGreen::pushDonationTransferIfPossible(donation, freeAmount, dustThreshold, destinations)`:
the donation and the destinations with it. -/
def pushDonationTransferIfPossible (donation : DonationSettings) (freeAmount dustThreshold : UInt64)
    (destinations : List WalletTransfer) : Except WalletError (UInt64 × List WalletTransfer) :=
  if !donation.address.isEmpty && donation.threshold != 0 then
    if donation.threshold > INT64_MAX then .error .WRONG_AMOUNT
    else
      let donationAmount := calculateDonationAmount freeAmount donation.threshold dustThreshold
      if donationAmount != 0 then
        .ok (donationAmount, destinations ++ [⟨.DONATION, donation.address, donationAmount.toInt64⟩])
      else .ok (donationAmount, destinations)
  else .ok (0, destinations)

/-- `WalletGreen::splitAmount(amount, destination, dustThreshold)`. -/
def splitAmount (amount : UInt64) (destination : AccountPublicAddress) (dustThreshold : UInt64) : ReceiverAmounts :=
  ⟨destination, decomposeAmount amount dustThreshold []⟩

/-- An output of a wallet, with the wallet: `std::pair<WalletRecord*, TransactionOutputInformation>`. -/
abbrev OutputData := ℕ × TransactionOutputInformation

/-- The `while (foundMoney < neededMoney && !indexGenerator.empty())` loop of `selectTransfers`;
`none` where the shuffle throws or hands out an index past the outputs. -/
def selectTransfersLoop (walletOuts : List OutputData) (neededMoney : UInt64) (indexGenerator : ShuffleGenerator)
    (foundMoney : UInt64) (selectedTransfers : List OutputToTransfer) : Option (UInt64 × List OutputToTransfer) :=
  if foundMoney < neededMoney && !indexGenerator.empty then
    match drawn : indexGenerator.next with
    | none => none
    | some (index, indexGenerator') =>
      match walletOuts[index]? with
      | none => none
      | some out =>
        have : indexGenerator'.count < indexGenerator.count := ShuffleGenerator.count_lt_of_next drawn
        selectTransfersLoop walletOuts neededMoney indexGenerator' (foundMoney + out.2.amount)
          (selectedTransfers ++ [⟨out.2, out.1⟩])
  else some (foundMoney, selectedTransfers)
termination_by indexGenerator.count

/-- The `do … while (foundMoney < neededMoney && !dustIndexGenerator.empty())` loop of
`selectTransfers`. -/
def selectDustLoop (dustOutputs : List OutputData) (neededMoney : UInt64) (dustIndexGenerator : ShuffleGenerator)
    (foundMoney : UInt64) (selectedTransfers : List OutputToTransfer) : Option (UInt64 × List OutputToTransfer) :=
  match drawn : dustIndexGenerator.next with
  | none => none
  | some (index, dustIndexGenerator') =>
    match dustOutputs[index]? with
    | none => none
    | some out =>
      let foundMoney := foundMoney + out.2.amount
      let selectedTransfers := selectedTransfers ++ [⟨out.2, out.1⟩]
      if foundMoney < neededMoney && !dustIndexGenerator'.empty then
        have : dustIndexGenerator'.count < dustIndexGenerator.count := ShuffleGenerator.count_lt_of_next drawn
        selectDustLoop dustOutputs neededMoney dustIndexGenerator' foundMoney selectedTransfers
      else some (foundMoney, selectedTransfers)
termination_by dustIndexGenerator.count

/-- The outputs of the wallets, with their wallets, in the order `selectTransfers` reads them. -/
def walletOutputs (wallets : List WalletOuts) : List OutputData :=
  wallets.flatMap fun wallet => wallet.outs.map fun out => (wallet.wallet, out)

/-- `WalletGreen::selectTransfers(neededMoney, dust, dustThreshold, wallets, selectedTransfers)`:
the money found and the transfers selected. -/
def selectTransfers (neededMoney : UInt64) (dust : Bool) (dustThreshold : UInt64) (wallets : List WalletOuts)
    (indexGenerator dustIndexGenerator : ℕ → ℕ) : Option (UInt64 × List OutputToTransfer) := do
  let walletOuts := (walletOutputs wallets).filter fun output => output.2.amount > dustThreshold
  let dustOutputs := if dust then (walletOutputs wallets).filter fun output => !(output.2.amount > dustThreshold) else []
  let (foundMoney, selectedTransfers) ←
    selectTransfersLoop walletOuts neededMoney (.new walletOuts.length indexGenerator) 0 []
  if dust && !dustOutputs.isEmpty then
    selectDustLoop dustOutputs neededMoney (.new dustOutputs.length dustIndexGenerator) foundMoney selectedTransfers
  else pure (foundMoney, selectedTransfers)

/-- `PreparedTransaction`, with what `prepareTransaction` hands to `makeTransaction` in place of the
transaction: the transfers the inputs spend and the amounts of the outputs; and the money found and
the donation, which the change is computed from. -/
structure PreparedTransaction where
  destinations : List WalletTransfer
  neededMoney : UInt64
  changeAmount : UInt64
  foundMoney : UInt64
  donationAmount : UInt64
  selectedTransfers : List OutputToTransfer
  decomposedOutputs : List ReceiverAmounts
deriving DecidableEq, Repr

section Prepare

variable (parseAccountAddressString : String → Option AccountPublicAddress)
  (accountAddressAsString : AccountPublicAddress → String)

/-- `WalletGreen::splitDestinations(destinations, dustThreshold, currency)`. -/
def splitDestinations (destinations : List WalletTransfer) (dustThreshold : UInt64) :
    Except WalletError (List ReceiverAmounts) :=
  destinations.mapM fun destination =>
    match parseAccountAddressString destination.address with
    | none => .error .BAD_ADDRESS
    | some address => .ok (splitAmount destination.amount.toUInt64 address dustThreshold)

/-- `WalletGreen::prepareTransaction(wallets, orders, fee, mixIn, extra, unlockTimestamp, donation,
changeDestination, preparedTransaction)`, with the dust threshold of the last known height and the
draws of the two shuffles. -/
def prepareTransaction (dustThreshold : UInt64) (indexGenerator dustIndexGenerator : ℕ → ℕ)
    (wallets : List WalletOuts) (orders : List WalletOrder) (fee : UInt64) (mixIn : UInt16)
    (donation : DonationSettings) (changeDestination : AccountPublicAddress) :
    Except WalletError PreparedTransaction := do
  let destinations ← convertOrdersToTransfers orders
  let neededMoney ← countNeededMoney destinations fee
  let (foundMoney, selectedTransfers) ←
    match selectTransfers neededMoney (mixIn == 0) dustThreshold wallets indexGenerator dustIndexGenerator with
    | none => throw .SEQUENCE_ENDED
    | some selection => pure selection
  if foundMoney < neededMoney then throw .WRONG_AMOUNT
  let (donationAmount, destinations) ←
    pushDonationTransferIfPossible donation (foundMoney - neededMoney) dustThreshold destinations
  let changeAmount := foundMoney - neededMoney - donationAmount
  let decomposedOutputs ← splitDestinations parseAccountAddressString destinations dustThreshold
  if changeAmount != 0 then
    let changeTransfer : WalletTransfer :=
      ⟨.CHANGE, accountAddressAsString changeDestination, changeAmount.toInt64⟩
    pure ⟨destinations ++ [changeTransfer], neededMoney, changeAmount, foundMoney, donationAmount, selectedTransfers,
      decomposedOutputs ++ [splitAmount changeAmount changeDestination dustThreshold]⟩
  else
    pure ⟨destinations, neededMoney, changeAmount, foundMoney, donationAmount, selectedTransfers, decomposedOutputs⟩

end Prepare

/-! ## The rings of the inputs -/

/-- `COMMAND_RPC_GET_RANDOM_OUTPUTS_FOR_AMOUNTS_out_entry`: a decoy the node drew. -/
structure OutEntry where
  globalAmountIndex : UInt32
  outKey : PublicKey
deriving DecidableEq, Repr

/-- `COMMAND_RPC_GET_RANDOM_OUTPUTS_FOR_AMOUNTS_outs_for_amount`: the decoys drawn for an amount. -/
structure OutsForAmount where
  amount : UInt64
  outs : List OutEntry
deriving DecidableEq, Repr

/-- `TransactionTypes::GlobalOutput`: a ring member. -/
structure GlobalOutput where
  targetKey : PublicKey
  outputIndex : UInt32
deriving DecidableEq, Repr

/-- `TransactionTypes::OutputKeyInfo`: where the real output is, in the ring and in its transaction. -/
structure OutputKeyInfo where
  transactionPublicKey : PublicKey
  transactionIndex : ℕ
  outputInTransaction : ℕ
deriving DecidableEq, Repr

/-- `TransactionTypes::InputKeyInfo`. -/
structure InputKeyInfo where
  amount : UInt64
  outputs : List GlobalOutput
  realOutput : OutputKeyInfo
deriving DecidableEq, Repr

/-- `WalletGreen::InputInfo`, without the ephemeral keys `makeTransaction` fills in. -/
structure InputInfo where
  keyInfo : InputKeyInfo
  walletRecord : ℕ
deriving DecidableEq, Repr

/-- The loop over the sorted decoys of an input: each one other than the real output is pushed, and
the loop stops once the ring holds `mixIn` of them, a check made after the push. -/
def pushDecoys (mixIn : ℕ) (globalOutputIndex : UInt32) : List OutEntry → List GlobalOutput → List GlobalOutput
  | [], outputs => outputs
  | fakeOut :: fakeOuts, outputs =>
    if globalOutputIndex = fakeOut.globalAmountIndex then pushDecoys mixIn globalOutputIndex fakeOuts outputs
    else
      let outputs := outputs ++ [⟨fakeOut.outKey, fakeOut.globalAmountIndex⟩]
      if outputs.length ≥ mixIn then outputs else pushDecoys mixIn globalOutputIndex fakeOuts outputs

/-- The body of the loop of `prepareInputs` for the input at position `i`: its decoys when the node
answered, sorted by global index (the sort is stable, which `std::sort` need not be, but the two
agree on distinct indexes), then the real output inserted before the first decoy whose index is not
below its own. Reading past the answer's entries is undefined behaviour of the source: `none`. -/
def prepareInput (mixinResult : List OutsForAmount) (mixIn : UInt16) (i : ℕ) (input : OutputToTransfer) :
    Option InputInfo := do
  let outputs ← if mixinResult.isEmpty then pure []
    else do
      let entry ← mixinResult[i]?
      let sorted := entry.outs.mergeSort fun a b => decide (a.globalAmountIndex ≤ b.globalAmountIndex)
      pure (pushDecoys mixIn.toNat input.out.globalOutputIndex sorted [])
  let insertIn := outputs.findIdx fun a => decide (input.out.globalOutputIndex ≤ a.outputIndex)
  let realOutput : GlobalOutput := ⟨input.out.outputKey, input.out.globalOutputIndex⟩
  pure ⟨⟨input.out.amount, outputs.insertIdx insertIn realOutput,
    ⟨input.out.transactionPublicKey, insertIn, input.out.outputInTransaction.toNat⟩⟩, input.wallet⟩

/-- `WalletGreen::prepareInputs(selectedTransfers, mixinResult, mixIn, keysInfo)`: an input for each
selected transfer, in order, the `i`-th from the `i`-th entry of the node's answer. -/
def prepareInputs (selectedTransfers : List OutputToTransfer) (mixinResult : List OutsForAmount) (mixIn : UInt16) :
    Option (List InputInfo) :=
  selectedTransfers.zipIdx.mapM fun (input, i) => prepareInput mixinResult mixIn i input

end Nox.CryptoNote
