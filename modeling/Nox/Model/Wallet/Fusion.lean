import Nox.Model.Wallet.WalletGreen
import Nox.Model.CryptoNoteCore.TransactionPool
import Nox.Model.CryptoNoteCore.RandomOutputs
import Nox.Model.CryptoNoteCore.CryptoNoteSerialization
import Nox.Library.LowerBound

/-! # Fusion transactions of `WalletGreen.cpp`

A fusion transaction merges many small outputs of a wallet into a few, for no fee. The wallet
takes the outputs whose amounts are pretty, not below the fusion dust threshold and below the
threshold it is given, counts them by power of ten, and picks a random power of ten with enough of
them: at most as many as the size limit leaves room for, drawn at random when there are more. Their
sum is decomposed into digits with no dust threshold and paid to one address. While the
transaction is too large and has enough inputs, the last input is dropped and the transaction
built again.

`makeTransaction` builds the transaction from the rings of the inputs and the amounts of the
outputs, shuffled and then sorted by amount. The key pair of each transaction, the output keys, the
key images and the ring signatures are the cryptography's, given here; the random engines are
streams of draws. The address checks, the container the transaction is saved into, the observers
and the log lines are left out.
-/

namespace Nox.CryptoNote

open Nox.Crypto Nox.Common

/-- The local `MAX_FUSION_OUTPUT_COUNT` of `createFusionTransaction`. -/
def MAX_FUSION_OUTPUT_COUNT : ℕ := 4

def MAX_BLOCK_SIZE_INITIAL : ℕ := 100000
def MAX_BLOCK_SIZE_GROWTH_SPEED_NUMERATOR : ℕ := 100 * 1024
def MAX_BLOCK_SIZE_GROWTH_SPEED_DENOMINATOR : ℕ := 365 * 24 * 60 * 60 / 30
def CRYPTONOTE_COINBASE_BLOB_RESERVED_SIZE : ℕ := 600

/-- `Currency::PRETTY_AMOUNTS`: each digit from 1 to 9 times each power of ten up to `10 ^ 18`, in
increasing order, then `10 ^ 19`. -/
def PRETTY_AMOUNTS : List UInt64 :=
  ((List.range 19).flatMap fun order => (List.range' 1 9).map fun digit => UInt64.ofNat (digit * 10 ^ order)) ++
    [10000000000000000000]

example : PRETTY_AMOUNTS.length = 172 := by simp [PRETTY_AMOUNTS]

/-- `Currency::isAmountApplicableInFusionTransactionInput(amount, threshold, amountPowerOfTen,
height)`: the power of ten of an amount below the threshold, not below the fusion dust threshold and
pretty, which `lower_bound` finds in the table; `none` for any other amount. -/
def Currency.isAmountApplicableInFusionTransactionInput (currency : Currency) (amount threshold : UInt64)
    (height : ℕ) : Option ℕ :=
  if amount ≥ threshold then none
  else if amount < currency.defaultFusionDustThreshold height then none
  else
    let it := PRETTY_AMOUNTS.lowerBound fun pretty => decide (pretty < amount)
    match PRETTY_AMOUNTS[it]? with
    | some pretty => if amount ≠ pretty then none else some (it / 9)
    | none => none

/-- `Currency::getApproximateMaximumInputCount(transactionSize, outputCount, mixinCount)`: the room
the header and the outputs leave, in `size_t`, over the size of one input and its signatures. -/
def getApproximateMaximumInputCount (transactionSize outputCount mixinCount : ℕ) : ℕ :=
  let KEY_IMAGE_SIZE := 32
  let OUTPUT_KEY_SIZE := 32
  let AMOUNT_SIZE := 8 + 2
  let GLOBAL_INDEXES_VECTOR_SIZE_SIZE := 1
  let GLOBAL_INDEXES_INITIAL_VALUE_SIZE := 4
  let GLOBAL_INDEXES_DIFFERENCE_SIZE := 4
  let SIGNATURE_SIZE := 64
  let EXTRA_TAG_SIZE := 1
  let INPUT_TAG_SIZE := 1
  let OUTPUT_TAG_SIZE := 1
  let PUBLIC_KEY_SIZE := 32
  let TRANSACTION_VERSION_SIZE := 1
  let TRANSACTION_UNLOCK_TIME_SIZE := 8
  let outputsSize := outputCount * (OUTPUT_TAG_SIZE + OUTPUT_KEY_SIZE + AMOUNT_SIZE)
  let headerSize := TRANSACTION_VERSION_SIZE + TRANSACTION_UNLOCK_TIME_SIZE + EXTRA_TAG_SIZE + PUBLIC_KEY_SIZE
  let inputSize := INPUT_TAG_SIZE + AMOUNT_SIZE + KEY_IMAGE_SIZE + SIGNATURE_SIZE + GLOBAL_INDEXES_VECTOR_SIZE_SIZE +
    GLOBAL_INDEXES_INITIAL_VALUE_SIZE + mixinCount * (GLOBAL_INDEXES_DIFFERENCE_SIZE + SIGNATURE_SIZE)
  ((transactionSize - headerSize - outputsSize : ℤ) % 2 ^ 64).toNat / inputSize

/-- `std::shuffle(first, last, engine)`: an order of the values that the engine's draws pick.
libstdc++ swaps from the front, up to two positions a draw; the model orders the values by the
draws of a `ShuffleGenerator` over the engine, also a Fisher–Yates pass, which reaches every order.
A generator of `n` positions always hands out `n` of them, so the last branch is not reached. -/
def shuffleValues {α : Type} (engine : ℕ → ℕ) (values : List α) : List α :=
  match ShuffleGenerator.drawMany (.new values.length engine) values.length with
  | some (positions, _) => positions.filterMap (values[·]?)
  | none => values

section Pick

variable (currency : Currency)

/-- The outputs `pickRandomFusionInputs` finds ready for a fusion, each with its wallet and the
power of ten of its amount, in the order of the wallets and of their outputs. -/
def fusionReadyOuts (walletOuts : List WalletOuts) (threshold : UInt64) (height : ℕ) :
    List (OutputToTransfer × ℕ) :=
  walletOuts.flatMap fun wallet => wallet.outs.filterMap fun out =>
    (currency.isAmountApplicableInFusionTransactionInput out.amount threshold height).map
      fun powerOfTen => (⟨out, wallet.wallet⟩, powerOfTen)

/-- `WalletGreen::pickRandomFusionInputs(addresses, threshold, minInputCount, maxInputCount)` over
the wallets `pickWallets` or `pickWalletsWithMoney` gives, at the last known height, with the
engines of the bucket shuffle and of the `ShuffleGenerator` that trims a large bucket. The first
bucket of the shuffled order that holds `minInputCount` outputs is taken, and its outputs are those
between its power of ten and the next; both sorts are by amount. `none` where the generator throws. -/
def pickRandomFusionInputs (walletOuts : List WalletOuts) (threshold : UInt64)
    (minInputCount maxInputCount height : ℕ) (bucketEngine trimEngine : ℕ → ℕ) : Option (List OutputToTransfer) :=
  let allFusionReadyOuts := fusionReadyOuts currency walletOuts threshold height
  let bucketSize := fun bucket => allFusionReadyOuts.countP (·.2 == bucket)
  let bucketNumbers := shuffleValues bucketEngine (List.range 20)
  match bucketNumbers.find? fun bucket => decide (minInputCount ≤ bucketSize bucket) with
  | none => some []
  | some selectedBucket =>
    let lowerBound : UInt64 := (List.range selectedBucket).foldl (fun bound _ => bound * 10) 1
    let upperBound : UInt64 := if selectedBucket = 19 then UINT64_MAX else lowerBound * 10
    let selectedOuts := (allFusionReadyOuts.map (·.1)).filter fun out =>
      decide (lowerBound ≤ out.out.amount) && decide (out.out.amount < upperBound)
    let byAmount := fun (l r : OutputToTransfer) => l.out.amount ≤ r.out.amount
    if selectedOuts.length ≤ maxInputCount then some (selectedOuts.insertionSort byAmount)
    else do
      let (positions, _) ← ShuffleGenerator.drawMany (.new selectedOuts.length trimEngine) maxInputCount
      pure ((positions.filterMap (selectedOuts[·]?)).insertionSort byAmount)

end Pick

/-! ## Building the transaction -/

/-- The cryptography of one transaction `makeTransaction` builds: the public key of the key pair
`createTransaction` generates; `derivePublicKey(to, txSecretKey, outputIndex)` with its secret key;
`generate_key_image_helper` for an input with the keys of its wallet; and the signature
`generate_ring_signature` writes at each position of the ring, given the prefix hash and the
input. -/
structure TransactionCrypto where
  transactionPublicKey : PublicKey
  derivePublicKey : AccountPublicAddress → ℕ → PublicKey
  generateKeyImage : InputInfo → KeyImage
  generateRingSignature : Hash → InputInfo → ℕ → Signature

/-- `absolute_output_offsets_to_relative(off)`: each offset after the first less the one before
it, in `uint32_t`. -/
def absoluteOutputOffsetsToRelative : List UInt32 → List UInt32
  | [] => []
  | first :: rest => first :: (rest.zip (first :: rest)).map fun (offset, previous) => offset - previous

/-- `WalletGreen::makeTransaction(decomposedOutputs, keysInfo, extra, unlockTimestamp)`: the
outputs shuffled over `engine`, then sorted by amount, each paid to its receiver; the extra after
the transaction public key; the inputs in order, each with its ring as relative offsets, and each
signed over the hash of the finished prefix with one signature per ring member. -/
def makeTransaction (getTransactionPrefixHash : TransactionPrefix → Hash) (crypto : TransactionCrypto)
    (engine : ℕ → ℕ) (decomposedOutputs : List ReceiverAmounts) (keysInfo : List InputInfo) (extra : List UInt8)
    (unlockTimestamp : UInt64) : Transaction :=
  let amountsToAddresses := decomposedOutputs.flatMap fun output => output.amounts.map fun amount => (output.receiver, amount)
  let sorted := (shuffleValues engine amountsToAddresses).insertionSort fun left right => left.2 ≤ right.2
  let outputs := sorted.zipIdx.map fun ((receiver, amount), outputIndex) =>
    (⟨amount, .key ⟨crypto.derivePublicKey receiver outputIndex⟩⟩ : TransactionOutput)
  let inputs := keysInfo.map fun input => TransactionInput.key
    ⟨input.keyInfo.amount, absoluteOutputOffsetsToRelative (input.keyInfo.outputs.map (·.outputIndex)),
      crypto.generateKeyImage input⟩
  let txPrefix : TransactionPrefix :=
    ⟨CURRENT_TRANSACTION_VERSION, unlockTimestamp, inputs, outputs,
      addTransactionPublicKeyToExtra [] crypto.transactionPublicKey ++ extra⟩
  let prefixHash := getTransactionPrefixHash txPrefix
  { txPrefix with
    signatures := keysInfo.map fun input =>
      (List.range input.keyInfo.outputs.length).map (crypto.generateRingSignature prefixHash input) }

/-- `WalletGreen::decomposeFusionOutputs(address, inputsAmount)`: the digits of the amount, with no
dust threshold, sorted. -/
def decomposeFusionOutputs (address : AccountPublicAddress) (inputsAmount : UInt64) : ReceiverAmounts :=
  ⟨address, (decomposeAmount inputsAmount 0 []).insertionSort (· ≤ ·)⟩

/-- `WalletGreen::getMaxTxSize()` at the last known height. -/
def getMaxTxSize (height : ℕ) : ℕ :=
  let growth := height * MAX_BLOCK_SIZE_GROWTH_SPEED_NUMERATOR / MAX_BLOCK_SIZE_GROWTH_SPEED_DENOMINATOR
  min (MAX_BLOCK_SIZE_INITIAL + growth) 125000 - CRYPTONOTE_COINBASE_BLOB_RESERVED_SIZE

/-- `WalletGreen::requestMixinOuts(selectedTransfers, mixIn, mixinResult)` over the node's answer to
`getRandomOutsByAmounts` for the amounts and the count, `none` for an error. One decoy more than the
mixin is asked for, in `uint16_t`, and an entry with fewer throws `MIXIN_COUNT_TOO_BIG`. -/
def requestMixinOuts (getRandomOutsByAmounts : List UInt64 → UInt16 → Option (List OutsForAmount))
    (selectedTransfers : List OutputToTransfer) (mixIn : UInt16) : Option (List OutsForAmount) := do
  let requestMixinCount := mixIn + 1
  let mixinResult ← getRandomOutsByAmounts (selectedTransfers.map (·.out.amount)) requestMixinCount
  if mixinResult.any fun entry => decide (entry.outs.length < requestMixinCount.toNat) then none
  pure mixinResult

/-! ## `createFusionTransaction` -/

/-- What `createFusionTransaction` reads of the wallet and the node: the currency, the number of
addresses in the container, the wallets `pickWallets` or `pickWalletsWithMoney` gives for the source
addresses with their unlocked outputs, the destination `getChangeDestination` resolves, the height
`getLastKnownBlockHeight` reports, and the node's answer to `getRandomOutsByAmounts`. -/
structure FusionWallet where
  currency : Currency
  walletCount : ℕ
  walletOuts : List WalletOuts
  destination : AccountPublicAddress
  lastKnownBlockHeight : ℕ
  getRandomOutsByAmounts : List UInt64 → UInt16 → Option (List OutsForAmount)

/-- The randomness of `createFusionTransaction`: the engines of the bucket shuffle and of the
generator that trims a large bucket, and for each round of its loop the engine of the output
shuffle and the cryptography of the transaction the round builds. -/
structure FusionDraws where
  bucketEngine : ℕ → ℕ
  trimEngine : ℕ → ℕ
  outputEngine : ℕ → ℕ → ℕ
  crypto : ℕ → TransactionCrypto

namespace FusionWallet

variable (wallet : FusionWallet) (draws : FusionDraws) (getTransactionPrefixHash : TransactionPrefix → Hash)

/-- One round of the loop of `createFusionTransaction`: the transaction built from the inputs left
and their rings, and its size, `none` where the serialization throws. -/
def fusionRound (round : ℕ) (fusionInputs : List OutputToTransfer) (keysInfo : List InputInfo) :
    Option (Transaction × ℕ) :=
  let inputsAmount := fusionInputs.foldl (fun amount input => amount + input.out.amount) 0
  let decomposedOutputs := decomposeFusionOutputs wallet.destination inputsAmount
  let fusionTransaction := makeTransaction getTransactionPrefixHash (draws.crypto round) (draws.outputEngine round)
    [decomposedOutputs] keysInfo [] 0
  match toBinaryArray outputTransaction fusionTransaction with
  | .ok transactionData => some (fusionTransaction, transactionData.length)
  | .error _ => none

/-- The `do … while` loop of `createFusionTransaction` from round `round` on, with `fuel` rounds
left: the transaction of the last round, its size and the inputs it spends. A round after the first
drops the last input and its ring; the loop goes on while the transaction is larger than
`fusionTxMaxSize` and the inputs are at least `fusionTxMinInputCount`. -/
def fusionLoop : ℕ → ℕ → List OutputToTransfer → List InputInfo → Option (Transaction × ℕ × List OutputToTransfer)
  | 0, _, _, _ => none
  | fuel + 1, round, fusionInputs, keysInfo => do
    let (fusionTransaction, transactionSize) ← fusionRound wallet draws getTransactionPrefixHash round fusionInputs keysInfo
    if transactionSize > wallet.currency.fusionTxMaxSize ∧ fusionInputs.length ≥ FUSION_TX_MIN_INPUT_COUNT then
      fusionLoop fuel (round + 1) fusionInputs.dropLast keysInfo.dropLast
    else pure (fusionTransaction, transactionSize, fusionInputs)

/-- `WalletGreen::createFusionTransaction(threshold, mixin, sourceAddresses, destinationAddress)`:
`none` where it throws, `some none` where it returns `WALLET_INVALID_TRANSACTION_ID` with nothing to
optimize, and otherwise the transaction `validateSaveAndSendTransaction` sends, in place of its id.
Each round drops one input, so the inputs and one more are enough rounds. -/
def createFusionTransaction (threshold : UInt64) (mixin : UInt16) : Option (Option Transaction) := do
  let height := wallet.lastKnownBlockHeight
  if threshold ≤ wallet.currency.defaultFusionDustThreshold height then none
  if wallet.walletCount = 0 then none
  let estimatedFusionInputsCount :=
    getApproximateMaximumInputCount wallet.currency.fusionTxMaxSize MAX_FUSION_OUTPUT_COUNT mixin.toNat
  if estimatedFusionInputsCount < FUSION_TX_MIN_INPUT_COUNT then none
  let fusionInputs ← pickRandomFusionInputs wallet.currency wallet.walletOuts threshold FUSION_TX_MIN_INPUT_COUNT
    estimatedFusionInputsCount height draws.bucketEngine draws.trimEngine
  if fusionInputs.length < FUSION_TX_MIN_INPUT_COUNT then return none
  let mixinResult ← (if mixin ≠ 0 then requestMixinOuts wallet.getRandomOutsByAmounts fusionInputs mixin else pure [])
  let keysInfo ← prepareInputs fusionInputs mixinResult mixin
  let (fusionTransaction, _, fusionInputs) ←
    fusionLoop wallet draws getTransactionPrefixHash (fusionInputs.length + 1) 0 fusionInputs keysInfo
  if fusionInputs.length < FUSION_TX_MIN_INPUT_COUNT then none
  -- `validateSaveAndSendTransaction`: the size limit and the check that the bytes read back
  let transactionData ← (toBinaryArray outputTransaction fusionTransaction).toOption
  if transactionData.length > getMaxTxSize height then none
  let _ ← (fromBinaryArray inputTransaction transactionData).toOption
  pure (some fusionTransaction)

end FusionWallet

end Nox.CryptoNote
