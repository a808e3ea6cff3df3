import Nox.Model.CryptoNoteCore.Core

/-! # Block templates: `Core::getBlockTemplate` and `Currency::constructMinerTx`

A miner asks the core for a template of the next block on the main chain: the core picks the
versions, the previous block hash and the timestamp, fills the block with pool transactions, and
builds a coinbase that pays the reward to the miner's address. The difficulty it returns comes from
`Core::getDifficultyForNextBlock`, which reads the version of the top block from the core's upgrade
manager; `addBlock` instead asks the main leaf for the difficulty of the next block, under the
version the segment's upgrade manager gives the next block.

The coinbase is built twice or more: its size enters the reward, and the reward its outputs. The
loop pads the extra field until the size the reward was computed for is the coinbase's size.
`generateKeyPair` draws a fresh random key on every call; the model takes the key pair as given.
Only key outputs exist in this currency, so no transaction has a multisignature input.
-/

namespace Nox.Crypto

/-- `Crypto::SecretKey`. -/
structure SecretKey where
  data : Vector UInt8 32
deriving DecidableEq, Repr

/-- `Crypto::KeyDerivation`. -/
structure KeyDerivation where
  data : Vector UInt8 32
deriving DecidableEq, Repr

end Nox.Crypto

namespace Nox.CryptoNote

open Nox.Crypto Nox.Serialization

structure AccountPublicAddress where
  spendPublicKey : PublicKey
  viewPublicKey : PublicKey
deriving DecidableEq, Repr

structure KeyPair where
  publicKey : PublicKey
  secretKey : SecretKey
deriving DecidableEq, Repr

/-- What a template is built from besides the core: the pool's transactions in the order
`getPoolTransactions` returns them, the key pair `generateKeyPair` returns, and the key derivation
functions of `crypto.cpp`, which fail on keys that are not points. -/
structure TemplateEnvironment where
  poolTransactions : List CachedTransaction
  transactionKey : KeyPair
  generateKeyDerivation : PublicKey → SecretKey → Option KeyDerivation
  derivePublicKey : KeyDerivation → ℕ → PublicKey → Option PublicKey

def DEFAULT_DUST_THRESHOLD_V2 : UInt64 := 0
def DUST_THRESHOLD_V2_HEIGHT : ℕ := 620000
def BLOCK_MINOR_VERSION_0 : UInt8 := 0
def BLOCK_MINOR_VERSION_1 : UInt8 := 1
def BLOCKCHAIN_TIMESTAMP_CHECK_WINDOW : ℕ := 60

/-- `defaultDustThreshold(height)`. -/
def Currency.defaultDustThresholdAt (currency : Currency) (height : ℕ) : UInt64 :=
  if height ≥ DUST_THRESHOLD_V2_HEIGHT then DEFAULT_DUST_THRESHOLD_V2 else currency.defaultDustThreshold

/-- The loop of `decompose_amount_into_digits` over the decimal digits of `amount`, lowest first:
each digit times its order is a chunk; the chunks while their sum stays within the dust threshold
are dust, paid out once, before the first other chunk. A `uint64_t` has at most 20 digits, the
fuel. -/
def decomposeAmountIntoDigitsLoop (dustThreshold : UInt64) :
    ℕ → UInt64 → UInt64 → UInt64 → Bool → List UInt64 → List UInt64 × UInt64 × Bool
  | 0, _, _, dust, isDustHandled, outAmounts => (outAmounts, dust, isDustHandled)
  | fuel + 1, amount, order, dust, isDustHandled, outAmounts =>
    if amount = 0 then (outAmounts, dust, isDustHandled)
    else
      let chunk := (amount % 10) * order
      if dust + chunk ≤ dustThreshold then
        decomposeAmountIntoDigitsLoop dustThreshold fuel (amount / 10) (order * 10) (dust + chunk)
          isDustHandled outAmounts
      else
        let handlesDust := !isDustHandled && dust != 0
        let outAmounts := if handlesDust then outAmounts ++ [dust] else outAmounts
        let outAmounts := if chunk != 0 then outAmounts ++ [chunk] else outAmounts
        decomposeAmountIntoDigitsLoop dustThreshold fuel (amount / 10) (order * 10) dust
          (isDustHandled || handlesDust) outAmounts

/-- `decompose_amount_into_digits(amount, dustThreshold, ...)`, with both handlers appending to the
output amounts. -/
def decomposeAmountIntoDigits (amount dustThreshold : UInt64) : List UInt64 :=
  if amount = 0 then []
  else
    let (outAmounts, dust, isDustHandled) :=
      decomposeAmountIntoDigitsLoop dustThreshold 20 amount 1 0 false []
    if !isDustHandled && dust != 0 then outAmounts ++ [dust] else outAmounts

/-- The merging loop of `constructMinerTx`: while there are more amounts than `maxOuts`, the last
one is added to the one before it. -/
def mergeOutAmounts (maxOuts : ℕ) (outAmounts : List UInt64) : List UInt64 :=
  if outAmounts.length ≤ maxOuts then outAmounts
  else
    let kept := outAmounts.take (maxOuts - 1)
    let merged := (outAmounts.drop (maxOuts - 1)).foldl (· + ·) 0
    kept ++ [merged]

/-- `addTransactionPublicKeyToExtra`. -/
def addTransactionPublicKeyToExtra (extra : List UInt8) (publicKey : PublicKey) : List UInt8 :=
  extra ++ TX_EXTRA_TAG_PUBKEY :: publicKey.data.toList

/-- `addExtraNonceToTransactionExtra`: a nonce longer than 255 bytes is refused. -/
def addExtraNonceToTransactionExtra (extra extraNonce : List UInt8) : Option (List UInt8) :=
  if extraNonce.length > TX_EXTRA_NONCE_MAX_COUNT then none
  else some (extra ++ TX_EXTRA_NONCE :: UInt8.ofNat extraNonce.length :: extraNonce)

/-- `appendMergeMiningTagToExtra`: the tag byte, then the binary `mm_tag` string of the depth and
the merkle root. -/
def appendMergeMiningTagToExtra (extra : List UInt8) (tag : TransactionExtraMergeMiningTag) : List UInt8 :=
  extra ++ TX_EXTRA_MERGE_MINING_TAG :: outputString (outputVarint tag.depth.toNat ++ outputHash tag.merkleRoot)

/-- The one-time output keys of the miner transaction: output `no` pays to the key derived from the
miner's address and the transaction key for index `no`. -/
def deriveOutputs (environment : TemplateEnvironment) (minerAddress : AccountPublicAddress) :
    ℕ → List UInt64 → Option (List TransactionOutput)
  | _, [] => some []
  | no, amount :: amounts => do
    let derivation ← environment.generateKeyDerivation minerAddress.viewPublicKey environment.transactionKey.secretKey
    let outEphemeralPubKey ← environment.derivePublicKey derivation no minerAddress.spendPublicKey
    let outputs ← deriveOutputs environment minerAddress (no + 1) amounts
    pure (⟨amount, .key ⟨outEphemeralPubKey⟩⟩ :: outputs)

/-- `Currency::constructMinerTx`: the coinbase of block `height`, with the transaction key and the
extra nonce in its extra, paying the block reward in decomposed amounts, at most `maxOuts` of them.
`none` is the `false` of the source. -/
def Currency.constructMinerTx (currency : Currency) (environment : TemplateEnvironment)
    (blockMajorVersion : UInt8) (height medianSize : ℕ) (alreadyGeneratedCoins : UInt64)
    (currentBlockSize : ℕ) (fee : UInt64) (minerAddress : AccountPublicAddress) (extraNonce : List UInt8)
    (maxOuts : ℕ) : Option Transaction := do
  let extra := addTransactionPublicKeyToExtra [] environment.transactionKey.publicKey
  let extra ← if extraNonce.isEmpty then some extra else addExtraNonceToTransactionExtra extra extraNonce
  let (blockReward, _) ←
    currency.getBlockReward blockMajorVersion medianSize currentBlockSize alreadyGeneratedCoins fee
  let outAmounts := decomposeAmountIntoDigits blockReward (currency.defaultDustThresholdAt height)
  if maxOuts < 1 then none
  let outAmounts := mergeOutAmounts maxOuts outAmounts
  let outputs ← deriveOutputs environment minerAddress 0 outAmounts
  if (outputs.map (·.amount)).foldl (· + ·) 0 ≠ blockReward then none
  pure { version := CURRENT_TRANSACTION_VERSION,
         unlockTime := UInt64.ofNat (height + currency.minedMoneyUnlockWindow),
         inputs := [.base ⟨UInt32.ofNat height⟩], outputs := outputs, extra := extra, signatures := [] }

/-- `CachedTransaction::getTransactionFee`: the key inputs' amounts less the outputs' amounts, in
`uint64_t`; a transaction with a base input pays none. -/
def CachedTransaction.getTransactionFee (cachedTransaction : CachedTransaction) : UInt64 :=
  let transaction := cachedTransaction.transaction
  let summaryOutputAmount := (transaction.outputs.map (·.amount)).foldl (· + ·) 0
  if transaction.inputs.any TransactionInput.isBase then 0
  else
    let summaryInputAmount := (transaction.inputs.map fun
      | .key input => input.amount
      | .base _ => 0).foldl (· + ·) 0
    summaryInputAmount - summaryOutputAmount

/-- `TransactionSpentInputsChecker::haveSpentInputs`: the key images are inserted in input order,
and the first one already present stops the loop with `true`; the images inserted before it stay. -/
def haveSpentInputs : List TransactionInput → List KeyImage → Bool × List KeyImage
  | [], alreadySpentKeyImages => (false, alreadySpentKeyImages)
  | .base _ :: inputs, alreadySpentKeyImages => haveSpentInputs inputs alreadySpentKeyImages
  | .key input :: inputs, alreadySpentKeyImages =>
    if input.keyImage ∈ alreadySpentKeyImages then (true, alreadySpentKeyImages)
    else haveSpentInputs inputs (alreadySpentKeyImages ++ [input.keyImage])

/-- What `fillBlockTemplate` has chosen so far: the transaction hashes, their total size and fee,
and the key images the spent inputs checker holds. -/
structure TemplateFill where
  transactionHashes : List Hash
  transactionsSize : ℕ
  fee : UInt64
  alreadySpentKeyImages : List KeyImage
deriving DecidableEq, Repr

/-- The first loop of `fillBlockTemplate`: from the end of the pool, while the fee is zero, a
fusion transaction that fits the fusion size joins the block unless it spends a key image already
taken. -/
def fillFusionTransactions (currency : Currency) (primitives : Primitives) :
    List CachedTransaction → TemplateFill → TemplateFill
  | [], fill => fill
  | transaction :: transactions, fill =>
    if transaction.getTransactionFee ≠ 0 then fill
    else
      let transactionBlobSize := transaction.transactionBinaryArray.length
      if currency.fusionTxMaxSize < fill.transactionsSize + transactionBlobSize then
        fillFusionTransactions currency primitives transactions fill
      else
        let (spent, alreadySpentKeyImages) :=
          haveSpentInputs transaction.transaction.inputs fill.alreadySpentKeyImages
        let fill := { fill with alreadySpentKeyImages := alreadySpentKeyImages }
        let fill := if spent then fill else
          { fill with transactionHashes := fill.transactionHashes ++ [primitives.getTransactionHash transaction.transaction],
                      transactionsSize := fill.transactionsSize + transactionBlobSize }
        fillFusionTransactions currency primitives transactions fill

/-- The second loop of `fillBlockTemplate`: every pool transaction, in pool order, joins the block
if it fits the limit for its kind (the median for a free one, `maxTotalSize` otherwise) and spends
no key image already taken. -/
def fillPaidTransactions (primitives : Primitives) (medianSize maxTotalSize : ℕ) :
    List CachedTransaction → TemplateFill → TemplateFill
  | [], fill => fill
  | cachedTransaction :: transactions, fill =>
    let blockSizeLimit := if cachedTransaction.getTransactionFee = 0 then medianSize else maxTotalSize
    let transactionBlobSize := cachedTransaction.transactionBinaryArray.length
    if blockSizeLimit < fill.transactionsSize + transactionBlobSize then
      fillPaidTransactions primitives medianSize maxTotalSize transactions fill
    else
      let (spent, alreadySpentKeyImages) :=
        haveSpentInputs cachedTransaction.transaction.inputs fill.alreadySpentKeyImages
      let fill := { fill with alreadySpentKeyImages := alreadySpentKeyImages }
      let fill := if spent then fill else
        { fill with transactionsSize := fill.transactionsSize + transactionBlobSize,
                    fee := fill.fee + cachedTransaction.getTransactionFee,
                    transactionHashes :=
                      fill.transactionHashes ++ [primitives.getTransactionHash cachedTransaction.transaction] }
      fillPaidTransactions primitives medianSize maxTotalSize transactions fill

/-- `fillBlockTemplate(block, medianSize, maxCumulativeSize, transactionsSize, fee)`: the chosen
transactions' hashes, total size and fee. The limit for paid transactions is 125% of the median,
at most the largest block, less the space kept for the coinbase, in `size_t`. -/
def fillBlockTemplate (currency : Currency) (primitives : Primitives) (poolTransactions : List CachedTransaction)
    (medianSize maxCumulativeSize : ℕ) : TemplateFill :=
  let maxTotalSize := (min (125 * medianSize / 100) maxCumulativeSize + 2 ^ 64 - currency.minerTxBlobReservedSize) % 2 ^ 64
  let fill := fillFusionTransactions currency primitives poolTransactions.reverse ⟨[], 0, 0, []⟩
  fillPaidTransactions primitives medianSize maxTotalSize poolTransactions fill

namespace Core

variable (core : Core) (context : CoreContext)

/-- The segments of the main leaf's chain. -/
def mainLeafSegments : List Segment := core.segments (core.chainsLeaves.headD 0)

/-- `Core::getBlockMajorVersionForHeight`: the core's upgrade manager. -/
def getBlockMajorVersionForHeight (height : ℕ) : UInt8 :=
  context.currency.coreUpgradeManager.getBlockMajorVersion height

/-- `Core::getDifficultyForNextBlock()`, the difficulty of a template: the algorithm of the top
block's version, over at most as many blocks as the top index. -/
def getDifficultyForNextBlock : UInt64 :=
  let topBlockIndex := core.getTopBlockIndex
  let nextBlockMajorVersion := getBlockMajorVersionForHeight context topBlockIndex
  let blocksCount := min topBlockIndex
    (context.currency.difficultyBlocksCountByBlockVersion nextBlockMajorVersion topBlockIndex)
  context.currency.getNextDifficulty nextBlockMajorVersion topBlockIndex
    (Segment.getLastTimestamps core.mainLeafSegments blocksCount topBlockIndex false)
    (Segment.getLastCumulativeDifficulties core.mainLeafSegments blocksCount topBlockIndex false)

/-- `Core::getTopBlockHash`. -/
def getTopBlockHash : Hash :=
  ((core.chainsLeaves.head?.bind core.getSegment).bind Segment.getTopBlockHash).getD ⟨Vector.replicate 32 0⟩

/-- `Core::getBlockTimestampByIndex`, as the release build runs it: the first of the one timestamp
the main leaf returns for the block. -/
def getBlockTimestampByIndex (blockIndex : ℕ) : UInt64 :=
  (Segment.getLastTimestamps core.mainLeafSegments 1 blockIndex true).headD 0

/-- The condition `assert(!(timestamps.size() == 1))` of `getBlockTimestampByIndex` checks in a debug
build. -/
def getBlockTimestampByIndexAssertion (blockIndex : ℕ) : Bool :=
  !((Segment.getLastTimestamps core.mainLeafSegments 1 blockIndex true).length == 1)

/-- `calculateCumulativeBlocksizeLimit(height)`: twice the median of the main leaf's last block
sizes, the genesis block left out, and at least twice the full reward zone of the height's
version. -/
def calculateCumulativeBlocksizeLimit (height : ℕ) : ℕ :=
  let nextBlockGrantedFullRewardZone :=
    context.currency.blockGrantedFullRewardZoneByBlockVersion (getBlockMajorVersionForHeight context height)
  let sizes := Segment.getLastBlocksSizes core.mainLeafSegments context.currency.rewardBlocksWindow
    core.getTopBlockIndex false
  let median := (medianValue sizes).toNat
  (if median ≤ nextBlockGrantedFullRewardZone then nextBlockGrantedFullRewardZone else median) * 2

/-- The window of recent timestamps whose median the template's timestamp must reach. -/
def templateTimestampCheckWindow (height : ℕ) : ℕ :=
  if height ≥ LWMA_2_DIFFICULTY_BLOCK_INDEX then BLOCKCHAIN_TIMESTAMP_CHECK_WINDOW_V3
  else BLOCKCHAIN_TIMESTAMP_CHECK_WINDOW

/-- The size loop of `getBlockTemplate`, with `tries` of its ten tries left: the coinbase is built
for `cumulativeSize`; a larger coinbase raises the size and tries again, a smaller one is padded
with zeros in its extra, and one byte less when the extra's length counter grew. -/
def fitMinerTransaction (environment : TemplateEnvironment) (blockMajorVersion : UInt8) (height medianSize : ℕ)
    (alreadyGeneratedCoins : UInt64) (transactionsSize : ℕ) (fee : UInt64)
    (minerAddress : AccountPublicAddress) (extraNonce : List UInt8) :
    ℕ → ℕ → Option Transaction
  | 0, _ => none
  | tries + 1, cumulativeSize => do
    let transaction ← context.currency.constructMinerTx environment blockMajorVersion height medianSize
      alreadyGeneratedCoins cumulativeSize fee minerAddress extraNonce 11
    let size (transaction : Transaction) := getObjectBinarySize outputTransaction transaction
    let coinbaseBlobSize := size transaction
    if coinbaseBlobSize > cumulativeSize - transactionsSize then
      fitMinerTransaction environment blockMajorVersion height medianSize alreadyGeneratedCoins transactionsSize
        fee minerAddress extraNonce tries (transactionsSize + coinbaseBlobSize)
    else if coinbaseBlobSize < cumulativeSize - transactionsSize then
      let delta := cumulativeSize - transactionsSize - coinbaseBlobSize
      let padded := { transaction with extra := transaction.extra ++ List.replicate delta 0 }
      if cumulativeSize = transactionsSize + size padded then pure padded
      else if cumulativeSize + 1 ≠ transactionsSize + size padded then none
      else
        let trimmed := { padded with extra := padded.extra.dropLast }
        if cumulativeSize ≠ transactionsSize + size trimmed then
          fitMinerTransaction environment blockMajorVersion height medianSize alreadyGeneratedCoins
            transactionsSize fee minerAddress extraNonce tries (cumulativeSize + delta - 1)
        else pure trimmed
    else pure transaction

/-- The block a template starts from: `boost::value_initialized<BlockTemplate>()`. -/
def emptyBlockTemplate : BlockTemplate :=
  { majorVersion := 0, minorVersion := 0, nonce := 0, timestamp := 0, previousBlockHash := ⟨Vector.replicate 32 0⟩,
    parentBlock :=
      { majorVersion := 0, minorVersion := 0, previousBlockHash := ⟨Vector.replicate 32 0⟩, transactionCount := 0,
        baseTransactionBranch := [],
        baseTransaction := { version := 0, unlockTime := 0, inputs := [], outputs := [], extra := [] },
        blockchainBranch := [] },
    baseTransaction := { version := 0, unlockTime := 0, inputs := [], outputs := [], extra := [], signatures := [] },
    transactionHashes := [] }

/-- `Core::getBlockTemplate(b, adr, extraNonce, difficulty, height)`: the template with its
difficulty and height, or `none` for `false`. The parent block's major version is set twice, the
second time to `BLOCK_MINOR_VERSION_0`, and keeps that value. -/
def getBlockTemplate (environment : TemplateEnvironment) (minerAddress : AccountPublicAddress)
    (extraNonce : List UInt8) : Option (BlockTemplate × UInt64 × ℕ) := do
  let height := core.getTopBlockIndex + 1
  let difficulty := core.getDifficultyForNextBlock context
  if difficulty = 0 then none
  let majorVersion := getBlockMajorVersionForHeight context height
  let b := { emptyBlockTemplate with majorVersion := majorVersion }
  let b :=
    if majorVersion = BLOCK_MAJOR_VERSION_1 then
      { b with minorVersion :=
          if context.currency.upgradeHeight BLOCK_MAJOR_VERSION_2 = 2 ^ 32 - 1 then BLOCK_MINOR_VERSION_1
          else BLOCK_MINOR_VERSION_0 }
    else if majorVersion ≥ BLOCK_MAJOR_VERSION_2 then
      let minorVersion :=
        if context.currency.upgradeHeight BLOCK_MAJOR_VERSION_3 = 2 ^ 32 - 1 then
          if majorVersion = BLOCK_MAJOR_VERSION_2 then BLOCK_MINOR_VERSION_1 else BLOCK_MINOR_VERSION_0
        else BLOCK_MINOR_VERSION_0
      let parentBlock := b.parentBlock
      { b with minorVersion := minorVersion,
               parentBlock := { parentBlock with
                 majorVersion := BLOCK_MINOR_VERSION_0, transactionCount := 1,
                 baseTransaction := { parentBlock.baseTransaction with
                   extra := appendMergeMiningTagToExtra parentBlock.baseTransaction.extra ⟨0, ⟨Vector.replicate 32 0⟩⟩ } } }
    else b
  let window := templateTimestampCheckWindow height
  let timestamp :=
    if height ≥ window then
      let medianTimestamp := medianValue ((List.range' (height - window) window).map core.getBlockTimestampByIndex)
      if context.now < medianTimestamp then medianTimestamp else context.now
    else context.now
  let b := { b with previousBlockHash := core.getTopBlockHash, timestamp := timestamp }
  let medianSize := core.calculateCumulativeBlocksizeLimit context height / 2
  let alreadyGeneratedCoins :=
    (Segment.getAlreadyGeneratedCoins core.mainLeafSegments core.getTopBlockIndex).getD 0
  let fill := fillBlockTemplate context.currency context.primitives environment.poolTransactions medianSize
    (context.currency.maxBlockCumulativeSize height)
  let b := { b with transactionHashes := fill.transactionHashes }
  let first ← context.currency.constructMinerTx environment majorVersion height medianSize alreadyGeneratedCoins
    fill.transactionsSize fill.fee minerAddress extraNonce 11
  let baseTransaction ← fitMinerTransaction context environment majorVersion height medianSize
    alreadyGeneratedCoins fill.transactionsSize fill.fee minerAddress extraNonce 10
    (fill.transactionsSize + getObjectBinarySize outputTransaction first)
  pure ({ b with baseTransaction := baseTransaction }, difficulty, height)

end Core

end Nox.CryptoNote
