import Nox.Model.CryptoNoteCore.DatabaseBlockchainCache
import Nox.Model.CryptoNoteCore.TransactionExtra

/-! # In-memory segments: `CryptoNoteCore/BlockchainCache.cpp`, and the queries of every segment

A query of `IBlockchainCache` is a virtual call on one segment that may fall through to its parent.
Here it is a function of the segment's ancestry: the segment first, then its parent, its parent's
parent, down to the root. An empty rest is a null parent. The in-memory branch of each query is the
code of `BlockchainCache`; the database branch calls `DatabaseBlockchainCache`, which has no parent.

`BlockchainCache::split` hands the blocks from the split index on to a new segment, the upper one,
by index for key images and transactions, by position for blocks and raw blocks, by transaction for
payment ids, and per amount for key outputs with the upper start index recomputed; the upper segment
takes over the children. It also re-parents those children, which are other objects: the core does
that on its segment table. `DatabaseBlockchainCache::split` instead pushes its upper blocks one by
one into a new in-memory segment, deletes them from the database, and adds that segment to its
children.
-/

namespace Nox.CryptoNote

open Nox.Crypto

/-- `getObjectBinarySize`: the size of the serialized object, `SIZE_MAX` when it does not
serialize. -/
def getObjectBinarySize {α : Type} (serialize : α → Except String (List UInt8)) (object : α) : ℕ :=
  match serialize object with
  | .ok binaryArray => binaryArray.length
  | .error _ => 2 ^ 64 - 1

/-- `Utils::restoreCachedTransactions`: every binary transaction must deserialize. -/
def restoreCachedTransactions (binaryTransactions : List (List UInt8)) :
    Except String (List CachedTransaction) :=
  binaryTransactions.mapM CachedTransaction.ofBinaryArray

/-- The parent block a `BlockTemplate` gets before a version 1 template is read into it. -/
def unreadParentBlock : ParentBlock :=
  { majorVersion := 0, minorVersion := 0, previousBlockHash := ⟨Vector.replicate 32 0⟩,
    transactionCount := 0, baseTransactionBranch := [],
    baseTransaction := { version := 0, unlockTime := 0, inputs := [], outputs := [], extra := [] },
    blockchainBranch := [] }

/-- `GENESIS_COINBASE_TX_HEX` of the configuration, as bytes. -/
def GENESIS_COINBASE_TX : List UInt8 :=
  [0x01, 0x0a, 0x01, 0xff, 0x00, 0x01, 0x88, 0xf3, 0xb5, 0x01, 0x02, 0x9b, 0x2e, 0x4c, 0x02, 0x81,
    0xc0, 0xb0, 0x2e, 0x7c, 0x53, 0x29, 0x1a, 0x94, 0xd1, 0xd0, 0xcb, 0xff, 0x88, 0x83, 0xf8, 0x02,
    0x4f, 0x51, 0x42, 0xee, 0x49, 0x4f, 0xfb, 0xbd, 0x08, 0x80, 0x71, 0x21, 0x01, 0x42, 0x69, 0x42,
    0x32, 0xc5, 0xb0, 0x41, 0x51, 0xd9, 0xe4, 0xc2, 0x7d, 0x31, 0xec, 0x7a, 0x68, 0xea, 0x56, 0x8b,
    0x19, 0x48, 0x8c, 0xfc, 0xb4, 0x22, 0x65, 0x9a, 0x07, 0xa0, 0xe4, 0x4d, 0xd5]

/-- `Currency::generateGenesisBlock`: the hard-coded coinbase in a version 1 template with
timestamp 0 and nonce 70, or 71 on the test network. -/
def genesisBlock (testnet : Bool) : Except String BlockTemplate := do
  let baseTransaction ← fromBinaryArray inputTransaction GENESIS_COINBASE_TX
  pure { majorVersion := BLOCK_MAJOR_VERSION_1, minorVersion := 0, nonce := if testnet then 71 else 70,
         timestamp := 0, previousBlockHash := ⟨Vector.replicate 32 0⟩, parentBlock := unreadParentBlock,
         baseTransaction := baseTransaction, transactionHashes := [] }

namespace Segment

def hasBlock : Segment → Hash → Bool
  | .memory cache, blockHash => cache.blockInfos.any (·.blockHash == blockHash)
  | .database cache, blockHash => cache.hasBlock blockHash

/-- `getBlockIndex`: the index of a block this segment holds; the source throws for any other
hash. -/
def getBlockIndex : Segment → Hash → Option ℕ
  | .memory cache, blockHash =>
    (cache.blockInfos.findIdx? (·.blockHash == blockHash)).map (· + cache.startIndex)
  | .database cache, blockHash => cache.getBlockIndex blockHash

def getTopBlockHash : Segment → Option Hash
  | .memory cache => cache.blockInfos.getLast?.map (·.blockHash)
  | .database cache => cache.blockInfos.getLast?.map (·.blockHash)

/-- `getCurrentCumulativeDifficulty()`: that of the top block. -/
def getCurrentCumulativeDifficulty : Segment → UInt64
  | .memory cache => (cache.blockInfos.getLast?.map (·.cumulativeDifficulty)).getD 0
  | .database cache => (cache.blockInfos.getLast?.map (·.cumulativeDifficulty)).getD 0

/-- `getCurrentCumulativeDifficulty(blockIndex)`: in memory this reads only the segment's own
blocks, with `at`, which throws below the start index. -/
def getCurrentCumulativeDifficultyAt : Segment → ℕ → Option UInt64
  | .memory cache, blockIndex =>
    if blockIndex < cache.startIndex then none
    else (cache.blockInfos[blockIndex - cache.startIndex]?).map (·.cumulativeDifficulty)
  | .database cache, blockIndex => (cache.getCachedBlockInfo blockIndex).map (·.cumulativeDifficulty)

/-- `getTransactionGlobalIndexes`: only the segment's own transactions. -/
def getTransactionGlobalIndexes : Segment → Hash → Option (List ℕ)
  | .memory cache, transactionHash =>
    (cache.transactions.find? (·.transactionHash == transactionHash)).map (·.globalIndexes)
  | .database cache, transactionHash => cache.getTransactionGlobalIndexes transactionHash

/-- `checkIfSpent(keyImage, blockIndex)`. In memory: below the start index ask the parent; a key
image recorded here answers by its block index; any other is asked of the parent. -/
def checkIfSpent : List Segment → KeyImage → ℕ → Bool
  | [], _, _ => false
  | .memory cache :: parents, keyImage, blockIndex =>
    if blockIndex < cache.startIndex then checkIfSpent parents keyImage blockIndex
    else match cache.spentKeyImages.find? (·.keyImage == keyImage) with
      | some spent => decide (spent.blockIndex ≤ blockIndex)
      | none => checkIfSpent parents keyImage blockIndex
  | .database cache :: _, keyImage, blockIndex => cache.checkIfSpent keyImage blockIndex

def getBlockHash : List Segment → ℕ → Option Hash
  | [], _ => none
  | .memory cache :: parents, blockIndex =>
    if blockIndex < cache.startIndex then getBlockHash parents blockIndex
    else (cache.blockInfos[blockIndex - cache.startIndex]?).map (·.blockHash)
  | .database cache :: _, blockIndex => cache.getBlockHash blockIndex

def getBlockByIndex : List Segment → ℕ → Option RawBlock
  | [], _ => none
  | .memory cache :: parents, index =>
    if index < cache.startIndex then getBlockByIndex parents index
    else cache.storage[index - cache.startIndex]?
  | .database cache :: _, index => cache.getBlockByIndex index

def getAlreadyGeneratedCoins : List Segment → ℕ → Option UInt64
  | [], _ => none
  | .memory cache :: parents, blockIndex =>
    if blockIndex < cache.startIndex then getAlreadyGeneratedCoins parents blockIndex
    else (cache.blockInfos[blockIndex - cache.startIndex]?).map (·.alreadyGeneratedCoins)
  | .database cache :: _, blockIndex => (cache.getCachedBlockInfo blockIndex).map (·.alreadyGeneratedCoins)

def getAlreadyGeneratedTransactions : List Segment → ℕ → Option UInt64
  | [], _ => none
  | .memory cache :: parents, blockIndex =>
    if blockIndex < cache.startIndex then getAlreadyGeneratedTransactions parents blockIndex
    else (cache.blockInfos[blockIndex - cache.startIndex]?).map (·.alreadyGeneratedTransactions)
  | .database cache :: _, blockIndex =>
    (cache.getCachedBlockInfo blockIndex).map (·.alreadyGeneratedTransactions)

/-- `getLastUnits(count, blockIndex, useGenesis, pred)`: the values of the last `count` blocks up to
`blockIndex`, oldest first. In memory the segment gives what it holds of them, skipping the genesis
block of a root unless `useGenesis`, and asks its parent for the rest, up to the parent's top. -/
def getLastUnits (pred : CachedBlockInfo → UInt64) : List Segment → ℕ → ℕ → Bool → List UInt64
  | [], _, _, _ => []
  | .memory cache :: parents, count, blockIndex, useGenesis =>
    let toIndex := if blockIndex < cache.startIndex then 0 else blockIndex - cache.startIndex + 1
    let realCount := min count toIndex
    let skipGenesis := !useGenesis && toIndex - realCount == 0 && realCount != 0 && parents.isEmpty
    let fromIndex := if skipGenesis then toIndex - realCount + 1 else toIndex - realCount
    let realCount := if skipGenesis then realCount - 1 else realCount
    let result := match parents with
      | [] => []
      | parent :: _ =>
        if realCount < count then
          getLastUnits pred parents (count - realCount) (min blockIndex parent.getTopBlockIndex) useGenesis
        else []
    result ++ ((cache.blockInfos.drop fromIndex).take (toIndex - fromIndex)).map pred
  | .database cache :: _, count, blockIndex, useGenesis => cache.getLastUnits pred count blockIndex useGenesis

def getLastTimestamps (segments : List Segment) (count blockIndex : ℕ) (useGenesis : Bool) : List UInt64 :=
  getLastUnits (·.timestamp) segments count blockIndex useGenesis

def getLastBlocksSizes (segments : List Segment) (count blockIndex : ℕ) (useGenesis : Bool) : List UInt64 :=
  getLastUnits (·.blockSize.toUInt64) segments count blockIndex useGenesis

def getLastCumulativeDifficulties (segments : List Segment) (count blockIndex : ℕ) (useGenesis : Bool) :
    List UInt64 :=
  getLastUnits (·.cumulativeDifficulty) segments count blockIndex useGenesis

/-- `getBlockMajorVersionForHeight` of both segment kinds. -/
def getBlockMajorVersionForHeight (currency : Currency) (height : ℕ) : UInt8 :=
  currency.segmentUpgradeManager.getBlockMajorVersion height

/-- `getDifficultyForNextBlock(blockIndex)`, the same code in both segment kinds: the difficulty
algorithm of the next block's version over the timestamps and cumulative difficulties of the
blocks before it, the genesis block left out. -/
def getDifficultyForNextBlock (currency : Currency) (segments : List Segment) (blockIndex : ℕ) : UInt64 :=
  let nextBlockMajorVersion := getBlockMajorVersionForHeight currency (blockIndex + 1)
  let count := currency.difficultyBlocksCountByBlockVersion nextBlockMajorVersion blockIndex
  currency.getNextDifficulty nextBlockMajorVersion blockIndex
    (getLastTimestamps segments count blockIndex false)
    (getLastCumulativeDifficulties segments count blockIndex false)

/-- `getKeyOutputsCountForAmount(amount, blockIndex)`. In memory: a segment holding outputs of the
amount counts its start index and its outputs below `blockIndex`; otherwise the parent answers. -/
def getKeyOutputsCountForAmount : List Segment → UInt64 → ℕ → ℕ
  | [], _, _ => 0
  | .memory cache :: parents, amount, blockIndex =>
    match cache.keyOutputsGlobalIndexes amount with
    | some entry => entry.startIndex + (entry.outputs.takeWhile (·.blockIndex < blockIndex)).length
    | none => getKeyOutputsCountForAmount parents amount blockIndex
  | .database cache :: _, amount, blockIndex => cache.getKeyOutputsCountForAmount amount blockIndex

/-- The loop of `BlockchainCache::extractKeyOutputs` over the requested global indexes that this
segment holds: an index past its outputs, or whose transaction it lacks, is invalid. -/
def extractOwnKeyOutputs {α : Type}
    (pred : CachedTransactionInfo → PackedOutIndex → ℕ → Except ExtractOutputKeysResult α)
    (cache : BlockchainCache) (entry : OutputGlobalIndexesForAmount) (globalIndexes : List ℕ) :
    Except ExtractOutputKeysResult (List α) :=
  globalIndexes.mapM fun globalIndex =>
    match entry.outputs[globalIndex - entry.startIndex]? with
    | none => .error .INVALID_GLOBAL_INDEX
    | some outputIndex =>
      match cache.transactions.find? (fun info => info.blockIndex == outputIndex.blockIndex &&
          info.transactionIndex == outputIndex.transactionIndex) with
      | none => .error .INVALID_GLOBAL_INDEX
      | some info => pred info outputIndex globalIndex

/-- `extractKeyOutputs(amount, blockIndex, globalIndexes, pred)`: the callback's results, in the
order of the sorted global indexes. In memory: a segment without outputs of the amount, or asked
below its start index, passes the request to its parent; otherwise the indexes below its start
global index go to the parent first and it resolves the others itself. It asserts, but does not
check, that a resolved output lies at or below `blockIndex`. -/
def extractKeyOutputs {α : Type}
    (pred : CachedTransactionInfo → PackedOutIndex → ℕ → Except ExtractOutputKeysResult α) :
    List Segment → UInt64 → ℕ → List ℕ → Except ExtractOutputKeysResult (List α)
  | [], _, _, _ => .error .INVALID_GLOBAL_INDEX
  | .memory cache :: parents, amount, blockIndex, globalIndexes =>
    match cache.keyOutputsGlobalIndexes amount with
    | some entry =>
      if blockIndex < cache.startIndex then extractKeyOutputs pred parents amount blockIndex globalIndexes
      else
        let parentIndexes := globalIndexes.takeWhile (· < entry.startIndex)
        let myGlobalIndexes := globalIndexes.drop parentIndexes.length
        do
          let fromParent ←
            if parentIndexes.isEmpty then pure [] else extractKeyOutputs pred parents amount blockIndex parentIndexes
          let own ← extractOwnKeyOutputs pred cache entry myGlobalIndexes
          pure (fromParent ++ own)
    | none => extractKeyOutputs pred parents amount blockIndex globalIndexes
  | .database cache :: _, amount, blockIndex, globalIndexes =>
    cache.extractKeyOutputs pred amount blockIndex globalIndexes

/-- The callback of `extractKeyOutputKeys`, the same in both segment kinds: a locked output stops
the extraction, an unlocked one gives its key. -/
def outputKeyOfUnlocked (currency : Currency) (now : UInt64) (blockIndex : ℕ)
    (info : CachedTransactionInfo) (index : PackedOutIndex) (_globalIndex : ℕ) :
    Except ExtractOutputKeysResult PublicKey :=
  if !currency.isTransactionSpendTimeUnlocked now info.unlockTime blockIndex then .error .OUTPUT_LOCKED
  else match info.outputs[index.outputIndex]? with
    | some (.key output) => .ok output.key
    | none => .error .INVALID_GLOBAL_INDEX

/-- `extractKeyOutputKeys(amount, blockIndex, globalIndexes, publicKeys)`. -/
def extractKeyOutputKeys (currency : Currency) (now : UInt64) (segments : List Segment)
    (amount : UInt64) (blockIndex : ℕ) (globalIndexes : List ℕ) :
    Except ExtractOutputKeysResult (List PublicKey) :=
  extractKeyOutputs (outputKeyOfUnlocked currency now blockIndex) segments amount blockIndex globalIndexes

/-- `getRawTransaction(blockIndex, transactionIndex)`. In memory position 0 is the coinbase,
re-serialized from the stored block template, and position `i + 1` the `i`-th stored transaction. -/
def getRawTransaction : List Segment → ℕ → ℕ → Option (List UInt8)
  | [], _, _ => none
  | .memory cache :: parents, index, transactionIndex =>
    if index < cache.startIndex then getRawTransaction parents index transactionIndex
    else (cache.storage[index - cache.startIndex]?).bind fun rawBlock =>
      if transactionIndex = 0 then
        ((fromBinaryArray (inputBlockTemplate unreadParentBlock) rawBlock.block).toOption).bind
          fun block => (toBinaryArray outputTransaction block.baseTransaction).toOption
      else rawBlock.transactions[transactionIndex - 1]?
  | .database cache :: _, index, transactionIndex => cache.getRawTransaction index transactionIndex

end Segment

namespace BlockchainCache

/-- `getTransactionHashesByPaymentId` along a path of in-memory segments: the parent's hashes
first, then this segment's, in the order they were recorded. -/
def getTransactionHashesByPaymentId : List BlockchainCache → Hash → List Hash
  | [], _ => []
  | cache :: parents, paymentId =>
    getTransactionHashesByPaymentId parents paymentId ++
      (cache.paymentIds.filter (·.paymentId == paymentId)).map (·.transactionHash)

variable (primitives : Primitives) (parents : List Segment)

/-- `addSpentKeyImage`: the image is recorded unless this segment already holds it. -/
def addSpentKeyImage (keyImage : KeyImage) (blockIndex : ℕ) (cache : BlockchainCache) : BlockchainCache :=
  if cache.spentKeyImages.any (·.keyImage == keyImage) then cache
  else { cache with spentKeyImages := cache.spentKeyImages ++ [⟨blockIndex, keyImage⟩] }

/-- `insertKeyOutputToGlobalIndex`: the output joins the outputs of its amount; the first output of
an amount in this segment fixes the start index to the parent's count. Returns its global index. -/
def insertKeyOutputToGlobalIndex (amount : UInt64) (output : PackedOutIndex) (blockIndex : ℕ)
    (cache : BlockchainCache) : BlockchainCache × ℕ :=
  let entry : OutputGlobalIndexesForAmount :=
    match cache.keyOutputsGlobalIndexes amount with
    | some entry => { entry with outputs := entry.outputs ++ [output] }
    | none =>
      { startIndex := if parents.isEmpty then 0 else Segment.getKeyOutputsCountForAmount parents amount blockIndex,
        outputs := [output] }
  ({ cache with keyOutputsGlobalIndexes := fun other => if other = amount then some entry
                                                        else cache.keyOutputsGlobalIndexes other },
   entry.startIndex + entry.outputs.length - 1)

/-- The output loop of `pushTransaction`: every output is a key output and gets a global index. -/
def pushOutputs (blockIndex transactionIndex : ℕ) :
    ℕ → List TransactionOutput → BlockchainCache → BlockchainCache × List ℕ
  | _, [], cache => (cache, [])
  | outputIndex, output :: outputs, cache =>
    let (cache, globalIndex) :=
      insertKeyOutputToGlobalIndex parents output.amount ⟨blockIndex, transactionIndex, outputIndex⟩ blockIndex cache
    let (cache, globalIndexes) := pushOutputs blockIndex transactionIndex (outputIndex + 1) outputs cache
    (cache, globalIndex :: globalIndexes)

/-- `pushTransaction`: its outputs get global indexes; its record is kept unless one with the same
position or hash is held; a payment id in its extra is recorded once per transaction hash. -/
def pushTransaction (blockIndex transactionInBlockIndex : ℕ) (transaction : Transaction)
    (cache : BlockchainCache) : BlockchainCache :=
  let transactionHash := primitives.getTransactionHash transaction
  let (cache, globalIndexes) := pushOutputs parents blockIndex transactionInBlockIndex 0 transaction.outputs cache
  let info : CachedTransactionInfo :=
    { blockIndex := blockIndex, transactionIndex := transactionInBlockIndex,
      transactionHash := transactionHash, unlockTime := transaction.unlockTime,
      outputs := transaction.outputs.map (·.target), globalIndexes := globalIndexes }
  let cache :=
    if cache.transactions.any (fun held => (held.blockIndex == blockIndex &&
        held.transactionIndex == transactionInBlockIndex) || held.transactionHash == transactionHash) then cache
    else { cache with transactions := cache.transactions ++ [info] }
  match getPaymentIdFromTxExtra transaction.extra with
  | none => cache
  | some paymentId =>
    if cache.paymentIds.any (·.transactionHash == transactionHash) then cache
    else { cache with paymentIds := cache.paymentIds ++ [⟨paymentId, transactionHash⟩] }

/-- The transaction loop of `doPushBlock`, from position `transactionIndex` of the block. -/
def pushTransactions (blockIndex : ℕ) : ℕ → List Transaction → BlockchainCache → BlockchainCache
  | _, [], cache => cache
  | transactionIndex, transaction :: transactions, cache =>
    pushTransactions blockIndex (transactionIndex + 1) transactions
      (pushTransaction primitives parents blockIndex transactionIndex transaction cache)

/-- `doPushBlock`: the block's counters continue those of the segment's top block, or of the
parent's block before it for a first block; the block info is kept unless its hash is held; the
key images, the coinbase and the transactions are recorded under the index the block states. -/
def pushBlock (cachedBlock : CachedBlock) (cachedTransactions : List CachedTransaction)
    (validatorState : TransactionValidatorState) (blockSize : ℕ) (generatedCoins blockDifficulty : UInt64)
    (rawBlock : RawBlock) (cache : BlockchainCache) : BlockchainCache :=
  let blockIndex := cachedBlock.getBlockIndex
  let transactionCount := UInt64.ofNat (cachedTransactions.length + 1)
  let (cumulativeDifficulty, alreadyGeneratedCoins, alreadyGeneratedTransactions) :=
    match cache.blockInfos.getLast? with
    | some lastBlockInfo =>
      (lastBlockInfo.cumulativeDifficulty + blockDifficulty,
       lastBlockInfo.alreadyGeneratedCoins + generatedCoins,
       lastBlockInfo.alreadyGeneratedTransactions + transactionCount)
    | none =>
      match parents with
      | [] => (blockDifficulty, generatedCoins, transactionCount)
      | parent :: _ =>
        (((parent.getCurrentCumulativeDifficultyAt (blockIndex - 1)).getD 0) + blockDifficulty,
         ((Segment.getAlreadyGeneratedCoins parents (blockIndex - 1)).getD 0) + generatedCoins,
         ((Segment.getAlreadyGeneratedTransactions parents (blockIndex - 1)).getD 0) + transactionCount)
  let blockInfo : CachedBlockInfo :=
    { blockHash := primitives.getBlockHash cachedBlock.block, timestamp := cachedBlock.block.timestamp,
      cumulativeDifficulty := cumulativeDifficulty, alreadyGeneratedCoins := alreadyGeneratedCoins,
      alreadyGeneratedTransactions := alreadyGeneratedTransactions, blockSize := UInt32.ofNat blockSize }
  let cache :=
    if cache.blockInfos.any (·.blockHash == blockInfo.blockHash) then cache
    else { cache with blockInfos := cache.blockInfos ++ [blockInfo] }
  let cache := validatorState.spentKeyImages.foldl (fun cache keyImage => addSpentKeyImage keyImage blockIndex cache) cache
  let cache := pushTransactions primitives parents blockIndex 0
    (cachedBlock.block.baseTransaction :: cachedTransactions.map (·.transaction)) cache
  { cache with storage := cache.storage ++ [rawBlock] }

/-- `fillOutputsSpentByBlock`: the key images recorded for the block. -/
def fillOutputsSpentByBlock (cache : BlockchainCache) (blockIndex : ℕ) : TransactionValidatorState :=
  ⟨(cache.spentKeyImages.filter (·.blockIndex == blockIndex)).map (·.keyImage)⟩

/-- `getPushedBlockInfo(blockIndex)`: what `pushBlock` was given for a block this segment holds,
its difficulty and coins recovered as differences of the running counters. -/
def getPushedBlockInfo (cache : BlockchainCache) (blockIndex : ℕ) : Option PushedBlockInfo := do
  let localIndex := blockIndex - cache.startIndex
  let cachedBlock ← cache.blockInfos[localIndex]?
  let rawBlock ← cache.storage[localIndex]?
  let (previousCumulativeDifficulty, previousGeneratedCoins) ←
    if blockIndex > cache.startIndex then
      (cache.blockInfos[localIndex - 1]?).map fun previous =>
        (previous.cumulativeDifficulty, previous.alreadyGeneratedCoins)
    else match parents with
      | [] => some (0, 0)
      | _ => do
        let cumulativeDifficulty ←
          (Segment.getLastCumulativeDifficulties parents 1 (cache.startIndex - 1) true).head?
        let alreadyGeneratedCoins ← Segment.getAlreadyGeneratedCoins parents (cache.startIndex - 1)
        pure (cumulativeDifficulty, alreadyGeneratedCoins)
  pure { rawBlock := rawBlock, validatorState := fillOutputsSpentByBlock cache blockIndex,
         blockSize := cachedBlock.blockSize.toNat,
         generatedCoins := cachedBlock.alreadyGeneratedCoins - previousGeneratedCoins,
         blockDifficulty := cachedBlock.cumulativeDifficulty - previousCumulativeDifficulty }

/-- `splitGlobalIndexes` for one amount: the outputs below the split index stay, the others move
to the upper segment, whose start index counts the staying ones; an empty side has no entry. -/
def splitGlobalIndexes (entry : OutputGlobalIndexesForAmount) (splitBlockIndex : ℕ) :
    Option OutputGlobalIndexesForAmount × Option OutputGlobalIndexesForAmount :=
  let staying := entry.outputs.takeWhile (·.blockIndex < splitBlockIndex)
  let moving := entry.outputs.dropWhile (·.blockIndex < splitBlockIndex)
  (if staying.isEmpty then none else some ⟨entry.startIndex, staying⟩,
   if moving.isEmpty then none
   else some ⟨entry.startIndex + entry.outputs.length - moving.length, moving⟩)

/-- `removePaymentId`: the pair of a moved transaction passes to the upper segment. -/
def removePaymentId (transactionHash : Hash)
    (ids : List PaymentIdTransactionHashPair × List PaymentIdTransactionHashPair) :
    List PaymentIdTransactionHashPair × List PaymentIdTransactionHashPair :=
  match ids.1.find? (·.transactionHash == transactionHash) with
  | none => ids
  | some pair => (ids.1.erase pair, ids.2 ++ [pair])

/-- `split(splitBlockIndex)` of the segment `self`: the lower part it keeps and the upper part, a
new segment `upper` whose parent is `self` and which takes over the children. -/
def split (self upper : SegmentPointer) (splitBlockIndex : ℕ) (cache : BlockchainCache) :
    BlockchainCache × BlockchainCache :=
  let localIndex := splitBlockIndex - cache.startIndex
  let movedTransactions := cache.transactions.filter (splitBlockIndex ≤ ·.blockIndex)
  let (paymentIds, movedPaymentIds) :=
    movedTransactions.foldl (fun ids info => removePaymentId info.transactionHash ids) (cache.paymentIds, [])
  ({ cache with
      spentKeyImages := cache.spentKeyImages.filter (·.blockIndex < splitBlockIndex),
      transactions := cache.transactions.filter (·.blockIndex < splitBlockIndex),
      paymentIds := paymentIds,
      blockInfos := cache.blockInfos.take localIndex,
      keyOutputsGlobalIndexes := fun amount =>
        (cache.keyOutputsGlobalIndexes amount).bind fun entry => (splitGlobalIndexes entry splitBlockIndex).1,
      storage := cache.storage.take localIndex,
      children := [upper] },
   { startIndex := splitBlockIndex, parent := some self, children := cache.children,
     spentKeyImages := cache.spentKeyImages.filter (splitBlockIndex ≤ ·.blockIndex),
     transactions := movedTransactions,
     blockInfos := cache.blockInfos.drop localIndex,
     keyOutputsGlobalIndexes := fun amount =>
       (cache.keyOutputsGlobalIndexes amount).bind fun entry => (splitGlobalIndexes entry splitBlockIndex).2,
     paymentIds := movedPaymentIds,
     storage := cache.storage.drop localIndex })

/-- The `BlockchainCache` constructor for a root: the genesis block pushed with its coinbase size,
its miner reward as generated coins and difficulty 1. -/
def ofGenesisBlock (genesisBlock : CachedBlock) : Except String BlockchainCache := do
  let minerReward := (genesisBlock.block.baseTransaction.outputs.map (·.amount)).sum
  let coinbaseTransactionSize := getObjectBinarySize outputTransaction genesisBlock.block.baseTransaction
  let binaryBlock ← toBinaryArray outputBlockTemplate genesisBlock.block
  pure (pushBlock primitives [] genesisBlock [] ⟨[]⟩ coinbaseTransactionSize minerReward 1 ⟨binaryBlock, []⟩
    (empty none 0))

end BlockchainCache

namespace DatabaseBlockchainCache

/-- `pushBlockToAnotherCache`: the database's block at `blockIndex`, restored from its raw block,
pushed onto `segment`, whose parent is the database itself. -/
def pushBlockToAnotherCache (primitives : Primitives) (cache : DatabaseBlockchainCache)
    (segment : BlockchainCache) (blockIndex : ℕ) : BlockchainCache :=
  match cache.getExtendedPushedBlockInfo blockIndex with
  | none => segment
  | some (info, _) =>
    match fromBinaryArray (inputBlockTemplate unreadParentBlock) info.rawBlock.block,
        restoreCachedTransactions info.rawBlock.transactions with
    | .ok block, .ok transactions =>
      BlockchainCache.pushBlock primitives [.database cache] ⟨block⟩ transactions info.validatorState
        info.blockSize info.generatedCoins info.blockDifficulty info.rawBlock segment
    | _, _ => segment

/-- `split(splitBlockIndex)` of the database root `self`: its blocks from the split index on are
pushed into a new in-memory segment `upper`, then deleted, and `upper` is added to its children.
The children it had stay its children. -/
def split (primitives : Primitives) (self upper : SegmentPointer) (splitBlockIndex : ℕ)
    (cache : DatabaseBlockchainCache) : DatabaseBlockchainCache × BlockchainCache :=
  let moved := List.range' splitBlockIndex (cache.getTopBlockIndex + 1 - splitBlockIndex)
  let upperCache := moved.foldl (pushBlockToAnotherCache primitives cache)
    (BlockchainCache.empty (some self) splitBlockIndex)
  let lower := cache.removeBlocksFrom splitBlockIndex
  ({ lower with children := lower.children ++ [upper] }, upperCache)

/-- `addGenesisBlock`, which the constructor calls on an empty database: the genesis block's info
with cumulative difficulty 1, its miner reward and one transaction, its coinbase, its raw block,
the closest-timestamp entry of its midnight and the first unit of the cache. It spends no key image
and has no entry in the spent key images by block. -/
def ofGenesisBlock (primitives : Primitives) (genesisBlock : CachedBlock) : Except String DatabaseBlockchainCache := do
  let baseTransaction := genesisBlock.block.baseTransaction
  let minerReward := (baseTransaction.outputs.map (·.amount)).sum
  let baseTransactionSize := getObjectBinarySize outputTransaction baseTransaction
  let blockInfo : CachedBlockInfo :=
    { blockHash := primitives.getBlockHash genesisBlock.block, timestamp := genesisBlock.block.timestamp,
      cumulativeDifficulty := 1, alreadyGeneratedCoins := minerReward, alreadyGeneratedTransactions := 1,
      blockSize := UInt32.ofNat baseTransactionSize }
  let binaryBlock ← toBinaryArray outputBlockTemplate genesisBlock.block
  let cache := empty.pushTransaction primitives 0 0 baseTransaction
  let some midnight := roundToMidnight genesisBlock.block.timestamp | throw "Timestamp is too big"
  pure { cache with blockInfos := [blockInfo],
                    transactionHashesByBlocks := [[primitives.getTransactionHash baseTransaction]],
                    rawBlocks := [⟨binaryBlock, []⟩],
                    closestTimestampBlockIndex := [(midnight, 0)],
                    unitsCache := [blockInfo] }

end DatabaseBlockchainCache

end Nox.CryptoNote
