import Nox.Model.CryptoNoteCore.Currency

/-! # The database root segment: `CryptoNoteCore/DatabaseBlockchainCache.cpp`

The root of the daemon's segment tree keeps its blocks in RocksDB tables; this model keeps each
table the modelled functions read as a list indexed by block index or global output index, or as
a function for a table keyed by key image or amount. The database has no parent.

Its key image table maps an image to the block index most recently written for it, and `split`
deletes the entry of every image spent by a moved block. Its `extractKeyOutputs` reads the
requested global indexes in one batch, ignores the block index it is given, and calls back only for
the indexes the batch found, in increasing order. `getLastUnits` takes the newest units from the
units cache in front of the block info table and the older ones from the table.
-/

namespace Nox.CryptoNote

open Nox.Crypto

/-- The key that `resize` gives the unused output slots of a transaction rebuilt from the key
output table. -/
def zeroPublicKey : PublicKey := ⟨Vector.replicate 32 0⟩

/-- A database without blocks. -/
def DatabaseBlockchainCache.empty : DatabaseBlockchainCache :=
  { blockInfos := [], rawBlocks := [], transactionHashesByBlocks := [], spentKeyImagesByBlock := fun _ => none,
    blockIndexesBySpentKeyImages := fun _ => none, transactions := [], keyOutputs := fun _ => [],
    closestTimestampBlockIndex := [], unitsCache := [], children := [] }

def ONE_DAY_SECONDS : UInt64 := 60 * 60 * 24

/-- `unitsCacheSize`: the most block infos the units cache holds. -/
def unitsCacheSize : ℕ := 1000

/-- `roundToMidnight`: the start of the timestamp's day; it throws past the range of `time_t`. -/
def roundToMidnight (timestamp : UInt64) : Option UInt64 :=
  if timestamp > 0x7FFFFFFFFFFFFFFF then none else some (timestamp / ONE_DAY_SECONDS * ONE_DAY_SECONDS)

/-- `cutTail(cache, count)`: the last `count` units go, or all of them. -/
def cutTail (units : List CachedBlockInfo) (count : ℕ) : List CachedBlockInfo :=
  if count ≥ units.length then [] else units.take (units.length - count)

namespace DatabaseBlockchainCache

variable (cache : DatabaseBlockchainCache)

def getTopBlockIndex : ℕ := cache.blockInfos.length - 1

/-- `getCachedBlockInfo`: the source throws for an index the table lacks. -/
def getCachedBlockInfo (index : ℕ) : Option CachedBlockInfo := cache.blockInfos[index]?

def hasBlock (blockHash : Hash) : Bool := cache.blockInfos.any (·.blockHash == blockHash)

/-- `getBlockIndex`, read from the block hash table that `pushBlock` and `split` keep in step with
the block info table. -/
def getBlockIndex (blockHash : Hash) : Option ℕ := cache.blockInfos.findIdx? (·.blockHash == blockHash)

def getBlockHash (blockIndex : ℕ) : Option Hash := (cache.getCachedBlockInfo blockIndex).map (·.blockHash)

def getBlockByIndex (index : ℕ) : Option RawBlock := cache.rawBlocks[index]?

/-- `getRawTransaction(blockIndex, transactionIndex)`: the raw block's transaction at that
position, with no offset for the coinbase. -/
def getRawTransaction (blockIndex transactionIndex : ℕ) : Option (List UInt8) :=
  (cache.getBlockByIndex blockIndex).bind (·.transactions[transactionIndex]?)

/-- `checkIfSpent(keyImage, blockIndex)`: the recorded block index is at most `blockIndex`. -/
def checkIfSpent (keyImage : KeyImage) (blockIndex : ℕ) : Bool :=
  match cache.blockIndexesBySpentKeyImages keyImage with
  | some spentAt => decide (spentAt ≤ blockIndex)
  | none => false

/-- `getKeyOutputsCountForAmount`: a `lower_bound` over the outputs of the amount by block index. -/
def getKeyOutputsCountForAmount (amount : UInt64) (blockIndex : ℕ) : ℕ :=
  ((cache.keyOutputs amount).takeWhile (·.1.blockIndex < blockIndex)).length

def getTransactionGlobalIndexes (transactionHash : Hash) : Option (List ℕ) :=
  (cache.transactions.find? (·.transactionHash == transactionHash)).map (·.globalIndexes)

/-- `getLastCachedUnits(blockIndex, count, useGenesis)`: the part of the last `count` units up to
`blockIndex` that the units cache holds, which ends at the top block. The genesis block is skipped
unless `useGenesis` when the cache starts with it. -/
def getLastCachedUnits (blockIndex count : ℕ) (useGenesis : Bool) : List CachedBlockInfo :=
  let cacheStartIndex := (cache.getTopBlockIndex + 1) - cache.unitsCache.length
  let count := min cache.unitsCache.length count
  if cacheStartIndex > blockIndex ∨ count = 0 then []
  else
    let count := min (blockIndex - cacheStartIndex + 1) count
    let offset := blockIndex + 1 - count - cacheStartIndex
    let (offset, count) :=
      if !useGenesis ∧ cacheStartIndex = 0 ∧ offset = 0 then (offset + 1, count - 1) else (offset, count)
    if offset ≥ cache.unitsCache.length ∨ count = 0 then []
    else (cache.unitsCache.drop offset).take count

/-- `getLastDbUnits(blockIndex, count, useGenesis)`: the last `count` block infos up to `blockIndex`
read from the table, without the genesis block unless `useGenesis`. The batches of 200 it reads in
are sorted by index and put one after another. -/
def getLastDbUnits (blockIndex count : ℕ) (useGenesis : Bool) : List CachedBlockInfo :=
  let readFrom := blockIndex + 1 - min (blockIndex + 1) count
  let readFrom := if readFrom = 0 ∧ !useGenesis then readFrom + 1 else readFrom
  (cache.blockInfos.drop readFrom).take (blockIndex + 1 - readFrom)

/-- `getLastUnits(count, blockIndex, useGenesis, pred)`: the cached units, after the units the table
gives for the blocks before them unless the cached ones are all there are. -/
def getLastUnits (pred : CachedBlockInfo → UInt64) (count blockIndex : ℕ) (useGenesis : Bool) :
    List UInt64 :=
  let cachedUnits := cache.getLastCachedUnits blockIndex count useGenesis
  let availableUnits := if useGenesis then blockIndex + 1 else blockIndex
  if availableUnits - cachedUnits.length = 0 then cachedUnits.map pred
  else
    let dbIndex := blockIndex - cachedUnits.length
    let leftCount := count - cachedUnits.length
    (cache.getLastDbUnits dbIndex leftCount useGenesis).map pred ++ cachedUnits.map pred

/-- The day loop of `getTimestampLowerBoundBlockIndex` from midnight `days * ONE_DAY_SECONDS` down:
the block index of the first midnight the table holds, and 0 at midnight 0, which it never reads. -/
def closestBlockIndexBefore : ℕ → ℕ
  | 0 => 0
  | days + 1 =>
    match cache.closestTimestampBlockIndex.lookup (UInt64.ofNat (days + 1) * ONE_DAY_SECONDS) with
    | some blockIndex => blockIndex
    | none => closestBlockIndexBefore days

/-- `getTimestampLowerBoundBlockIndex(timestamp)`: the closest-timestamp entry of the timestamp's
midnight or of the latest midnight before it that has one. -/
def getTimestampLowerBoundBlockIndex (timestamp : UInt64) : Option ℕ :=
  (roundToMidnight timestamp).map fun midnight => cache.closestBlockIndexBefore (midnight / ONE_DAY_SECONDS).toNat

/-- The database reads the day loop makes from midnight `days * ONE_DAY_SECONDS` down: one
`requestClosestBlockIndexByTimestamp` per midnight until one the table holds, none at midnight 0. -/
def closestBlockIndexReads : ℕ → ℕ
  | 0 => 0
  | days + 1 =>
    match cache.closestTimestampBlockIndex.lookup (UInt64.ofNat (days + 1) * ONE_DAY_SECONDS) with
    | some _ => 1
    | none => closestBlockIndexReads days + 1

/-- The database reads of `getTimestampLowerBoundBlockIndex(timestamp)`: none when
`roundToMidnight` throws. -/
def getTimestampLowerBoundBlockIndexReads (timestamp : UInt64) : ℕ :=
  match roundToMidnight timestamp with
  | some midnight => cache.closestBlockIndexReads (midnight / ONE_DAY_SECONDS).toNat
  | none => 0

/-- `getBlockHashes(startIndex, maxCount)`: the hashes of at most `maxCount` blocks from
`startIndex` to the top. -/
def getBlockHashes (startIndex maxCount : ℕ) : List Hash :=
  let count := min (cache.getTopBlockIndex - startIndex + 1) maxCount
  ((cache.blockInfos.drop startIndex).take count).map (·.blockHash)

/-- The transaction record that `extractKeyOutputs` rebuilds from a key output: its outputs are
resized to hold the key at its output index. -/
def keyOutputTransaction (output : KeyOutputInfo) : CachedTransactionInfo :=
  { blockIndex := 0, transactionIndex := 0, transactionHash := output.transactionHash,
    unlockTime := output.unlockTime,
    outputs := List.replicate output.outputIndex (.key ⟨zeroPublicKey⟩) ++ [.key ⟨output.publicKey⟩],
    globalIndexes := [] }

/-- `extractKeyOutputs(amount, blockIndex, globalIndexes, callback)`: the callback runs on each
requested global index that the table holds, in increasing order; an index it lacks is skipped.
The rebuilt `PackedOutIndex` carries only the output index. -/
def extractKeyOutputs {α : Type} (callback : CachedTransactionInfo → PackedOutIndex → ℕ →
    Except ExtractOutputKeysResult α) (amount : UInt64) (_blockIndex : ℕ) (globalIndexes : List ℕ) :
    Except ExtractOutputKeysResult (List α) :=
  let outputs := cache.keyOutputs amount
  ((List.range outputs.length).filter (· ∈ globalIndexes)).mapM fun globalIndex =>
    match outputs[globalIndex]? with
    | some (_, output) => callback (keyOutputTransaction output) ⟨0, 0, output.outputIndex⟩ globalIndex
    | none => .error .INVALID_GLOBAL_INDEX

/-- `getExtendedPushedBlockInfo(blockIndex)`: the block's raw data, size, spent key images and the
differences of its counters to the previous block, with its timestamp. -/
def getExtendedPushedBlockInfo (blockIndex : ℕ) : Option (PushedBlockInfo × UInt64) := do
  let blockInfo ← cache.getCachedBlockInfo blockIndex
  let previousBlockInfo ←
    if blockIndex > 0 then cache.getCachedBlockInfo (blockIndex - 1)
    else some ⟨⟨Vector.replicate 32 0⟩, 0, 0, 0, 0, 0⟩
  let rawBlock ← cache.getBlockByIndex blockIndex
  let spentKeyImages ← cache.spentKeyImagesByBlock blockIndex
  pure ({ rawBlock := rawBlock, validatorState := ⟨spentKeyImages⟩,
          blockSize := blockInfo.blockSize.toNat,
          generatedCoins := blockInfo.alreadyGeneratedCoins - previousBlockInfo.alreadyGeneratedCoins,
          blockDifficulty := blockInfo.cumulativeDifficulty - previousBlockInfo.cumulativeDifficulty },
        blockInfo.timestamp)

/-- The output loop of `pushTransaction`: each key output takes the next global index of its
amount, and its location and key are written at that index. -/
def pushKeyOutputs (transactionHash : Hash) (unlockTime : UInt64) (blockIndex transactionIndex : ℕ) :
    ℕ → List TransactionOutput → (UInt64 → List (PackedOutIndex × KeyOutputInfo)) →
      (UInt64 → List (PackedOutIndex × KeyOutputInfo)) × List ℕ
  | _, [], keyOutputs => (keyOutputs, [])
  | outputIndex, output :: outputs, keyOutputs =>
    match output.target with
    | .key key =>
      let globalIndex := (keyOutputs output.amount).length
      let entry : PackedOutIndex × KeyOutputInfo :=
        (⟨blockIndex, transactionIndex, outputIndex⟩, ⟨key.key, transactionHash, unlockTime, outputIndex⟩)
      let keyOutputs := fun amount =>
        if amount = output.amount then keyOutputs amount ++ [entry] else keyOutputs amount
      let (keyOutputs, globalIndexes) :=
        pushKeyOutputs transactionHash unlockTime blockIndex transactionIndex (outputIndex + 1) outputs keyOutputs
      (keyOutputs, globalIndex :: globalIndexes)

/-- `pushTransaction`: writes the transaction's outputs and its record, which replaces any record
of the same hash. -/
def pushTransaction (primitives : Primitives) (blockIndex transactionBlockIndex : ℕ)
    (transaction : Transaction) : DatabaseBlockchainCache :=
  let transactionHash := primitives.getTransactionHash transaction
  let (keyOutputs, globalIndexes) := pushKeyOutputs transactionHash transaction.unlockTime blockIndex
    transactionBlockIndex 0 transaction.outputs cache.keyOutputs
  let info : ExtendedTransactionInfo :=
    { blockIndex := blockIndex, transactionIndex := transactionBlockIndex,
      transactionHash := transactionHash, unlockTime := transaction.unlockTime,
      outputs := transaction.outputs.map (·.target), globalIndexes := globalIndexes,
      amountToKeyIndexes := (transaction.outputs.map (·.amount)).zip (globalIndexes.map fun index => [index]) }
  { cache with keyOutputs := keyOutputs,
               transactions := cache.transactions.filter (·.transactionHash != transactionHash) ++ [info] }

/-- The transaction loop of `pushBlock`, from position `transactionIndex` of the block. -/
def pushTransactions (primitives : Primitives) (blockIndex : ℕ) :
    ℕ → List Transaction → DatabaseBlockchainCache → DatabaseBlockchainCache
  | _, [], cache => cache
  | transactionIndex, transaction :: transactions, cache =>
    pushTransactions primitives blockIndex (transactionIndex + 1) transactions
      (cache.pushTransaction primitives blockIndex transactionIndex transaction)

/-- `pushBlock`: the block goes on top; its counters add to those of the top block, and every key
image it spends is recorded with its index, over any earlier record. -/
def pushBlock (primitives : Primitives) (cachedBlock : CachedBlock)
    (cachedTransactions : List CachedTransaction) (validatorState : TransactionValidatorState)
    (blockSize : ℕ) (generatedCoins blockDifficulty : UInt64) (rawBlock : RawBlock) :
    DatabaseBlockchainCache :=
  let blockIndex := cache.getTopBlockIndex + 1
  let lastBlockInfo := (cache.getCachedBlockInfo cache.getTopBlockIndex).getD ⟨⟨Vector.replicate 32 0⟩, 0, 0, 0, 0, 0⟩
  let blockInfo : CachedBlockInfo :=
    { blockHash := primitives.getBlockHash cachedBlock.block, timestamp := cachedBlock.block.timestamp,
      cumulativeDifficulty := lastBlockInfo.cumulativeDifficulty + blockDifficulty,
      alreadyGeneratedCoins := lastBlockInfo.alreadyGeneratedCoins + generatedCoins,
      alreadyGeneratedTransactions :=
        lastBlockInfo.alreadyGeneratedTransactions + UInt64.ofNat (cachedTransactions.length + 1),
      blockSize := UInt32.ofNat blockSize }
  let baseTransaction := cachedBlock.block.baseTransaction
  let cache : DatabaseBlockchainCache :=
    { cache with
      spentKeyImagesByBlock := fun index =>
        if index = blockIndex then some validatorState.spentKeyImages else cache.spentKeyImagesByBlock index,
      blockIndexesBySpentKeyImages := fun keyImage =>
        if keyImage ∈ validatorState.spentKeyImages then some blockIndex
        else cache.blockIndexesBySpentKeyImages keyImage,
      blockInfos := cache.blockInfos ++ [blockInfo],
      transactionHashesByBlocks := cache.transactionHashesByBlocks ++
        [primitives.getTransactionHash baseTransaction :: cachedBlock.block.transactionHashes],
      rawBlocks := cache.rawBlocks ++ [rawBlock],
      -- `roundToMidnight` throws only past `time_t`, which `addBlock` rejects as too far in the future
      closestTimestampBlockIndex :=
        let midnight := cachedBlock.block.timestamp / ONE_DAY_SECONDS * ONE_DAY_SECONDS
        if (cache.closestTimestampBlockIndex.lookup midnight).isSome then cache.closestTimestampBlockIndex
        else cache.closestTimestampBlockIndex ++ [(midnight, blockIndex)],
      unitsCache :=
        if (cache.unitsCache ++ [blockInfo]).length > unitsCacheSize then (cache.unitsCache ++ [blockInfo]).drop 1
        else cache.unitsCache ++ [blockInfo] }
  pushTransactions primitives blockIndex 0 (baseTransaction :: cachedTransactions.map (·.transaction)) cache

/-- `getMinGlobalIndexesByAmount` merged over the deleted transactions: the smallest global index
each amount lost. -/
def splitBoundary (deleted : List ExtendedTransactionInfo) (amount : UInt64) : Option ℕ :=
  ((deleted.flatMap (·.amountToKeyIndexes)).filter (·.1 == amount)).flatMap (·.2) |>.min?

/-- The loop of `deleteClosestTimestampBlockIndex`: the entries of consecutive midnights go while
the table holds them. Each round takes one entry, so the table's length is enough rounds. -/
def deleteClosestTimestamps : ℕ → UInt64 → List (UInt64 × ℕ) → List (UInt64 × ℕ)
  | 0, _, table => table
  | fuel + 1, midnight, table =>
    if (table.lookup midnight).isSome then
      deleteClosestTimestamps fuel (midnight + ONE_DAY_SECONDS) (table.filter (·.1 ≠ midnight))
    else table

/-- `deleteClosestTimestampBlockIndex(splitBlockIndex)`: from the split block's midnight when the
split block is the one its entry names, from the next midnight otherwise. The source asserts that
the entry is there. -/
def deleteClosestTimestampBlockIndex (splitBlockIndex : ℕ) : List (UInt64 × ℕ) :=
  let table := cache.closestTimestampBlockIndex
  match cache.getCachedBlockInfo splitBlockIndex with
  | none => table
  | some blockInfo =>
    let midnight := blockInfo.timestamp / ONE_DAY_SECONDS * ONE_DAY_SECONDS
    let midnight := if table.lookup midnight = some splitBlockIndex then midnight else midnight + ONE_DAY_SECONDS
    deleteClosestTimestamps table.length midnight table

/-- The deletions of `split` from `splitBlockIndex` on: the moved blocks with their key images
(the by-image entries included), their transactions, the key outputs of each amount from the
smallest global index the moved transactions created, the closest-timestamp entries from the split
block's day, and the moved blocks' units from the cache. -/
def removeBlocksFrom (splitBlockIndex : ℕ) : DatabaseBlockchainCache :=
  let movedImages := ((List.range' splitBlockIndex (cache.getTopBlockIndex + 1 - splitBlockIndex)).map
    fun blockIndex => (cache.spentKeyImagesByBlock blockIndex).getD []).flatten
  let deletingTransactionHashes := (cache.transactionHashesByBlocks.drop splitBlockIndex).flatten
  let deleted := cache.transactions.filter (·.transactionHash ∈ deletingTransactionHashes)
  { cache with
    blockInfos := cache.blockInfos.take splitBlockIndex,
    rawBlocks := cache.rawBlocks.take splitBlockIndex,
    transactionHashesByBlocks := cache.transactionHashesByBlocks.take splitBlockIndex,
    spentKeyImagesByBlock := fun index =>
      if index < splitBlockIndex then cache.spentKeyImagesByBlock index else none,
    blockIndexesBySpentKeyImages := fun keyImage =>
      if keyImage ∈ movedImages then none else cache.blockIndexesBySpentKeyImages keyImage,
    transactions := cache.transactions.filter (·.transactionHash ∉ deletingTransactionHashes),
    keyOutputs := fun amount =>
      match splitBoundary deleted amount with
      | some boundary => (cache.keyOutputs amount).take boundary
      | none => cache.keyOutputs amount,
    closestTimestampBlockIndex := cache.deleteClosestTimestampBlockIndex splitBlockIndex,
    unitsCache := cutTail cache.unitsCache (cache.getTopBlockIndex + 1 - splitBlockIndex) }

end DatabaseBlockchainCache

end Nox.CryptoNote
