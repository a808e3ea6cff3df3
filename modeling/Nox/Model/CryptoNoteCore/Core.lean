import Nox.Model.CryptoNoteCore.BlockchainCache

/-! # The chain tree of `CryptoNoteCore/Core.cpp`

`Core` owns its segments in `chainsStorage`, each under the pointer that identifies it. The leaves
of the tree are `chainsLeaves`, the first one the main chain's; `mainChainSet` holds the segments
from that leaf down to the root, and `mainChainStorage` the raw blocks of the main chain. A
segment's chain is found by following parent pointers, at most once per segment.

`addBlock` checks a block against the chain that ends at its previous block and then takes one of
four structural cases: a push onto the main leaf, a push onto another leaf that may make it the
main one, a new leaf on a segment whose top is the previous block, or a split of the segment after
the previous block and a new leaf on its lower part. Blocks in the checkpoint zone are checked
against the checkpoint hashes instead of for proof of work, and their transactions are not checked
against the chain.

The transaction pool, the observers and the block median size that `addBlock` also updates are
not part of the chain and are left out. An exception that escapes a call is the outcome `thrown`,
with the state as it was.
-/

namespace Nox.CryptoNote

open Nox.Crypto

inductive AddBlockErrorCode where
  | ADDED_TO_MAIN
  | ADDED_TO_ALTERNATIVE
  | ADDED_TO_ALTERNATIVE_AND_SWITCHED
  | ALREADY_EXISTS
  | REJECTED_AS_ORPHANED
  | DESERIALIZATION_FAILED
deriving DecidableEq, Repr

inductive BlockValidationError where
  | WRONG_VERSION
  | PARENT_BLOCK_SIZE_TOO_BIG
  | PARENT_BLOCK_WRONG_VERSION
  | TIMESTAMP_TOO_FAR_IN_FUTURE
  | TIMESTAMP_TOO_FAR_IN_PAST
  | CUMULATIVE_BLOCK_SIZE_TOO_BIG
  | DIFFICULTY_OVERHEAD
  | BLOCK_REWARD_MISMATCH
  | CHECKPOINT_BLOCK_HASH_MISMATCH
  | PROOF_OF_WORK_TOO_WEAK
deriving DecidableEq, Repr

inductive TransactionValidationError where
  | EMPTY_INPUTS
  | INPUT_UNKNOWN_TYPE
  | INPUT_EMPTY_OUTPUT_USAGE
  | INPUT_INVALID_DOMAIN_KEYIMAGES
  | INPUT_IDENTICAL_KEYIMAGES
  | INPUT_IDENTICAL_OUTPUT_INDEXES
  | INPUT_KEYIMAGE_ALREADY_SPENT
  | INPUT_INVALID_GLOBAL_INDEX
  | INPUT_SPEND_LOCKED_OUT
  | INPUT_INVALID_SIGNATURES
  | INPUTS_AMOUNT_OVERFLOW
  | INPUT_WRONG_COUNT
  | INPUT_UNEXPECTED_TYPE
  | BASE_INPUT_WRONG_BLOCK_INDEX
  | OUTPUT_ZERO_AMOUNT
  | OUTPUT_INVALID_KEY
  | OUTPUT_UNKNOWN_TYPE
  | OUTPUTS_AMOUNT_OVERFLOW
  | WRONG_AMOUNT
  | WRONG_TRANSACTION_UNLOCK_TIME
  | INVALID_MIXIN
deriving DecidableEq, Repr

/-- The `std::error_code` that `addBlock` returns, by category, or an exception it lets escape. -/
inductive ErrorCode where
  | addBlock (code : AddBlockErrorCode)
  | blockValidation (code : BlockValidationError)
  | transactionValidation (code : TransactionValidationError)
  | thrown (message : String)
deriving DecidableEq, Repr

/-- The fixed parts of a `Core`: its currency and checkpoints, the cryptography, the mixin rules,
the proof-of-work check and the clock. -/
structure CoreContext where
  currency : Currency
  checkpoints : Checkpoints
  primitives : Primitives
  /-- `Mixins::validate(transactions, height)`: whether every transaction's mixin is allowed. -/
  validateMixins : List CachedTransaction → ℕ → Bool
  /-- `Currency::checkProofOfWork(cachedBlock, difficulty)`. -/
  checkProofOfWork : CachedBlock → UInt64 → Bool
  /-- `time(nullptr)`, read by `getAdjustedTime` and the unlock check. -/
  now : UInt64

structure Core where
  chainsStorage : List (SegmentPointer × Segment)
  chainsLeaves : List SegmentPointer
  mainChainSet : List SegmentPointer
  mainChainStorage : List RawBlock

/-- The outputs loop of `validateSemantic` and of `validateBlock`'s coinbase check: nonzero
amounts, valid keys and a sum that does not overflow. -/
def validateOutputs (primitives : Primitives) :
    List TransactionOutput → UInt64 → Except TransactionValidationError UInt64
  | [], summaryOutputAmount => .ok summaryOutputAmount
  | output :: outputs, summaryOutputAmount =>
    if output.amount = 0 then .error .OUTPUT_ZERO_AMOUNT
    else match output.target with
      | .key key =>
        if !primitives.checkKey key.key then .error .OUTPUT_INVALID_KEY
        else if UINT64_MAX - output.amount < summaryOutputAmount then .error .OUTPUTS_AMOUNT_OVERFLOW
        else validateOutputs primitives outputs (summaryOutputAmount + output.amount)

/-- The inputs loop of `validateSemantic`: key inputs only, each with a new key image, a ring, a key
image in the prime-order subgroup and no repeated ring member, and a sum that does not
overflow. -/
def validateInputs (primitives : Primitives) (blockIndex : ℕ) :
    List TransactionInput → List KeyImage → UInt64 → Except TransactionValidationError UInt64
  | [], _, summaryInputAmount => .ok summaryInputAmount
  | .base _ :: _, _, _ => .error .INPUT_UNKNOWN_TYPE
  | .key input :: inputs, keyImages, summaryInputAmount =>
    if input.keyImage ∈ keyImages then .error .INPUT_IDENTICAL_KEYIMAGES
    else if input.outputIndexes.isEmpty then .error .INPUT_EMPTY_OUTPUT_USAGE
    else if !primitives.keyImageInDomain input.keyImage && blockIndex > KEY_IMAGE_CHECKING_BLOCK_INDEX then
      .error .INPUT_INVALID_DOMAIN_KEYIMAGES
    else if (input.outputIndexes.drop 1).contains 0 then .error .INPUT_IDENTICAL_OUTPUT_INDEXES
    else if UINT64_MAX - input.amount < summaryInputAmount then .error .INPUTS_AMOUNT_OVERFLOW
    else validateInputs primitives blockIndex inputs (keyImages ++ [input.keyImage])
      (summaryInputAmount + input.amount)

/-- `Core::validateSemantic`: the checks that need no chain, and the fee. -/
def validateSemantic (primitives : Primitives) (transaction : Transaction) (blockIndex : ℕ) :
    Except TransactionValidationError UInt64 := do
  if transaction.inputs.isEmpty then throw .EMPTY_INPUTS
  let summaryOutputAmount ← validateOutputs primitives transaction.outputs 0
  let summaryInputAmount ← validateInputs primitives blockIndex transaction.inputs [] 0
  if summaryOutputAmount > summaryInputAmount then throw .WRONG_AMOUNT
  pure (summaryInputAmount - summaryOutputAmount)

/-- The absolute global indexes of a ring: running sums of the relative offsets, in `uint32_t`. -/
def absoluteGlobalIndexes (outputIndexes : List UInt32) : List ℕ :=
  ((outputIndexes.scanl (· + ·) 0).drop 1).map (·.toNat)

namespace CoreContext

variable (context : CoreContext)

/-- The key input loop of `Core::validateTransaction`, from input `inputIndex` on: every key image
is new in the block; outside the checkpoint zone it must be unspent on the chain at `blockIndex`,
the ring must resolve to unlocked outputs, and the ring signature must verify. -/
def validateKeyInputs (cache : List Segment) (transaction : Transaction) (blockIndex : ℕ) :
    List TransactionInput → ℕ → TransactionValidatorState →
      Except TransactionValidationError TransactionValidatorState
  | [], _, state => .ok state
  | .base _ :: _, _, _ => .error .INPUT_UNKNOWN_TYPE
  | .key input :: inputs, inputIndex, state =>
    if input.keyImage ∈ state.spentKeyImages then .error .INPUT_KEYIMAGE_ALREADY_SPENT
    else
      let state : TransactionValidatorState := ⟨state.spentKeyImages ++ [input.keyImage]⟩
      if context.checkpoints.isInCheckpointZone (blockIndex + 1) then
        validateKeyInputs cache transaction blockIndex inputs (inputIndex + 1) state
      else if Segment.checkIfSpent cache input.keyImage blockIndex then .error .INPUT_KEYIMAGE_ALREADY_SPENT
      else
        match Segment.extractKeyOutputKeys context.currency context.now cache input.amount blockIndex
            (absoluteGlobalIndexes input.outputIndexes) with
        | .error .INVALID_GLOBAL_INDEX => .error .INPUT_INVALID_GLOBAL_INDEX
        | .error .OUTPUT_LOCKED => .error .INPUT_SPEND_LOCKED_OUT
        | result =>
          if !context.primitives.checkRingSignature
              (context.primitives.getTransactionPrefixHash transaction.toTransactionPrefix) input.keyImage
              (result.toOption.getD []) (transaction.signatures.getD inputIndex [])
              (decide (blockIndex > KEY_IMAGE_CHECKING_BLOCK_INDEX)) then
            .error .INPUT_INVALID_SIGNATURES
          else validateKeyInputs cache transaction blockIndex inputs (inputIndex + 1) state

/-- `Core::validateTransaction(transaction, state, cache, fee, blockIndex)`: the fee and the state
with the transaction's key images added. -/
def validateTransaction (cache : List Segment) (transaction : CachedTransaction)
    (state : TransactionValidatorState) (blockIndex : ℕ) :
    Except TransactionValidationError (UInt64 × TransactionValidatorState) := do
  let fee ← validateSemantic context.primitives transaction.transaction blockIndex
  let state ← context.validateKeyInputs cache transaction.transaction blockIndex
    transaction.transaction.inputs 0 state
  pure (fee, state)

/-- The transaction loop of `addBlock`: each transaction is validated against the chain at
`previousBlockIndex` with the key images of those before it; the fees add up in `uint64_t`. -/
def validateTransactions (cache : List Segment) (previousBlockIndex : ℕ) :
    List CachedTransaction → TransactionValidatorState → UInt64 →
      Except TransactionValidationError (TransactionValidatorState × UInt64)
  | [], state, cumulativeFee => .ok (state, cumulativeFee)
  | transaction :: transactions, state, cumulativeFee => do
    let (fee, state) ← context.validateTransaction cache transaction state previousBlockIndex
    validateTransactions cache previousBlockIndex transactions state (cumulativeFee + fee)

/-- `Core::extractTransactions`: every raw transaction must be at most the maximal size and
deserialize; the sizes add up. -/
def extractTransactions : List (List UInt8) → Option (List CachedTransaction × ℕ)
  | [] => some ([], 0)
  | rawTransaction :: rawTransactions =>
    if rawTransaction.length > context.currency.maxTxSize then none
    else match CachedTransaction.ofBinaryArray rawTransaction, extractTransactions rawTransactions with
      | .ok transaction, some (transactions, cumulativeSize) =>
        some (transaction :: transactions, rawTransaction.length + cumulativeSize)
      | _, _ => none

/-- `Core::validateBlock`: the block's version, its parent block, its timestamp against the clock and
the median of the recent timestamps, and its coinbase: one `BaseInput` for the next index, the
mined-money unlock time and valid outputs, whose sum is the miner reward. -/
def validateBlock (cache : List Segment) (cachedBlock : CachedBlock) : Except ErrorCode UInt64 := do
  let block := cachedBlock.block
  let previousBlockIndex := ((cache.head?.bind (·.getBlockIndex block.previousBlockHash))).getD 0
  if context.currency.coreUpgradeManager.getBlockMajorVersion cachedBlock.getBlockIndex ≠ block.majorVersion then
    throw (.blockValidation .WRONG_VERSION)
  if block.majorVersion ≥ BLOCK_MAJOR_VERSION_2 then
    if block.majorVersion = BLOCK_MAJOR_VERSION_2 ∧ block.parentBlock.majorVersion > BLOCK_MAJOR_VERSION_1 then
      throw (.blockValidation .PARENT_BLOCK_WRONG_VERSION)
    match outputParentBlock block.parentBlock block.timestamp block.nonce with
    | .error _ => throw (.thrown "Can't serialize parent block.")
    | .ok parentBlockBinaryArray =>
      if parentBlockBinaryArray.length > 2048 then throw (.blockValidation .PARENT_BLOCK_SIZE_TOO_BIG)
  if block.timestamp > context.now + context.currency.blockFutureTimeLimitAt (previousBlockIndex + 1) then
    throw (.blockValidation .TIMESTAMP_TOO_FAR_IN_FUTURE)
  let window := context.currency.timestampCheckWindowAt (previousBlockIndex + 1)
  let timestamps := Segment.getLastTimestamps cache window previousBlockIndex true
  if timestamps.length ≥ window ∧ block.timestamp < medianValue timestamps then
    throw (.blockValidation .TIMESTAMP_TOO_FAR_IN_PAST)
  match block.baseTransaction.inputs with
  | [.base input] =>
    if input.blockIndex.toNat ≠ previousBlockIndex + 1 then
      throw (.transactionValidation .BASE_INPUT_WRONG_BLOCK_INDEX)
  | [.key _] => throw (.transactionValidation .INPUT_UNEXPECTED_TYPE)
  | _ => throw (.transactionValidation .INPUT_WRONG_COUNT)
  if block.baseTransaction.unlockTime.toNat ≠ previousBlockIndex + 1 + context.currency.minedMoneyUnlockWindow then
    throw (.transactionValidation .WRONG_TRANSACTION_UNLOCK_TIME)
  match validateOutputs context.primitives block.baseTransaction.outputs 0 with
  | .error code => throw (.transactionValidation code)
  | .ok minerReward => pure minerReward

end CoreContext

/-- What the checks of `addBlock` established about an accepted block. -/
structure AcceptedBlock where
  cache : SegmentPointer
  previousBlockIndex : ℕ
  addOnTop : Bool
  transactions : List CachedTransaction
  validatorState : TransactionValidatorState
  cumulativeBlockSize : ℕ
  emissionChange : UInt64
  currentDifficulty : UInt64
deriving DecidableEq, Repr

/-- A node started on an empty database: `initRootSegment` on a root segment that holds the
genesis block, stored at address 0, and a main chain storage that holds the genesis raw block. -/
def Core.ofRoot (root : Segment) (genesisRawBlock : RawBlock) : Core :=
  { chainsStorage := [(0, root)], chainsLeaves := [0], mainChainSet := [0], mainChainStorage := [genesisRawBlock] }

namespace Core

variable (core : Core)

def getSegment (pointer : SegmentPointer) : Option Segment := core.chainsStorage.lookup pointer

/-- The segments from `pointer` down to the root, following parent pointers, with at most `fuel`
of them. -/
def chainFrom : ℕ → SegmentPointer → List (SegmentPointer × Segment)
  | 0, _ => []
  | fuel + 1, pointer =>
    match core.getSegment pointer with
    | none => []
    | some segment =>
      (pointer, segment) :: match segment.getParent with
        | none => []
        | some parent => chainFrom fuel parent

/-- The chain of a segment: the segment and its ancestors, at most one visit per stored segment. -/
def chain (pointer : SegmentPointer) : List (SegmentPointer × Segment) :=
  core.chainFrom core.chainsStorage.length pointer

/-- The segments of `chain`, as a segment's queries see them. -/
def segments (pointer : SegmentPointer) : List Segment := (core.chain pointer).map (·.2)

/-- `findIndexInChain(segment, blockHash)`: the first segment of the chain holding the block. -/
def findIndexInChain (pointer : SegmentPointer) (blockHash : Hash) : Option SegmentPointer :=
  ((core.chain pointer).find? (·.2.hasBlock blockHash)).map (·.1)

def findMainChainSegmentContainingBlock (blockHash : Hash) : Option SegmentPointer :=
  core.chainsLeaves.head?.bind (core.findIndexInChain · blockHash)

/-- `findAlternativeSegmentContainingBlock`: the chains of the other leaves, in order. -/
def findAlternativeSegmentContainingBlock (blockHash : Hash) : Option SegmentPointer :=
  (core.chainsLeaves.drop 1).findSome? (core.findIndexInChain · blockHash)

def findSegmentContainingBlock (blockHash : Hash) : Option SegmentPointer :=
  (core.findMainChainSegmentContainingBlock blockHash).orElse
    fun _ => core.findAlternativeSegmentContainingBlock blockHash

def hasBlock (blockHash : Hash) : Bool := (core.findSegmentContainingBlock blockHash).isSome

/-- `getTopBlockIndex`: the top of the main leaf. -/
def getTopBlockIndex : ℕ := ((core.chainsLeaves.head?.bind core.getSegment).map (·.getTopBlockIndex)).getD 0

/-- `updateMainChainSet`: the main leaf's chain. -/
def updateMainChainSet : Core :=
  { core with mainChainSet := (core.chainsLeaves.head?.map fun leaf => (core.chain leaf).map (·.1)).getD [] }

def updateSegment (pointer : SegmentPointer) (update : Segment → Segment) : Core :=
  { core with chainsStorage := core.chainsStorage.map fun entry =>
      if entry.1 = pointer then (entry.1, update entry.2) else entry }

/-- An address no stored segment has, for a newly created segment. -/
def freshPointer : SegmentPointer := (core.chainsStorage.map (·.1)).foldr max 0 + 1

/-- `IBlockchainCache::pushBlock` on a stored segment, whose parents are its chain below it. -/
def pushBlock (primitives : Primitives) (pointer : SegmentPointer) (cachedBlock : CachedBlock)
    (transactions : List CachedTransaction) (validatorState : TransactionValidatorState) (blockSize : ℕ)
    (generatedCoins blockDifficulty : UInt64) (rawBlock : RawBlock) : Core :=
  let parents := (core.segments pointer).drop 1
  core.updateSegment pointer fun
    | .memory cache => .memory (BlockchainCache.pushBlock primitives parents cachedBlock transactions
        validatorState blockSize generatedCoins blockDifficulty rawBlock cache)
    | .database cache => .database (cache.pushBlock primitives cachedBlock transactions validatorState
        blockSize generatedCoins blockDifficulty rawBlock)

/-- `split(splitBlockIndex)` of a stored segment: the lower part replaces it, and the upper part,
at a fresh address, is returned. `BlockchainCache::split` points its former children at the upper
part; the database root keeps them. -/
def split (primitives : Primitives) (pointer : SegmentPointer) (splitBlockIndex : ℕ) :
    Core × SegmentPointer × BlockchainCache :=
  let upper := core.freshPointer
  match core.getSegment pointer with
  | some (.memory cache) =>
    let (lower, upperCache) := cache.split pointer upper splitBlockIndex
    let core := core.updateSegment pointer fun _ => .memory lower
    (cache.children.foldl (fun core child => core.updateSegment child (Segment.setParent upper)) core,
     upper, upperCache)
  | some (.database cache) =>
    let (lower, upperCache) := cache.split primitives pointer upper splitBlockIndex
    (core.updateSegment pointer fun _ => .database lower, upper, upperCache)
  | none => (core, upper, BlockchainCache.empty (some pointer) splitBlockIndex)

/-- `createBlockchainCache(currency, cache, startIndex)` followed by `cache->addChild`,
`chainsStorage.emplace_back` and `chainsLeaves.push_back`: a new empty leaf on `cache`. -/
def addLeaf (cache : SegmentPointer) (startIndex : ℕ) : Core × SegmentPointer :=
  let leaf := core.freshPointer
  let core := core.updateSegment cache (Segment.addChild leaf)
  ({ core with chainsStorage := core.chainsStorage ++ [(leaf, .memory (BlockchainCache.empty (some cache) startIndex))],
               chainsLeaves := core.chainsLeaves ++ [leaf] }, leaf)

/-- `switchMainChainStorage(splitBlockIndex, newChain)`: pop the stored main chain back to
`splitBlockIndex`, then push the blocks of `newChain` from there to its top. -/
def switchMainChainStorage (splitBlockIndex : ℕ) (newChain : List Segment) : Core :=
  let top := (newChain.head?.map (·.getTopBlockIndex)).getD 0
  { core with mainChainStorage := core.mainChainStorage.take splitBlockIndex ++
      (List.range' splitBlockIndex (top + 1 - splitBlockIndex)).filterMap (Segment.getBlockByIndex newChain) }

/-- The structural part of `addBlock`, after every check passed. -/
def insertBlock (context : CoreContext) (cachedBlock : CachedBlock) (rawBlock : RawBlock)
    (accepted : AcceptedBlock) : Core × AddBlockErrorCode :=
  let push (core : Core) (pointer : SegmentPointer) : Core :=
    core.pushBlock context.primitives pointer cachedBlock accepted.transactions accepted.validatorState
      accepted.cumulativeBlockSize accepted.emissionChange accepted.currentDifficulty rawBlock
  let cache := accepted.cache
  let segment := (core.getSegment cache).getD (.memory (BlockchainCache.empty none 0))
  if accepted.addOnTop then
    if segment.getChildCount = 0 then
      if core.chainsLeaves.head? = some cache then
        (push { core with mainChainStorage := core.mainChainStorage ++ [rawBlock] } cache, .ADDED_TO_MAIN)
      else
        let core := push core cache
        let mainChainCache := core.chainsLeaves.head?.bind core.getSegment
        let cacheSegment := core.getSegment cache
        match mainChainCache, cacheSegment with
        | some mainSegment, some pushed =>
          if pushed.getCurrentCumulativeDifficulty > mainSegment.getCurrentCumulativeDifficulty then
            let endpointIndex := core.chainsLeaves.idxOf cache
            let main := core.chainsLeaves.head?.getD cache
            let core := { core with chainsLeaves := (core.chainsLeaves.set 0 cache).set endpointIndex main }
            let core := core.updateMainChainSet
            (core.switchMainChainStorage pushed.getStartBlockIndex (core.segments cache),
             .ADDED_TO_ALTERNATIVE_AND_SWITCHED)
          else (core, .ADDED_TO_ALTERNATIVE)
        | _, _ => (core, .ADDED_TO_ALTERNATIVE)
    else
      let (core, leaf) := core.addLeaf cache (accepted.previousBlockIndex + 1)
      ((push core leaf).updateMainChainSet, .ADDED_TO_ALTERNATIVE)
  else
    let (core, upper, upperCache) := core.split context.primitives cache (accepted.previousBlockIndex + 1)
    -- An upper part without children means the split segment was a leaf, and the upper part takes
    -- its place among the leaves. The source asserts that it is found there; where it is not, `set`
    -- past the end changes nothing.
    let core :=
      if upperCache.children.isEmpty then
        { core with chainsLeaves := core.chainsLeaves.set (core.chainsLeaves.idxOf cache) upper }
      else core
    let core := { core with chainsStorage := core.chainsStorage ++ [(upper, Segment.memory upperCache)] }
    let (core, leaf) := core.addLeaf cache (accepted.previousBlockIndex + 1)
    ((push core leaf).updateMainChainSet, .ADDED_TO_ALTERNATIVE)

/-- The checks of `addBlock`, in the source's order, up to the proof of work. -/
def checkBlock (context : CoreContext) (cachedBlock : CachedBlock) (rawBlock : RawBlock) :
    Except ErrorCode AcceptedBlock := do
  let blockIndex := cachedBlock.getBlockIndex
  let blockHash := context.primitives.getBlockHash cachedBlock.block
  if core.hasBlock blockHash then throw (.addBlock .ALREADY_EXISTS)
  let previousBlockHash := cachedBlock.block.previousBlockHash
  let some cache := core.findSegmentContainingBlock previousBlockHash
    | throw (.addBlock .REJECTED_AS_ORPHANED)
  let some (transactions, cumulativeSize) := context.extractTransactions rawBlock.transactions
    | throw (.addBlock .DESERIALIZATION_FAILED)
  let coinbaseTransactionSize := getObjectBinarySize outputTransaction cachedBlock.block.baseTransaction
  let cumulativeBlockSize := (coinbaseTransactionSize + cumulativeSize) % 2 ^ 64
  let segments := core.segments cache
  let segment := (core.getSegment cache).getD (.memory (BlockchainCache.empty none 0))
  let previousBlockIndex := (segment.getBlockIndex previousBlockHash).getD 0
  let addOnTop := segment.getTopBlockIndex == previousBlockIndex
  if cumulativeBlockSize > context.currency.maxBlockCumulativeSize (previousBlockIndex + 1) then
    throw (.blockValidation .CUMULATIVE_BLOCK_SIZE_TOO_BIG)
  let minerReward ← context.validateBlock segments cachedBlock
  let currentDifficulty := Segment.getDifficultyForNextBlock context.currency segments previousBlockIndex
  if currentDifficulty = 0 then throw (.blockValidation .DIFFICULTY_OVERHEAD)
  let mixinChangeWindow :=
    if blockIndex > CRYPTONOTE_MINED_MONEY_UNLOCK_WINDOW then blockIndex - CRYPTONOTE_MINED_MONEY_UNLOCK_WINDOW
    else blockIndex
  if !context.validateMixins transactions blockIndex && !context.validateMixins transactions mixinChangeWindow then
    throw (.transactionValidation .INVALID_MIXIN)
  let (validatorState, cumulativeFee) ←
    (context.validateTransactions segments previousBlockIndex transactions ⟨[]⟩ 0).mapError
      ErrorCode.transactionValidation
  let alreadyGeneratedCoins := (Segment.getAlreadyGeneratedCoins segments previousBlockIndex).getD 0
  let lastBlocksSizes :=
    Segment.getLastBlocksSizes segments context.currency.rewardBlocksWindow previousBlockIndex true
  let some (reward, emissionChange) := context.currency.getBlockReward cachedBlock.block.majorVersion
      (medianValue lastBlocksSizes).toNat cumulativeBlockSize alreadyGeneratedCoins cumulativeFee
    | throw (.blockValidation .CUMULATIVE_BLOCK_SIZE_TOO_BIG)
  if minerReward ≠ reward then throw (.blockValidation .BLOCK_REWARD_MISMATCH)
  if context.checkpoints.isInCheckpointZone blockIndex then
    if !context.checkpoints.checkBlock blockIndex blockHash then
      throw (.blockValidation .CHECKPOINT_BLOCK_HASH_MISMATCH)
  else if !context.checkProofOfWork cachedBlock currentDifficulty then
    throw (.blockValidation .PROOF_OF_WORK_TOO_WEAK)
  pure { cache := cache, previousBlockIndex := previousBlockIndex, addOnTop := addOnTop,
         transactions := transactions, validatorState := validatorState,
         cumulativeBlockSize := cumulativeBlockSize, emissionChange := emissionChange,
         currentDifficulty := currentDifficulty }

/-- `Core::addBlock(cachedBlock, rawBlock)`: the new state and the result code. A rejected block
leaves the state as it was. -/
def addBlock (context : CoreContext) (cachedBlock : CachedBlock) (rawBlock : RawBlock) : Core × ErrorCode :=
  match core.checkBlock context cachedBlock rawBlock with
  | .error code => (core, code)
  | .ok accepted =>
    let (core, code) := core.insertBlock context cachedBlock rawBlock accepted
    (core, .addBlock code)

/-- `addBlock(RawBlock&&)`: a block received as raw bytes is deserialized first. -/
def addRawBlock (context : CoreContext) (rawBlock : RawBlock) : Core × ErrorCode :=
  match fromBinaryArray (inputBlockTemplate unreadParentBlock) rawBlock.block with
  | .error _ => (core, .addBlock .DESERIALIZATION_FAILED)
  | .ok block => core.addBlock context ⟨block⟩ rawBlock

/-- Raw blocks received one after another, with the code of each. -/
def addRawBlocks (context : CoreContext) : Core → List RawBlock → Core × List ErrorCode
  | core, [] => (core, [])
  | core, rawBlock :: rawBlocks =>
    let (core, code) := core.addRawBlock context rawBlock
    let (core, codes) := addRawBlocks context core rawBlocks
    (core, code :: codes)

/-- `deleteLeaf(leafIndex)`: the leaf leaves its parent, the leaves and the storage; a parent left
without children becomes a leaf, and the main leaf is replaced by its parent. -/
def deleteLeaf (leafIndex : ℕ) : Core :=
  match core.chainsLeaves[leafIndex]? with
  | none => core
  | some leaf =>
    let parent := (core.getSegment leaf).bind (·.getParent)
    let core := match parent with
      | some parent => core.updateSegment parent (Segment.deleteChild leaf)
      | none => core
    let chainsLeaves :=
      if leafIndex ≠ 0 then
        let grown := match parent.bind core.getSegment, parent with
          | some parentSegment, some parent =>
            if parentSegment.getChildCount = 0 then core.chainsLeaves ++ [parent] else core.chainsLeaves
          | _, _ => core.chainsLeaves
        grown.eraseIdx leafIndex
      else match parent with
        | some parent => core.chainsLeaves.set 0 parent
        | none => core.chainsLeaves.eraseIdx 0
    { core with chainsLeaves := chainsLeaves,
                chainsStorage := core.chainsStorage.filter (·.1 ≠ leaf) }

/-- `deleteAlternativeChains`: delete the second leaf until one is left; each deletion removes a
leaf, so the storage length bounds the loop. -/
def deleteAlternativeChains : ℕ → Core → Core
  | 0, core => core
  | fuel + 1, core => if core.chainsLeaves.length > 1 then deleteAlternativeChains fuel (core.deleteLeaf 1) else core

/-- `mergeSegments(acceptingSegment, segment)`: every block of `segment` is pushed again onto
`acceptingSegment`, from what `getPushedBlockInfo` gives back. -/
def mergeSegments (primitives : Primitives) (acceptingSegment segment : SegmentPointer) :
    Except String Core := do
  let some (.memory cache) := core.getSegment segment | pure core
  let parents := (core.segments segment).drop 1
  (List.range' cache.startIndex cache.blockInfos.length).foldlM (fun core blockIndex => do
    let some info := BlockchainCache.getPushedBlockInfo parents cache blockIndex | pure core
    let block ← (fromBinaryArray (inputBlockTemplate unreadParentBlock) info.rawBlock.block).mapError
      fun _ => "Couldn't deserialize block"
    let transactions ← (restoreCachedTransactions info.rawBlock.transactions).mapError
      fun _ => "Couldn't deserialize transactions"
    pure (core.pushBlock primitives acceptingSegment ⟨block⟩ transactions info.validatorState info.blockSize
      info.generatedCoins info.blockDifficulty info.rawBlock)) core

/-- `mergeMainChainSegments`: the main chain is merged into its root from the bottom up, and the
root becomes the only segment and leaf. -/
def mergeMainChainSegments (primitives : Primitives) : Except String Core := do
  let some leaf := core.chainsLeaves.head? | pure core
  let chain := (core.chain leaf).map (·.1)
  let some rootSegment := chain.getLast? | pure core
  let merged ← (chain.reverse.drop 1).foldlM
    (fun core segment => core.mergeSegments primitives rootSegment segment) core
  pure { merged with chainsStorage := merged.chainsStorage.filter (·.1 = rootSegment),
                     chainsLeaves := [rootSegment] }

end Core

end Nox.CryptoNote
