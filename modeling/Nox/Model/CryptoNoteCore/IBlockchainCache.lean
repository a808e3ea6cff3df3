import Nox.Model.CryptoNoteCore.CryptoNoteSerialization

/-! # Blockchain segments: the data of `IBlockchainCache.h`, `BlockchainCache.h` and
`DatabaseCacheData.h`

The core keeps its blocks in a tree of segments. Every segment holds a run of consecutive blocks
and points to the segment it continues; its queries fall through to that parent for the blocks it
does not hold. A `Segment` is one `IBlockchainCache` object: an in-memory `BlockchainCache`, or the
RocksDB-backed `DatabaseBlockchainCache` that is the root of the daemon's tree. Segments refer to
each other by `SegmentPointer`, the identity of the C++ object.

Block and output indexes are `uint32_t` and transaction positions `uint16_t` in the source; they are
counters here. Amounts, difficulties and coin counts keep their `uint64_t` arithmetic. A `std::map`
keyed by amount or key image is a function to `Option`. Hashes and signature checks come from
cryptographic code this model does not compute: they are the fields of `Primitives`.
-/

namespace Nox.CryptoNote

open Nox.Crypto

/-- The cryptographic functions the core calls. -/
structure Primitives where
  /-- `CachedBlock::getBlockHash`: the hash of the block hashing blob. -/
  getBlockHash : BlockTemplate → Hash
  /-- `CachedTransaction::getTransactionHash`: `cn_fast_hash` of the transaction's binary array. -/
  getTransactionHash : Transaction → Hash
  /-- `CachedTransaction::getTransactionPrefixHash`. -/
  getTransactionPrefixHash : TransactionPrefix → Hash
  /-- `Crypto::check_key`. -/
  checkKey : PublicKey → Bool
  /-- `scalarmultKey(keyImage, L) == I`: the key image lies in the prime-order subgroup. -/
  keyImageInDomain : KeyImage → Bool
  /-- `Crypto::check_ring_signature(prefixHash, keyImage, keys, signatures, checkKeyImage)`. -/
  checkRingSignature : Hash → KeyImage → List PublicKey → List Signature → Bool → Bool

/-- The identity of a segment object. -/
abbrev SegmentPointer := ℕ

/-- `CachedBlock`: a block template, with its index read from its coinbase input. -/
structure CachedBlock where
  block : BlockTemplate
deriving DecidableEq, Repr

/-- `CachedBlock::getBlockIndex`: the block index of the single `BaseInput` of the coinbase, and
0 for any other coinbase input list. -/
def CachedBlock.getBlockIndex (cachedBlock : CachedBlock) : ℕ :=
  match cachedBlock.block.baseTransaction.inputs with
  | [.base input] => input.blockIndex.toNat
  | _ => 0

/-- `CachedTransaction` built from a binary array, which it keeps. -/
structure CachedTransaction where
  transaction : Transaction
  transactionBinaryArray : List UInt8
deriving DecidableEq, Repr

/-- The `CachedTransaction(const BinaryArray&)` constructor, which throws when the array does not
deserialize. -/
def CachedTransaction.ofBinaryArray (transactionBinaryArray : List UInt8) :
    Except String CachedTransaction := do
  let transaction ← fromBinaryArray inputTransaction transactionBinaryArray
  pure ⟨transaction, transactionBinaryArray⟩

structure SpentKeyImage where
  blockIndex : ℕ
  keyImage : KeyImage
deriving DecidableEq, Repr

/-- `PackedOutIndex`: where an output sits in the chain. -/
structure PackedOutIndex where
  blockIndex : ℕ
  transactionIndex : ℕ
  outputIndex : ℕ
deriving DecidableEq, Repr

structure CachedTransactionInfo where
  blockIndex : ℕ
  transactionIndex : ℕ
  transactionHash : Hash
  unlockTime : UInt64
  outputs : List TransactionOutputTarget
  globalIndexes : List ℕ
deriving DecidableEq, Repr

structure CachedBlockInfo where
  blockHash : Hash
  timestamp : UInt64
  cumulativeDifficulty : UInt64
  alreadyGeneratedCoins : UInt64
  alreadyGeneratedTransactions : UInt64
  blockSize : UInt32
deriving DecidableEq, Repr

/-- The key outputs of one amount held by a segment: the global index of `outputs[i]` is
`startIndex + i`. -/
structure OutputGlobalIndexesForAmount where
  startIndex : ℕ
  outputs : List PackedOutIndex
deriving DecidableEq, Repr

structure PaymentIdTransactionHashPair where
  paymentId : Hash
  transactionHash : Hash
deriving DecidableEq, Repr

/-- `TransactionValidatorState`: the key images spent by the transactions validated so far. -/
structure TransactionValidatorState where
  spentKeyImages : List KeyImage
deriving DecidableEq, Repr

structure PushedBlockInfo where
  rawBlock : RawBlock
  validatorState : TransactionValidatorState
  blockSize : ℕ
  generatedCoins : UInt64
  blockDifficulty : UInt64
deriving DecidableEq, Repr

inductive ExtractOutputKeysResult where
  | SUCCESS
  | INVALID_GLOBAL_INDEX
  | OUTPUT_LOCKED
deriving DecidableEq, Repr

/-- `KeyOutputInfo` of the database: what it stores for one key output. -/
structure KeyOutputInfo where
  publicKey : PublicKey
  transactionHash : Hash
  unlockTime : UInt64
  outputIndex : ℕ
deriving DecidableEq, Repr

/-- `ExtendedTransactionInfo`: a transaction's record in the database, with the global indexes of
its key outputs by amount. -/
structure ExtendedTransactionInfo extends CachedTransactionInfo where
  amountToKeyIndexes : List (UInt64 × List ℕ)
deriving DecidableEq, Repr

/-- The state of a `BlockchainCache` segment. Its blocks are `blockInfos` and `storage`, from
index `startIndex` on. A key image is recorded once, with the first block that spent it here. -/
structure BlockchainCache where
  startIndex : ℕ
  parent : Option SegmentPointer
  children : List SegmentPointer
  spentKeyImages : List SpentKeyImage
  transactions : List CachedTransactionInfo
  blockInfos : List CachedBlockInfo
  keyOutputsGlobalIndexes : UInt64 → Option OutputGlobalIndexesForAmount
  paymentIds : List PaymentIdTransactionHashPair
  storage : List RawBlock

/-- A `BlockchainCache` with no blocks yet, continuing `parent` from `startIndex`. -/
def BlockchainCache.empty (parent : Option SegmentPointer) (startIndex : ℕ) : BlockchainCache :=
  { startIndex := startIndex, parent := parent, children := [], spentKeyImages := [],
    transactions := [], blockInfos := [], keyOutputsGlobalIndexes := fun _ => none,
    paymentIds := [], storage := [] }

/-- The tables of a `DatabaseBlockchainCache` that the modelled functions read, with the block at
index `i` at position `i`, and its children. The spent key images of a block are keyed by its
index (the genesis block has no entry); the key image table maps an image to the block index
last written for it; the key outputs of an amount are listed by global index. The closest-timestamp
table maps a midnight to a block index, and `unitsCache` holds copies of block infos in front of
the block info table. -/
structure DatabaseBlockchainCache where
  blockInfos : List CachedBlockInfo
  rawBlocks : List RawBlock
  transactionHashesByBlocks : List (List Hash)
  spentKeyImagesByBlock : ℕ → Option (List KeyImage)
  blockIndexesBySpentKeyImages : KeyImage → Option ℕ
  transactions : List ExtendedTransactionInfo
  keyOutputs : UInt64 → List (PackedOutIndex × KeyOutputInfo)
  closestTimestampBlockIndex : List (UInt64 × ℕ)
  unitsCache : List CachedBlockInfo
  children : List SegmentPointer

/-- An `IBlockchainCache` object, by implementation. -/
inductive Segment where
  | memory (cache : BlockchainCache)
  | database (cache : DatabaseBlockchainCache)

namespace Segment

/-- `getParent`: a database segment has none. -/
def getParent : Segment → Option SegmentPointer
  | .memory cache => cache.parent
  | .database _ => none

def children : Segment → List SegmentPointer
  | .memory cache => cache.children
  | .database cache => cache.children

/-- `getChildCount`. -/
def getChildCount (segment : Segment) : ℕ := segment.children.length

/-- `getStartBlockIndex`: a database segment starts at the genesis block. -/
def getStartBlockIndex : Segment → ℕ
  | .memory cache => cache.startIndex
  | .database _ => 0

/-- `getBlockCount`. -/
def getBlockCount : Segment → ℕ
  | .memory cache => cache.blockInfos.length
  | .database cache => cache.blockInfos.length

/-- `getTopBlockIndex`: the index of the last block held. -/
def getTopBlockIndex (segment : Segment) : ℕ := segment.getStartBlockIndex + segment.getBlockCount - 1

/-- `setParent`, which asserts on a database segment. -/
def setParent (parent : SegmentPointer) : Segment → Segment
  | .memory cache => .memory { cache with parent := some parent }
  | .database cache => .database cache

/-- `addChild`: the in-memory version asserts the child is new, the database version skips a
child it has. -/
def addChild (child : SegmentPointer) : Segment → Segment
  | .memory cache => .memory { cache with children := cache.children ++ [child] }
  | .database cache =>
    .database (if child ∈ cache.children then cache else { cache with children := cache.children ++ [child] })

/-- `deleteChild`. -/
def deleteChild (child : SegmentPointer) : Segment → Segment
  | .memory cache => .memory { cache with children := cache.children.erase child }
  | .database cache => .database { cache with children := cache.children.filter (· ≠ child) }

end Segment

end Nox.CryptoNote
