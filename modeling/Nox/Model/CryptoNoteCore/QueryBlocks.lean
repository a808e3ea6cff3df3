import Nox.Model.CryptoNoteCore.BlockTemplate
import Nox.Library.LowerBound

/-! # Block queries for wallets: `Core::queryBlocks` and `Core::queryBlocksLite`

Both queries take the start index from the first listed hash on the main chain and list the main
chain from there: hashes alone up to the full offset, the first block at or after the given
timestamp (never before the start index), then blocks with their data. `queryBlocks` returns raw
blocks, `queryBlocksLite` blocks with their transaction prefixes; `queryBlocksLite` also reads a
zero timestamp as the start block's. Their fill steps count the blocks from the full offset
differently: up to `currentIndex - fullOffset` in the full variant and `currentIndex - fullOffset + 1`
in the lite one, in `uint32_t` arithmetic. An exception makes both return false, here `none`.
-/

namespace Nox.CryptoNote

open Nox.Crypto Nox.Serialization

def BLOCKS_IDS_SYNCHRONIZING_DEFAULT_COUNT : ℕ := 10000
def BLOCKS_SYNCHRONIZING_DEFAULT_COUNT : ℕ := 100

/-- `INVALID_BLOCK_INDEX`. -/
def INVALID_BLOCK_INDEX : ℕ := 2 ^ 32 - 1

/-- `BlockFullInfo`: a raw block and its hash; before the full offset the raw block is empty. -/
structure BlockFullInfo where
  block_id : Hash
  rawBlock : RawBlock
deriving DecidableEq, Repr

structure TransactionPrefixInfo where
  txHash : Hash
  txPrefix : TransactionPrefix
deriving DecidableEq, Repr

/-- `BlockShortInfo`: a block's hash, its serialized template and its transaction prefixes; before
the full offset only the hash. -/
structure BlockShortInfo where
  blockId : Hash
  block : List UInt8
  txPrefixes : List TransactionPrefixInfo
deriving DecidableEq, Repr

namespace Segment

/-- `getTimestampLowerBoundBlockIndex(timestamp)`. In memory a segment whose blocks all come before
the timestamp throws; one whose first block comes before it answers with the `lower_bound` of its
blocks by timestamp; otherwise its parent answers, and where the parent throws the segment's start
index does. A root without parent answers 0. A segment without blocks fails its assertion. -/
def getTimestampLowerBoundBlockIndex : List Segment → UInt64 → Option ℕ
  | [], _ => none
  | .memory cache :: parents, timestamp =>
    match cache.blockInfos.head?, cache.blockInfos.getLast? with
    | some front, some back =>
      if back.timestamp < timestamp then none
      else if front.timestamp < timestamp then
        some (cache.startIndex + cache.blockInfos.lowerBound fun info => info.timestamp < timestamp)
      else match parents with
        | [] => some 0
        | _ :: _ =>
          match getTimestampLowerBoundBlockIndex parents timestamp with
          | some blockIndex => some (if blockIndex ≠ INVALID_BLOCK_INDEX then blockIndex else cache.startIndex)
          | none => some cache.startIndex
    | _, _ => none
  | .database cache :: _, timestamp => cache.getTimestampLowerBoundBlockIndex timestamp

/-- `getBlockHashes(startBlockIndex, maxCount)`. In memory a start below the segment asks the parent
first and adds the segment's own hashes from its first block. -/
def getBlockHashes : List Segment → ℕ → ℕ → List Hash
  | [], _, _ => []
  | .memory cache :: parents, startBlockIndex, maxCount =>
    if startBlockIndex < cache.startIndex then
      let hashes := getBlockHashes parents startBlockIndex maxCount
      hashes ++ (cache.blockInfos.take (min (maxCount - hashes.length) cache.blockInfos.length)).map (·.blockHash)
    else
      let start := startBlockIndex - cache.startIndex
      ((cache.blockInfos.drop start).take (min (cache.blockInfos.length - start) maxCount)).map (·.blockHash)
  | .database cache :: _, startBlockIndex, maxCount => cache.getBlockHashes startBlockIndex maxCount

end Segment

namespace Core

variable (core : Core) (primitives : Primitives)

/-- `findBlockchainSupplement(remoteBlockIds)`: the main-chain index of the first listed hash on the
main chain. It throws when there is none. -/
def findBlockchainSupplement : List Hash → Option ℕ
  | [] => none
  | hash :: hashes =>
    match core.findMainChainSegmentContainingBlock hash with
    | some pointer => (core.getSegment pointer).bind (·.getBlockIndex hash)
    | none => findBlockchainSupplement hashes

/-- `findMainChainSegmentContainingBlock(uint32_t blockIndex)`: the first segment from the main leaf
down whose blocks include the index. -/
def findMainChainSegmentContainingBlockIndex (blockIndex : ℕ) : Option SegmentPointer :=
  core.chainsLeaves.head?.bind fun leaf =>
    ((core.chain leaf).find? fun entry =>
      entry.2.getStartBlockIndex ≤ blockIndex ∧ blockIndex < entry.2.getStartBlockIndex + entry.2.getBlockCount).map (·.1)

/-- `pushBlockHashes(startIndex, fullOffset, maxItemsCount, entries)`: the hashes of the main chain
from the start index up to the full offset, at most `maxItemsCount` of them. -/
def pushBlockHashes (startIndex fullOffset maxItemsCount : ℕ) : List Hash :=
  let itemsCount := min (fullOffset - startIndex) maxItemsCount
  if itemsCount = 0 then [] else Segment.getBlockHashes core.mainLeafSegments startIndex itemsCount

/-- The hash and raw block of a main-chain block, read from the segment that holds it. -/
def getMainChainBlock (blockIndex : ℕ) : Option (Hash × RawBlock) := do
  let segment ← core.findMainChainSegmentContainingBlockIndex blockIndex
  let blockHash ← Segment.getBlockHash (core.segments segment) blockIndex
  let rawBlock ← Segment.getBlockByIndex (core.segments segment) blockIndex
  pure (blockHash, rawBlock)

/-- `fillQueryBlockFullInfo(fullOffset, currentIndex, maxItemsCount, entries)`: the raw blocks from
the full offset, at most `currentIndex - fullOffset` of them. -/
def fillQueryBlockFullInfo (fullOffset currentIndex maxItemsCount : ℕ) : Option (List BlockFullInfo) :=
  let fullBlocksCount := min maxItemsCount (UInt32.ofNat currentIndex - UInt32.ofNat fullOffset).toNat
  (List.range' fullOffset fullBlocksCount).mapM fun blockIndex => do
    let (blockHash, rawBlock) ← core.getMainChainBlock blockIndex
    pure { block_id := blockHash, rawBlock := rawBlock }

/-- The prefix entry of a raw transaction; the source throws on one that does not deserialize.
`getBinaryArrayHash` of the bytes is the transaction's hash, since a transaction that reads from
bytes writes back to the same bytes. -/
def transactionPrefixInfo (rawTransaction : List UInt8) : Option TransactionPrefixInfo := do
  let transaction ← (fromBinaryArray inputTransaction rawTransaction).toOption
  pure { txHash := primitives.getTransactionHash transaction, txPrefix := transaction.toTransactionPrefix }

/-- `fillQueryBlockShortInfo(fullOffset, currentIndex, maxItemsCount, entries)`: the blocks from the
full offset with their transaction prefixes, at most `currentIndex - fullOffset + 1` of them. -/
def fillQueryBlockShortInfo (fullOffset currentIndex maxItemsCount : ℕ) : Option (List BlockShortInfo) :=
  let fullBlocksCount := min maxItemsCount (UInt32.ofNat currentIndex - UInt32.ofNat fullOffset + 1).toNat
  (List.range' fullOffset fullBlocksCount).mapM fun blockIndex => do
    let (blockHash, rawBlock) ← core.getMainChainBlock blockIndex
    let txPrefixes ← rawBlock.transactions.mapM (transactionPrefixInfo primitives)
    pure { blockId := blockHash, block := rawBlock.block, txPrefixes := txPrefixes }

/-- The full offset of both queries: the timestamp's lower bound on the main chain, and not before
the start index. -/
def queryFullOffset (startIndex : ℕ) (timestamp : UInt64) : Option ℕ := do
  let fullOffset ← Segment.getTimestampLowerBoundBlockIndex core.mainLeafSegments timestamp
  pure (if fullOffset < startIndex then startIndex else fullOffset)

/-- `queryBlocks(blockHashes, timestamp, startIndex, currentIndex, fullOffset, entries)`. -/
def queryBlocks (blockHashes : List Hash) (timestamp : UInt64) :
    Option (ℕ × ℕ × ℕ × List BlockFullInfo) := do
  let currentIndex := core.getTopBlockIndex
  let startIndex ← core.findBlockchainSupplement blockHashes
  let fullOffset ← core.queryFullOffset startIndex timestamp
  let hashes := core.pushBlockHashes startIndex fullOffset BLOCKS_IDS_SYNCHRONIZING_DEFAULT_COUNT
  let entries := hashes.map fun blockHash => { block_id := blockHash, rawBlock := ⟨[], []⟩ }
  if startIndex + hashes.length ≠ fullOffset then pure (startIndex, currentIndex, fullOffset, entries)
  else
    let full ← core.fillQueryBlockFullInfo fullOffset currentIndex BLOCKS_SYNCHRONIZING_DEFAULT_COUNT
    pure (startIndex, currentIndex, fullOffset, entries ++ full)

/-- `queryBlocksLite(knownBlockHashes, timestamp, startIndex, currentIndex, fullOffset, entries)`: a
zero timestamp with a nonzero start index is replaced by the start block's timestamp. -/
def queryBlocksLite (knownBlockHashes : List Hash) (timestamp : UInt64) :
    Option (ℕ × ℕ × ℕ × List BlockShortInfo) := do
  let currentIndex := core.getTopBlockIndex
  let startIndex ← core.findBlockchainSupplement knownBlockHashes
  let timestamp ←
    if startIndex > 0 ∧ timestamp = 0 ∧ startIndex ≤ core.getTopBlockIndex then do
      let rawBlock ← Segment.getBlockByIndex core.mainLeafSegments startIndex
      let block ← (fromBinaryArray (inputBlockTemplate unreadParentBlock) rawBlock.block).toOption
      pure block.timestamp
    else pure timestamp
  let fullOffset ← core.queryFullOffset startIndex timestamp
  let hashes := core.pushBlockHashes startIndex fullOffset BLOCKS_IDS_SYNCHRONIZING_DEFAULT_COUNT
  let entries := hashes.map fun blockHash => { blockId := blockHash, block := [], txPrefixes := [] }
  if startIndex + hashes.length ≠ fullOffset then pure (startIndex, currentIndex, fullOffset, entries)
  else
    let short ← core.fillQueryBlockShortInfo primitives fullOffset currentIndex BLOCKS_SYNCHRONIZING_DEFAULT_COUNT
    pure (startIndex, currentIndex, fullOffset, entries ++ short)

end Core

end Nox.CryptoNote
