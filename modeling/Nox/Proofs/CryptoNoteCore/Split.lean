import Nox.Proofs.CryptoNoteCore.CoreStorage

/-! # Splitting an in-memory segment

`BlockchainCache::split(s)` keeps the blocks below `s` in the segment and moves the others to a new
upper segment whose parent it is. A query about block `b` asked of the upper segment, with the lower
one as its parent, falls through to the lower one for `b < s`. These lemmas compare each query on
the two parts with the same query on the segment before the split: the positional queries read the
same entry of the split lists, and the queries by key image, transaction and amount need the tables
to be as `pushBlock` builds them.
-/

namespace Nox.CryptoNote

namespace BlockchainCache

section Fields

variable (cache : BlockchainCache) (self upper : SegmentPointer) (splitBlockIndex : ℕ)

@[simp] theorem split_lower_blockInfos :
    (cache.split self upper splitBlockIndex).1.blockInfos = cache.blockInfos.take (splitBlockIndex - cache.startIndex) :=
  rfl

@[simp] theorem split_upper_blockInfos :
    (cache.split self upper splitBlockIndex).2.blockInfos = cache.blockInfos.drop (splitBlockIndex - cache.startIndex) :=
  rfl

@[simp] theorem split_lower_storage :
    (cache.split self upper splitBlockIndex).1.storage = cache.storage.take (splitBlockIndex - cache.startIndex) :=
  rfl

@[simp] theorem split_upper_storage :
    (cache.split self upper splitBlockIndex).2.storage = cache.storage.drop (splitBlockIndex - cache.startIndex) :=
  rfl

@[simp] theorem split_lower_spentKeyImages :
    (cache.split self upper splitBlockIndex).1.spentKeyImages =
      cache.spentKeyImages.filter (·.blockIndex < splitBlockIndex) :=
  rfl

@[simp] theorem split_upper_spentKeyImages :
    (cache.split self upper splitBlockIndex).2.spentKeyImages =
      cache.spentKeyImages.filter (splitBlockIndex ≤ ·.blockIndex) :=
  rfl

@[simp] theorem split_lower_transactions :
    (cache.split self upper splitBlockIndex).1.transactions =
      cache.transactions.filter (·.blockIndex < splitBlockIndex) :=
  rfl

@[simp] theorem split_upper_transactions :
    (cache.split self upper splitBlockIndex).2.transactions =
      cache.transactions.filter (splitBlockIndex ≤ ·.blockIndex) :=
  rfl

@[simp] theorem split_lower_keyOutputsGlobalIndexes (amount : UInt64) :
    (cache.split self upper splitBlockIndex).1.keyOutputsGlobalIndexes amount =
      (cache.keyOutputsGlobalIndexes amount).bind fun entry => (splitGlobalIndexes entry splitBlockIndex).1 :=
  rfl

@[simp] theorem split_upper_keyOutputsGlobalIndexes (amount : UInt64) :
    (cache.split self upper splitBlockIndex).2.keyOutputsGlobalIndexes amount =
      (cache.keyOutputsGlobalIndexes amount).bind fun entry => (splitGlobalIndexes entry splitBlockIndex).2 :=
  rfl

theorem split_paymentIds :
    ((cache.split self upper splitBlockIndex).1.paymentIds, (cache.split self upper splitBlockIndex).2.paymentIds) =
      (cache.transactions.filter (splitBlockIndex ≤ ·.blockIndex)).foldl
        (fun ids info => removePaymentId info.transactionHash ids) (cache.paymentIds, []) :=
  rfl

end Fields

/-- A lookup by position in the split lists, falling through from the upper part to the lower one
and below it to `fallback`, reads the entry the segment read before the split. -/
theorem lookup_split {α β : Type} (entries : List α) (read : Option α → β) (fallback : β)
    {startIndex splitBlockIndex : ℕ} (after : startIndex ≤ splitBlockIndex) (blockIndex : ℕ) :
    (if blockIndex < splitBlockIndex then
        (if blockIndex < startIndex then fallback
          else read (entries.take (splitBlockIndex - startIndex))[blockIndex - startIndex]?)
      else read (entries.drop (splitBlockIndex - startIndex))[blockIndex - splitBlockIndex]?) =
      (if blockIndex < startIndex then fallback else read entries[blockIndex - startIndex]?) := by
  by_cases below : blockIndex < splitBlockIndex
  · by_cases beforeStart : blockIndex < startIndex
    · simp [below, beforeStart]
    · have inside : blockIndex - startIndex < splitBlockIndex - startIndex := by omega
      simp [below, beforeStart, inside]
  · have shifted : splitBlockIndex - startIndex + (blockIndex - splitBlockIndex) = blockIndex - startIndex := by
      omega
    simp [below, show ¬ blockIndex < startIndex by omega, List.getElem?_drop, shifted]

variable {cache : BlockchainCache} {self upper : SegmentPointer} {splitBlockIndex : ℕ}

/-- The path through the upper part of a split: the upper part, the lower part, then the parents. -/
def splitPath (cache : BlockchainCache) (self upper : SegmentPointer) (splitBlockIndex : ℕ)
    (parents : List Segment) : List Segment :=
  .memory (cache.split self upper splitBlockIndex).2 :: .memory (cache.split self upper splitBlockIndex).1 :: parents

theorem getBlockHash_split (after : cache.startIndex ≤ splitBlockIndex) (parents : List Segment) (blockIndex : ℕ) :
    Segment.getBlockHash (splitPath cache self upper splitBlockIndex parents) blockIndex =
      Segment.getBlockHash (.memory cache :: parents) blockIndex := by
  simp only [splitPath, Segment.getBlockHash, split_upper_startIndex, split_lower_startIndex,
    split_upper_blockInfos, split_lower_blockInfos]
  exact lookup_split cache.blockInfos (Option.map (·.blockHash)) (Segment.getBlockHash parents blockIndex) after blockIndex

theorem getBlockByIndex_split (after : cache.startIndex ≤ splitBlockIndex) (parents : List Segment) (blockIndex : ℕ) :
    Segment.getBlockByIndex (splitPath cache self upper splitBlockIndex parents) blockIndex =
      Segment.getBlockByIndex (.memory cache :: parents) blockIndex := by
  simp only [splitPath, Segment.getBlockByIndex, split_upper_startIndex, split_lower_startIndex,
    split_upper_storage, split_lower_storage]
  exact lookup_split cache.storage id (Segment.getBlockByIndex parents blockIndex) after blockIndex

theorem getAlreadyGeneratedCoins_split (after : cache.startIndex ≤ splitBlockIndex) (parents : List Segment)
    (blockIndex : ℕ) :
    Segment.getAlreadyGeneratedCoins (splitPath cache self upper splitBlockIndex parents) blockIndex =
      Segment.getAlreadyGeneratedCoins (.memory cache :: parents) blockIndex := by
  simp only [splitPath, Segment.getAlreadyGeneratedCoins, split_upper_startIndex, split_lower_startIndex,
    split_upper_blockInfos, split_lower_blockInfos]
  exact lookup_split cache.blockInfos (Option.map (·.alreadyGeneratedCoins))
      (Segment.getAlreadyGeneratedCoins parents blockIndex) after blockIndex

theorem getAlreadyGeneratedTransactions_split (after : cache.startIndex ≤ splitBlockIndex) (parents : List Segment)
    (blockIndex : ℕ) :
    Segment.getAlreadyGeneratedTransactions (splitPath cache self upper splitBlockIndex parents) blockIndex =
      Segment.getAlreadyGeneratedTransactions (.memory cache :: parents) blockIndex := by
  simp only [splitPath, Segment.getAlreadyGeneratedTransactions, split_upper_startIndex, split_lower_startIndex,
    split_upper_blockInfos, split_lower_blockInfos]
  exact lookup_split cache.blockInfos (Option.map (·.alreadyGeneratedTransactions))
      (Segment.getAlreadyGeneratedTransactions parents blockIndex) after blockIndex

theorem getRawTransaction_split (after : cache.startIndex ≤ splitBlockIndex) (parents : List Segment)
    (blockIndex transactionIndex : ℕ) :
    Segment.getRawTransaction (splitPath cache self upper splitBlockIndex parents) blockIndex transactionIndex =
      Segment.getRawTransaction (.memory cache :: parents) blockIndex transactionIndex := by
  simp only [splitPath, Segment.getRawTransaction, split_upper_startIndex, split_lower_startIndex,
    split_upper_storage, split_lower_storage]
  exact lookup_split cache.storage
      (fun rawBlock => rawBlock.bind fun rawBlock =>
        if transactionIndex = 0 then
          ((fromBinaryArray (inputBlockTemplate unreadParentBlock) rawBlock.block).toOption).bind
            fun block => (toBinaryArray outputTransaction block.baseTransaction).toOption
        else rawBlock.transactions[transactionIndex - 1]?)
      (Segment.getRawTransaction parents blockIndex transactionIndex) after blockIndex

end BlockchainCache

end Nox.CryptoNote
