import Nox.Model.CryptoNoteCore.BlockchainCache

/-! # What `pushBlock` records for a block

`pushBlock` appends one block info and then records key images and transactions, which leave the
block infos alone. The appended info continues the counters of the segment's top block, so the coins
a segment reports for the block after its old top are those of the old top plus the emission change
the block was pushed with. This holds for an in-memory segment and for the database root.
-/

namespace Nox.CryptoNote

namespace BlockchainCache

variable (primitives : Primitives) (parents : List Segment)

@[simp] theorem addSpentKeyImage_blockInfos (keyImage : Crypto.KeyImage) (blockIndex : ℕ) (cache : BlockchainCache) :
    (addSpentKeyImage keyImage blockIndex cache).blockInfos = cache.blockInfos := by
  unfold addSpentKeyImage
  split <;> rfl

@[simp] theorem foldl_addSpentKeyImage_blockInfos (keyImages : List Crypto.KeyImage) (blockIndex : ℕ)
    (cache : BlockchainCache) :
    (keyImages.foldl (fun cache keyImage => addSpentKeyImage keyImage blockIndex cache) cache).blockInfos =
      cache.blockInfos := by
  induction keyImages generalizing cache with
  | nil => rfl
  | cons keyImage keyImages ih => simp [ih]

@[simp] theorem pushOutputs_blockInfos (blockIndex transactionIndex outputIndex : ℕ)
    (outputs : List TransactionOutput) (cache : BlockchainCache) :
    (pushOutputs parents blockIndex transactionIndex outputIndex outputs cache).1.blockInfos = cache.blockInfos := by
  induction outputs generalizing outputIndex cache with
  | nil => rfl
  | cons output outputs ih =>
    simp only [pushOutputs, ih]
    rfl

@[simp] theorem pushTransaction_blockInfos (blockIndex transactionIndex : ℕ) (transaction : Transaction)
    (cache : BlockchainCache) :
    (pushTransaction primitives parents blockIndex transactionIndex transaction cache).blockInfos = cache.blockInfos := by
  unfold pushTransaction
  dsimp only
  split <;> (try split) <;> (try split) <;> simp [pushOutputs_blockInfos]

@[simp] theorem pushTransactions_blockInfos (blockIndex transactionIndex : ℕ) (transactions : List Transaction)
    (cache : BlockchainCache) :
    (pushTransactions primitives parents blockIndex transactionIndex transactions cache).blockInfos =
      cache.blockInfos := by
  induction transactions generalizing transactionIndex cache with
  | nil => rfl
  | cons transaction transactions ih => simp [pushTransactions, ih]

@[simp] theorem addSpentKeyImage_startIndex (keyImage : Crypto.KeyImage) (blockIndex : ℕ) (cache : BlockchainCache) :
    (addSpentKeyImage keyImage blockIndex cache).startIndex = cache.startIndex := by
  unfold addSpentKeyImage
  split <;> rfl

@[simp] theorem foldl_addSpentKeyImage_startIndex (keyImages : List Crypto.KeyImage) (blockIndex : ℕ)
    (cache : BlockchainCache) :
    (keyImages.foldl (fun cache keyImage => addSpentKeyImage keyImage blockIndex cache) cache).startIndex =
      cache.startIndex := by
  induction keyImages generalizing cache with
  | nil => rfl
  | cons keyImage keyImages ih => simp [ih]

@[simp] theorem pushOutputs_startIndex (blockIndex transactionIndex outputIndex : ℕ)
    (outputs : List TransactionOutput) (cache : BlockchainCache) :
    (pushOutputs parents blockIndex transactionIndex outputIndex outputs cache).1.startIndex = cache.startIndex := by
  induction outputs generalizing outputIndex cache with
  | nil => rfl
  | cons output outputs ih =>
    simp only [pushOutputs, ih]
    rfl

@[simp] theorem pushTransaction_startIndex (blockIndex transactionIndex : ℕ) (transaction : Transaction)
    (cache : BlockchainCache) :
    (pushTransaction primitives parents blockIndex transactionIndex transaction cache).startIndex = cache.startIndex := by
  unfold pushTransaction
  dsimp only
  split <;> (try split) <;> (try split) <;> simp [pushOutputs_startIndex]

@[simp] theorem pushTransactions_startIndex (blockIndex transactionIndex : ℕ) (transactions : List Transaction)
    (cache : BlockchainCache) :
    (pushTransactions primitives parents blockIndex transactionIndex transactions cache).startIndex =
      cache.startIndex := by
  induction transactions generalizing transactionIndex cache with
  | nil => rfl
  | cons transaction transactions ih => simp [pushTransactions, ih]

/-- The coins a segment reports for the block after its top, once a new block is pushed on it, are
those of the top plus the block's emission change. -/
theorem getAlreadyGeneratedCoins_pushBlock {cache : BlockchainCache} {cachedBlock : CachedBlock}
    {transactions : List CachedTransaction} {validatorState : TransactionValidatorState} {blockSize : ℕ}
    {generatedCoins blockDifficulty : UInt64} {rawBlock : RawBlock} (nonempty : cache.blockInfos ≠ [])
    (fresh : cache.blockInfos.any (·.blockHash == primitives.getBlockHash cachedBlock.block) = false) :
    Segment.getAlreadyGeneratedCoins
        (.memory (pushBlock primitives parents cachedBlock transactions validatorState blockSize generatedCoins
          blockDifficulty rawBlock cache) :: parents) (cache.startIndex + cache.blockInfos.length) =
      (Segment.getAlreadyGeneratedCoins (.memory cache :: parents)
        (cache.startIndex + cache.blockInfos.length - 1)).map (· + generatedCoins) := by
  obtain ⟨last, lastEq⟩ := List.getLast?_isSome.mpr nonempty |> Option.isSome_iff_exists.mp
  have length : 0 < cache.blockInfos.length := List.length_pos_iff.mpr nonempty
  have top : cache.blockInfos[cache.blockInfos.length - 1]? = some last := by
    rw [← List.getLast?_eq_getElem?, lastEq]
  simp only [pushBlock, lastEq, fresh, Bool.false_eq_true, if_false, Segment.getAlreadyGeneratedCoins,
    foldl_addSpentKeyImage_blockInfos, pushTransactions_blockInfos, foldl_addSpentKeyImage_startIndex,
    pushTransactions_startIndex]
  have notBelow : ¬ cache.startIndex + cache.blockInfos.length < cache.startIndex := by omega
  have notBelowTop : ¬ cache.startIndex + cache.blockInfos.length - 1 < cache.startIndex := by omega
  have offset : cache.startIndex + cache.blockInfos.length - 1 - cache.startIndex = cache.blockInfos.length - 1 := by
    omega
  simp [notBelow, notBelowTop, offset, top]

end BlockchainCache

namespace DatabaseBlockchainCache

@[simp] theorem pushTransaction_blockInfos (primitives : Primitives) (blockIndex transactionIndex : ℕ)
    (transaction : Transaction) (cache : DatabaseBlockchainCache) :
    (cache.pushTransaction primitives blockIndex transactionIndex transaction).blockInfos = cache.blockInfos := by
  unfold pushTransaction
  rfl

@[simp] theorem pushTransactions_blockInfos (primitives : Primitives) (blockIndex transactionIndex : ℕ)
    (transactions : List Transaction) (cache : DatabaseBlockchainCache) :
    (pushTransactions primitives blockIndex transactionIndex transactions cache).blockInfos = cache.blockInfos := by
  induction transactions generalizing transactionIndex cache with
  | nil => rfl
  | cons transaction transactions ih => simp [pushTransactions, ih]

@[simp] theorem pushTransaction_unitsCache (primitives : Primitives) (blockIndex transactionIndex : ℕ)
    (transaction : Transaction) (cache : DatabaseBlockchainCache) :
    (cache.pushTransaction primitives blockIndex transactionIndex transaction).unitsCache = cache.unitsCache := by
  unfold pushTransaction
  rfl

@[simp] theorem pushTransactions_unitsCache (primitives : Primitives) (blockIndex transactionIndex : ℕ)
    (transactions : List Transaction) (cache : DatabaseBlockchainCache) :
    (pushTransactions primitives blockIndex transactionIndex transactions cache).unitsCache = cache.unitsCache := by
  induction transactions generalizing transactionIndex cache with
  | nil => rfl
  | cons transaction transactions ih => simp [pushTransactions, ih]

@[simp] theorem pushTransaction_closestTimestampBlockIndex (primitives : Primitives)
    (blockIndex transactionIndex : ℕ) (transaction : Transaction) (cache : DatabaseBlockchainCache) :
    (cache.pushTransaction primitives blockIndex transactionIndex transaction).closestTimestampBlockIndex =
      cache.closestTimestampBlockIndex := by
  unfold pushTransaction
  rfl

@[simp] theorem pushTransactions_closestTimestampBlockIndex (primitives : Primitives)
    (blockIndex transactionIndex : ℕ) (transactions : List Transaction) (cache : DatabaseBlockchainCache) :
    (pushTransactions primitives blockIndex transactionIndex transactions cache).closestTimestampBlockIndex =
      cache.closestTimestampBlockIndex := by
  induction transactions generalizing transactionIndex cache with
  | nil => rfl
  | cons transaction transactions ih => simp [pushTransactions, ih]

/-- The database root reports for the block after its top the coins of the top plus the block's
emission change. -/
theorem getAlreadyGeneratedCoins_pushBlock (primitives : Primitives) {cache : DatabaseBlockchainCache}
    {cachedBlock : CachedBlock} {transactions : List CachedTransaction} {validatorState : TransactionValidatorState}
    {blockSize : ℕ} {generatedCoins blockDifficulty : UInt64} {rawBlock : RawBlock} (rest : List Segment)
    (nonempty : cache.blockInfos ≠ []) :
    Segment.getAlreadyGeneratedCoins
        (.database (cache.pushBlock primitives cachedBlock transactions validatorState blockSize generatedCoins
          blockDifficulty rawBlock) :: rest) cache.blockInfos.length =
      (Segment.getAlreadyGeneratedCoins (.database cache :: rest) (cache.blockInfos.length - 1)).map
        (· + generatedCoins) := by
  have length : 0 < cache.blockInfos.length := List.length_pos_iff.mpr nonempty
  obtain ⟨last, top⟩ : ∃ last, cache.blockInfos[cache.blockInfos.length - 1]? = some last :=
    ⟨_, List.getElem?_eq_getElem (by omega)⟩
  simp [pushBlock, Segment.getAlreadyGeneratedCoins, getCachedBlockInfo, getTopBlockIndex, top]

end DatabaseBlockchainCache

end Nox.CryptoNote
