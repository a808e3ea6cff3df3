import Nox.Proofs.CryptoNoteCore.PushBlock

/-! # The last units of a chain

`getLastUnits(count, blockIndex, useGenesis, pred)` is meant to give the units of the blocks
`max(blockIndex + 1 - count, lo) .. blockIndex` in increasing order, where `lo` is 0 with the genesis
block and 1 without it. `unitsWindow` is that list of block infos. The database root reads the
newest of them from its units cache and the others from its block info table; the table's part is
the window by itself, and the cache's part is too as long as the cache holds the newest block infos,
which `pushBlock` and `split` keep so.
-/

namespace Nox.CryptoNote

/-- The first block whose unit `getLastUnits(count, blockIndex, useGenesis)` returns. -/
def firstUnit (blockIndex count : ℕ) (useGenesis : Bool) : ℕ :=
  max (blockIndex + 1 - count) (if useGenesis then 0 else 1)

/-- The block infos of indexes `first .. blockIndex` of `infos`. -/
def unitsWindow (infos : List CachedBlockInfo) (first blockIndex : ℕ) : List CachedBlockInfo :=
  (infos.drop first).take (blockIndex + 1 - first)

@[simp] theorem length_unitsWindow (infos : List CachedBlockInfo) (first blockIndex : ℕ) :
    (unitsWindow infos first blockIndex).length = min (blockIndex + 1 - first) (infos.length - first) := by
  simp [unitsWindow]

/-- A window that ends before it starts is empty. -/
theorem unitsWindow_of_lt {infos : List CachedBlockInfo} {first blockIndex : ℕ} (empty : blockIndex < first) :
    unitsWindow infos first blockIndex = [] := by
  simp [unitsWindow, Nat.sub_eq_zero_of_le empty]

/-- Two windows that meet at `middle` make the window from the first one's start. -/
theorem unitsWindow_append {infos : List CachedBlockInfo} {first middle blockIndex : ℕ} (after : 0 < middle)
    (starts : first ≤ middle) (ends : middle ≤ blockIndex + 1) :
    unitsWindow infos first (middle - 1) ++ unitsWindow infos middle blockIndex =
      unitsWindow infos first blockIndex := by
  have split : blockIndex + 1 - first = (middle - 1 + 1 - first) + (blockIndex + 1 - middle) := by omega
  have meet : first + (middle - 1 + 1 - first) = middle := by omega
  rw [unitsWindow, unitsWindow, unitsWindow, split, List.take_add, List.drop_drop, meet]

/-- A window that ends inside the lower part of a chain is a window of that part. -/
theorem unitsWindow_append_of_lt {lower upper : List CachedBlockInfo} {first blockIndex : ℕ}
    (inLower : blockIndex < lower.length) :
    unitsWindow (lower ++ upper) first blockIndex = unitsWindow lower first blockIndex := by
  by_cases empty : blockIndex < first
  · rw [unitsWindow_of_lt empty, unitsWindow_of_lt empty]
  · rw [unitsWindow, unitsWindow, List.drop_append_of_le_length (by omega),
      List.take_append_of_le_length (by simp only [List.length_drop]; omega)]

/-- A window that starts past its end is the empty one from the block after its end. -/
theorem unitsWindow_min {infos : List CachedBlockInfo} {first blockIndex : ℕ} :
    unitsWindow infos (min first (blockIndex + 1)) blockIndex = unitsWindow infos first blockIndex := by
  by_cases empty : blockIndex < first
  · rw [unitsWindow_of_lt (by omega), unitsWindow_of_lt empty]
  · rw [Nat.min_eq_left (by omega)]

/-- A run of the upper part of a chain is the run of the chain at its place. -/
theorem drop_take_append (lower upper : List CachedBlockInfo) (start count : ℕ) :
    (upper.drop start).take count = ((lower ++ upper).drop (lower.length + start)).take count := by
  rw [List.drop_append, List.drop_eq_nil_of_le (Nat.le_add_right lower.length start), List.nil_append,
    Nat.add_sub_cancel_left]

namespace DatabaseBlockchainCache

variable (cache : DatabaseBlockchainCache)

/-- The units cache holds the newest block infos of the table, as many as it keeps. -/
def UnitsCached : Prop := cache.unitsCache <:+ cache.blockInfos

instance : Decidable cache.UnitsCached := inferInstanceAs (Decidable (cache.unitsCache <:+ cache.blockInfos))

/-- The cache gives at most the units asked for. -/
theorem length_getLastCachedUnits_le (blockIndex count : ℕ) (useGenesis : Bool) :
    (cache.getLastCachedUnits blockIndex count useGenesis).length ≤ count := by
  simp only [getLastCachedUnits]
  split_ifs <;> simp only [List.length_nil, List.length_take, List.length_drop] <;> omega

/-- The table gives the window of the last `count` units up to `blockIndex`. -/
theorem getLastDbUnits_eq (blockIndex count : ℕ) (useGenesis : Bool) :
    cache.getLastDbUnits blockIndex count useGenesis =
      unitsWindow cache.blockInfos (firstUnit blockIndex count useGenesis) blockIndex := by
  have readFrom : (if blockIndex + 1 - min (blockIndex + 1) count = 0 ∧ (!useGenesis) = true
      then blockIndex + 1 - min (blockIndex + 1) count + 1 else blockIndex + 1 - min (blockIndex + 1) count) =
      firstUnit blockIndex count useGenesis := by
    cases useGenesis <;> simp only [firstUnit] <;> split_ifs <;> simp_all <;> omega
  simp only [getLastDbUnits, readFrom, unitsWindow]

variable {cache}

/-- On a cache of the newest block infos, a read of the cache is a read of the table from the first
block the cache holds. -/
theorem drop_take_unitsCache (cached : cache.UnitsCached) (offset count : ℕ) :
    (cache.unitsCache.drop offset).take count =
      (cache.blockInfos.drop (cache.blockInfos.length - cache.unitsCache.length + offset)).take count := by
  conv_lhs => rw [List.suffix_iff_eq_drop.mp cached]
  rw [List.drop_drop]

/-- The cache gives the window of the last `count` units up to `blockIndex` that it holds: the
window from its first block on. -/
theorem getLastCachedUnits_eq (cached : cache.UnitsCached) {blockIndex : ℕ} (count : ℕ) (useGenesis : Bool)
    (onChain : blockIndex < cache.blockInfos.length) :
    cache.getLastCachedUnits blockIndex count useGenesis =
      unitsWindow cache.blockInfos
        (max (firstUnit blockIndex count useGenesis) (cache.blockInfos.length - cache.unitsCache.length))
        blockIndex := by
  have held := cached.length_le
  simp only [getLastCachedUnits, getTopBlockIndex]
  cases useGenesis <;> simp only [firstUnit, Bool.not_false, Bool.not_true, if_true, Bool.false_eq_true,
    if_false, true_and, false_and] <;> split_ifs <;>
    first
    | exact (unitsWindow_of_lt (by omega)).symm
    | (rw [drop_take_unitsCache cached, unitsWindow]; congr 2 <;> omega)

/-- The cached units are the newest ones up to the block: at most `count` of them, and the genesis
block only with `useGenesis`. -/
theorem getLastCachedUnits_newest (cached : cache.UnitsCached) {blockIndex : ℕ} (count : ℕ) (useGenesis : Bool)
    (onChain : blockIndex < cache.blockInfos.length) {cachedUnits : List CachedBlockInfo}
    (read : cache.getLastCachedUnits blockIndex count useGenesis = cachedUnits) :
    cachedUnits = unitsWindow cache.blockInfos (blockIndex + 1 - cachedUnits.length) blockIndex ∧
      cachedUnits.length ≤ count ∧ cachedUnits.length + (if useGenesis then 0 else 1) ≤ blockIndex + 1 := by
  have window := read ▸ getLastCachedUnits_eq cached count useGenesis onChain
  have recent : blockIndex + 1 - count ≤ firstUnit blockIndex count useGenesis := le_max_left _ _
  have lowest : (if useGenesis then 0 else 1) ≤ firstUnit blockIndex count useGenesis := le_max_right _ _
  have atMostOne : (if useGenesis then 0 else 1) ≤ 1 := by cases useGenesis <;> simp
  have fromFirst : firstUnit blockIndex count useGenesis ≤
      max (firstUnit blockIndex count useGenesis) (cache.blockInfos.length - cache.unitsCache.length) :=
    le_max_left _ _
  generalize max (firstUnit blockIndex count useGenesis) (cache.blockInfos.length - cache.unitsCache.length) =
    cachedFirst at window fromFirst
  have length : cachedUnits.length =
      min (blockIndex + 1 - cachedFirst) (cache.blockInfos.length - cachedFirst) := by
    rw [window, length_unitsWindow]
  refine ⟨?_, by omega, by omega⟩
  calc cachedUnits = unitsWindow cache.blockInfos cachedFirst blockIndex := window
    _ = unitsWindow cache.blockInfos (min cachedFirst (blockIndex + 1)) blockIndex := unitsWindow_min.symm
    _ = unitsWindow cache.blockInfos (blockIndex + 1 - cachedUnits.length) blockIndex := by
      rw [length]
      congr 1
      omega

/-- On a cache of the newest block infos, the root gives the window of the last `count` units up to
`blockIndex`: what the table holds before the cached units, then the cached units. -/
theorem getLastUnits_eq_unitsWindow (cached : cache.UnitsCached) (pred : CachedBlockInfo → UInt64)
    {blockIndex : ℕ} (count : ℕ) (useGenesis : Bool) (onChain : blockIndex < cache.blockInfos.length) :
    cache.getLastUnits pred count blockIndex useGenesis =
      (unitsWindow cache.blockInfos (firstUnit blockIndex count useGenesis) blockIndex).map pred := by
  obtain ⟨cachedPart, fewer, noGenesis⟩ := getLastCachedUnits_newest cached count useGenesis onChain rfl
  have available : (if useGenesis then blockIndex + 1 else blockIndex) =
      blockIndex + 1 - (if useGenesis then 0 else 1) := by
    cases useGenesis <;> simp
  have lowest : (if useGenesis then 0 else 1) ≤ 1 := by cases useGenesis <;> simp
  simp only [getLastUnits, available, getLastDbUnits_eq, firstUnit]
  generalize (if useGenesis then 0 else 1) = low at *
  generalize cache.getLastCachedUnits blockIndex count useGenesis = cachedUnits at *
  split_ifs with allCached
  · -- the cache holds every unit there is up to the block
    have allFirst : max (blockIndex + 1 - count) low = blockIndex + 1 - cachedUnits.length := by omega
    rw [allFirst]
    exact congrArg _ cachedPart
  · -- the table gives the units before the first cached one, from the same first unit
    have sameFirst : blockIndex - cachedUnits.length + 1 - (count - cachedUnits.length) = blockIndex + 1 - count := by
      omega
    rw [sameFirst, ← List.map_append]
    have recent := le_max_left (blockIndex + 1 - count) low
    have lowestFirst := le_max_right (blockIndex + 1 - count) low
    have choice := max_choice (blockIndex + 1 - count) low
    generalize max (blockIndex + 1 - count) low = first at *
    have joined : unitsWindow cache.blockInfos first (blockIndex + 1 - cachedUnits.length - 1) ++
        unitsWindow cache.blockInfos (blockIndex + 1 - cachedUnits.length) blockIndex =
          unitsWindow cache.blockInfos first blockIndex :=
      unitsWindow_append (by omega) (by omega) (by omega)
    rw [← joined, ← cachedPart]
    congr 3
    omega

/-! ### The units cache over a run of the root -/

section Run

variable (primitives : Primitives)

/-- The genesis root caches the genesis block's info, which is all its table holds. -/
theorem unitsCached_ofGenesisBlock {genesisBlock : CachedBlock} (built : ofGenesisBlock primitives genesisBlock = .ok cache) :
    cache.UnitsCached := by
  unfold ofGenesisBlock at built
  cases binary : toBinaryArray outputBlockTemplate genesisBlock.block with
  | error => simp [binary, bind, Except.bind] at built
  | ok bytes =>
    cases midnight : roundToMidnight genesisBlock.block.timestamp with
    | none => simp [binary, midnight, bind, Except.bind, throw, throwThe, MonadExceptOf.throw] at built
    | some _ =>
      simp only [binary, midnight, bind, Except.bind, pure, Except.pure, Except.ok.injEq] at built
      rw [← built]
      exact List.suffix_refl _

/-- `pushBlock` adds the block's info to the table and to the cache, whose oldest unit goes once it
holds more than `unitsCacheSize`. -/
theorem unitsCached_pushBlock (cached : cache.UnitsCached) (cachedBlock : CachedBlock)
    (transactions : List CachedTransaction) (validatorState : TransactionValidatorState) (blockSize : ℕ)
    (generatedCoins blockDifficulty : UInt64) (rawBlock : RawBlock) :
    (cache.pushBlock primitives cachedBlock transactions validatorState blockSize generatedCoins blockDifficulty
      rawBlock).UnitsCached := by
  obtain ⟨older, kept⟩ := cached
  have extended : ∀ info, cache.unitsCache ++ [info] <:+ cache.blockInfos ++ [info] :=
    fun _ => ⟨older, by rw [← kept, List.append_assoc]⟩
  simp only [UnitsCached, pushBlock, pushTransactions_unitsCache, pushTransactions_blockInfos]
  split_ifs
  · exact (List.drop_suffix 1 _).trans (extended _)
  · exact extended _

/-- `split` cuts from the cache the units of the blocks it removes from the table. -/
theorem unitsCached_split (cached : cache.UnitsCached) (self upper : SegmentPointer) (splitBlockIndex : ℕ) :
    (split primitives self upper splitBlockIndex cache).1.UnitsCached := by
  obtain ⟨older, kept⟩ := cached
  have total : older.length + cache.unitsCache.length = cache.blockInfos.length := by
    rw [← kept, List.length_append]
  have top : cache.getTopBlockIndex = cache.blockInfos.length - 1 := rfl
  simp only [UnitsCached, split, removeBlocksFrom, cutTail]
  split_ifs with dropsAll
  · exact List.nil_suffix
  · -- the cache keeps its units of the blocks below the split, which the table keeps too
    have sameCount : cache.unitsCache.take (cache.unitsCache.length - (cache.getTopBlockIndex + 1 - splitBlockIndex)) =
        cache.unitsCache.take (splitBlockIndex - older.length) := by
      rw [List.take_eq_take_iff]
      omega
    rw [sameCount, ← kept, List.take_append, List.take_of_length_le (show older.length ≤ splitBlockIndex by omega)]
    exact List.suffix_append _ _

/-- The roots a database reaches from its genesis block by `pushBlock` and `split`. -/
inductive Reachable : DatabaseBlockchainCache → Prop
  | genesis {genesisBlock : CachedBlock} {cache : DatabaseBlockchainCache} :
    ofGenesisBlock primitives genesisBlock = .ok cache → Reachable cache
  | pushBlock {cache : DatabaseBlockchainCache} (cachedBlock : CachedBlock) (transactions : List CachedTransaction)
      (validatorState : TransactionValidatorState) (blockSize : ℕ) (generatedCoins blockDifficulty : UInt64)
      (rawBlock : RawBlock) :
    Reachable cache →
      Reachable (cache.pushBlock primitives cachedBlock transactions validatorState blockSize generatedCoins
        blockDifficulty rawBlock)
  | split {cache : DatabaseBlockchainCache} (self upper : SegmentPointer) (splitBlockIndex : ℕ) :
    Reachable cache → Reachable (split primitives self upper splitBlockIndex cache).1

/-- Every root a database reaches caches its newest block infos. -/
theorem Reachable.unitsCached {cache : DatabaseBlockchainCache} (reached : Reachable primitives cache) :
    cache.UnitsCached := by
  induction reached with
  | genesis built => exact unitsCached_ofGenesisBlock primitives built
  | pushBlock cachedBlock transactions validatorState blockSize generatedCoins blockDifficulty rawBlock _ cached =>
    exact unitsCached_pushBlock primitives cached cachedBlock transactions validatorState blockSize generatedCoins
      blockDifficulty rawBlock
  | split self upper splitBlockIndex _ cached => exact unitsCached_split primitives cached self upper splitBlockIndex

end Run

variable (cache)

/-- For its top block the root returns one unit, whatever its cache holds. -/
theorem length_getLastUnits_one_top (pred : CachedBlockInfo → UInt64) (nonempty : 0 < cache.blockInfos.length) :
    (cache.getLastUnits pred 1 cache.getTopBlockIndex true).length = 1 := by
  have atMostOne := cache.length_getLastCachedUnits_le cache.getTopBlockIndex 1 true
  have top : cache.getTopBlockIndex = cache.blockInfos.length - 1 := rfl
  simp only [getLastUnits, if_true]
  split_ifs with allCached
  · simp only [List.length_map]
    omega
  · -- the cache holds the top block or nothing, and the table gives the rest
    simp only [List.length_append, List.length_map, getLastDbUnits_eq, length_unitsWindow, firstUnit, if_true]
    omega

end DatabaseBlockchainCache

namespace Segment

/-- The block infos of a path of segments, oldest first. -/
def chainInfos : List Segment → List CachedBlockInfo
  | [] => []
  | .memory cache :: parents => chainInfos parents ++ cache.blockInfos
  | .database cache :: _ => cache.blockInfos

/-- A path of segments from a leaf to the root that makes one chain: an in-memory segment with a
parent starts right after the blocks below it, of which there is one at least; an in-memory root
starts at block 0; the database root's units cache holds its newest block infos. -/
def ChainPath : List Segment → Prop
  | [] => True
  | [.memory cache] => cache.startIndex = 0
  | .memory cache :: parent :: parents =>
    0 < (chainInfos (parent :: parents)).length ∧ cache.startIndex = (chainInfos (parent :: parents)).length ∧
      ChainPath (parent :: parents)
  | .database cache :: _ => cache.UnitsCached

instance decidableChainPath : (segments : List Segment) → Decidable (ChainPath segments)
  | [] => inferInstanceAs (Decidable True)
  | [.memory cache] => inferInstanceAs (Decidable (cache.startIndex = 0))
  | .memory cache :: parent :: parents =>
    have := decidableChainPath (parent :: parents)
    inferInstanceAs (Decidable (0 < (chainInfos (parent :: parents)).length ∧
      cache.startIndex = (chainInfos (parent :: parents)).length ∧ ChainPath (parent :: parents)))
  | .database cache :: _ => inferInstanceAs (Decidable cache.UnitsCached)

/-- The first segment of a path ends at the top of the path's chain. -/
theorem getTopBlockIndex_of_chainPath :
    ∀ {segment : Segment} {parents : List Segment}, ChainPath (segment :: parents) →
      0 < (chainInfos (segment :: parents)).length →
      segment.getTopBlockIndex = (chainInfos (segment :: parents)).length - 1
  | .memory cache, [], root, _ => by
    simp only [ChainPath] at root
    simp [getTopBlockIndex, getStartBlockIndex, getBlockCount, chainInfos, root]
  | .memory cache, _ :: _, ⟨_, start, _⟩, _ => by
    simp only [getTopBlockIndex, getStartBlockIndex, getBlockCount, chainInfos, List.length_append, start]
  | .database cache, _, _, _ => by
    simp [getTopBlockIndex, getStartBlockIndex, getBlockCount, chainInfos]

/-- The own units of an in-memory segment, `from .. to` of its blocks, are the chain's window at
their place. -/
theorem ownUnits_eq_unitsWindow (lower upper : List CachedBlockInfo) (fromIndex toIndex blockIndex : ℕ)
    (ordered : fromIndex ≤ toIndex) (ends : lower.length + toIndex = blockIndex + 1) :
    (upper.drop fromIndex).take (toIndex - fromIndex) =
      unitsWindow (lower ++ upper) (lower.length + fromIndex) blockIndex := by
  rw [drop_take_append lower upper, unitsWindow]
  congr 1
  omega

variable (pred : CachedBlockInfo → UInt64)

/-- An in-memory root gives the window of its own blocks, from block 1 without `useGenesis`. -/
theorem getLastUnits_memory_root {cache : BlockchainCache} (root : cache.startIndex = 0) {blockIndex : ℕ}
    (count : ℕ) (useGenesis : Bool) :
    getLastUnits pred [.memory cache] count blockIndex useGenesis =
      (unitsWindow (chainInfos [.memory cache]) (firstUnit blockIndex count useGenesis) blockIndex).map pred := by
  -- the genesis block is skipped exactly when the window would start at it without `useGenesis`
  cases useGenesis <;>
    simp only [getLastUnits, root, Nat.not_lt_zero, if_false, Nat.sub_zero, List.isEmpty_nil, Bool.not_false,
      Bool.not_true, Bool.true_and, Bool.false_and, Bool.and_true, Bool.and_eq_true, beq_iff_eq, bne_iff_ne,
      firstUnit, chainInfos, List.nil_append, if_true, Bool.false_eq_true] <;>
    (try split_ifs) <;> (rw [unitsWindow]; congr 3) <;> omega

/-- An in-memory segment with a parent gives its own blocks up to the block and asks the parent,
up to the parent's top, for the units before them. -/
theorem getLastUnits_memory_cons {cache : BlockchainCache} {parent : Segment} {parents : List Segment}
    (lowerBlocks : 0 < (chainInfos (parent :: parents)).length)
    (start : cache.startIndex = (chainInfos (parent :: parents)).length)
    (top : parent.getTopBlockIndex = (chainInfos (parent :: parents)).length - 1) (useGenesis : Bool)
    (fromParents : ∀ {blockIndex : ℕ} (count : ℕ), blockIndex < (chainInfos (parent :: parents)).length →
      getLastUnits pred (parent :: parents) count blockIndex useGenesis =
        (unitsWindow (chainInfos (parent :: parents)) (firstUnit blockIndex count useGenesis) blockIndex).map pred)
    {blockIndex : ℕ} (count : ℕ) :
    getLastUnits pred (.memory cache :: parent :: parents) count blockIndex useGenesis =
      (unitsWindow (chainInfos (.memory cache :: parent :: parents)) (firstUnit blockIndex count useGenesis)
        blockIndex).map pred := by
  have lowest : (if useGenesis then 0 else 1) ≤ 1 := by cases useGenesis <;> simp
  simp only [getLastUnits, chainInfos, List.isEmpty_cons, Bool.and_false, Bool.false_eq_true, if_false, start,
    top]
  generalize chainInfos (parent :: parents) = lower at *
  by_cases under : blockIndex < lower.length
  · -- the block is below the segment: the parent gives every unit
    simp only [under, if_true, Nat.min_zero, Nat.sub_zero, List.drop_zero, List.take_zero, List.map_nil,
      List.append_nil]
    split_ifs with asked
    · rw [Nat.min_eq_left (show blockIndex ≤ lower.length - 1 by omega), fromParents count under,
        unitsWindow_append_of_lt under]
    · rw [unitsWindow_of_lt (by simp only [firstUnit]; omega), List.map_nil]
  · -- the segment gives its blocks up to the block, the parent those before them
    simp only [under, if_false]
    rw [ownUnits_eq_unitsWindow lower cache.blockInfos _ _ blockIndex (by omega) (by omega)]
    split_ifs with short
    · have sameFirst : firstUnit (lower.length - 1) (count - min count (blockIndex - lower.length + 1)) useGenesis =
          firstUnit blockIndex count useGenesis := by
        simp only [firstUnit]
        congr 1
        omega
      have ownFirst : lower.length + (blockIndex - lower.length + 1 - min count (blockIndex - lower.length + 1)) =
          lower.length := by omega
      have joined : unitsWindow (lower ++ cache.blockInfos) (firstUnit blockIndex count useGenesis) (lower.length - 1) ++
          unitsWindow (lower ++ cache.blockInfos) lower.length blockIndex =
            unitsWindow (lower ++ cache.blockInfos) (firstUnit blockIndex count useGenesis) blockIndex :=
        unitsWindow_append lowerBlocks (by simp only [firstUnit]; omega) (by omega)
      rw [Nat.min_eq_right (show lower.length - 1 ≤ blockIndex by omega), fromParents _ (by omega), sameFirst,
        ← @unitsWindow_append_of_lt lower cache.blockInfos _ (lower.length - 1) (by omega), ownFirst,
        ← List.map_append, joined]
    · have ownFirst : lower.length + (blockIndex - lower.length + 1 - min count (blockIndex - lower.length + 1)) =
          firstUnit blockIndex count useGenesis := by
        simp only [firstUnit]
        omega
      rw [List.nil_append, ownFirst]

/-- On every path of segments that makes one chain, `getLastUnits(count, blockIndex, useGenesis,
pred)` of a block of the chain gives the units of the window of the chain's block infos from
`firstUnit` to the block, oldest first. The induction runs down the path, one segment at a time. -/
theorem getLastUnits_eq_unitsWindow :
    ∀ {segments : List Segment}, ChainPath segments → ∀ {blockIndex : ℕ} (count : ℕ) (useGenesis : Bool),
      blockIndex < (chainInfos segments).length →
      getLastUnits pred segments count blockIndex useGenesis =
        (unitsWindow (chainInfos segments) (firstUnit blockIndex count useGenesis) blockIndex).map pred
  | [], _, _, _, _, onChain => absurd onChain (Nat.not_lt_zero _)
  | [.memory _], root, _, count, useGenesis, _ => getLastUnits_memory_root pred root count useGenesis
  | .memory _ :: _ :: _, ⟨lowerBlocks, start, path⟩, _, count, useGenesis, _ =>
    getLastUnits_memory_cons pred lowerBlocks start (getTopBlockIndex_of_chainPath path lowerBlocks) useGenesis
      (fun count => getLastUnits_eq_unitsWindow path count useGenesis) count
  | .database cache :: _, cached, _, count, useGenesis, onChain =>
    cache.getLastUnits_eq_unitsWindow cached pred count useGenesis onChain

end Segment

end Nox.CryptoNote
