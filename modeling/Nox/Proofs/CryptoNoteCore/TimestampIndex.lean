import Nox.Proofs.CryptoNoteCore.PushBlock

/-! # The closest-timestamp table of the database root

`pushBlock` files each block under the midnight of its timestamp when that midnight has no entry
yet, so the table names, for each day it holds, the first block stamped that day, and it holds the
day of every block (`DayIndexed`). `getTimestampLowerBoundBlockIndex` walks back from the
timestamp's midnight one day at a time, one database read per day, and answers with the entry of
the first day it finds.

On a chain whose timestamps never decrease the answer is sound: every block below it is older than
the timestamp. The walk's length is the distance from the timestamp's day back to the latest day the
table holds, so it grows with the timestamp.
-/

namespace Nox.CryptoNote

namespace DatabaseBlockchainCache

/-- The midnight `pushBlock` files a timestamp under. -/
def midnightOf (timestamp : UInt64) : UInt64 := timestamp / ONE_DAY_SECONDS * ONE_DAY_SECONDS

/-- The table of a database root built block by block: the root holds a block, each entry names the
first block stamped on its midnight's day, and the midnight of every block has an entry. -/
structure DayIndexed (cache : DatabaseBlockchainCache) : Prop where
  nonempty : cache.blockInfos ≠ []
  first : ∀ entry ∈ cache.closestTimestampBlockIndex,
    cache.blockInfos.findIdx? (fun info => midnightOf info.timestamp == entry.1) = some entry.2
  covered : ∀ info ∈ cache.blockInfos,
    (cache.closestTimestampBlockIndex.lookup (midnightOf info.timestamp)).isSome

instance (cache : DatabaseBlockchainCache) : Decidable (DayIndexed cache) :=
  decidable_of_iff (cache.blockInfos ≠ [] ∧
      (∀ entry ∈ cache.closestTimestampBlockIndex,
        cache.blockInfos.findIdx? (fun info => midnightOf info.timestamp == entry.1) = some entry.2) ∧
      ∀ info ∈ cache.blockInfos, (cache.closestTimestampBlockIndex.lookup (midnightOf info.timestamp)).isSome)
    ⟨fun ⟨nonempty, first, covered⟩ => ⟨nonempty, first, covered⟩,
      fun ⟨nonempty, first, covered⟩ => ⟨nonempty, first, covered⟩⟩

theorem toNat_midnightOf (timestamp : UInt64) :
    (midnightOf timestamp).toNat = timestamp.toNat / 86400 * 86400 := by
  have below : timestamp.toNat / 86400 * 86400 < 2 ^ 64 :=
    lt_of_le_of_lt (Nat.div_mul_le_self _ _) timestamp.toNat_lt
  simp only [midnightOf, ONE_DAY_SECONDS, UInt64.toNat_mul, UInt64.toNat_div]
  exact Nat.mod_eq_of_lt below

/-- The midnight of day `days`, for a day of `time_t`. -/
theorem toNat_dayMidnight {days : ℕ} (inRange : days * 86400 < 2 ^ 64) :
    (UInt64.ofNat days * ONE_DAY_SECONDS).toNat = days * 86400 := by
  have fits : days < 2 ^ 64 := by omega
  simp only [ONE_DAY_SECONDS, UInt64.toNat_mul, UInt64.toNat_ofNat', Nat.mod_eq_of_lt fits]
  exact Nat.mod_eq_of_lt inRange

/-- A timestamp filed under the midnight of `day` lies in that day. -/
theorem day_of_midnightOf_eq {timestamp : UInt64} {day : ℕ} (inRange : day * 86400 < 2 ^ 64)
    (filed : midnightOf timestamp = UInt64.ofNat day * ONE_DAY_SECONDS) : timestamp.toNat / 86400 = day := by
  have onNat := congrArg UInt64.toNat filed
  rw [toNat_midnightOf, toNat_dayMidnight inRange] at onNat
  exact Nat.eq_of_mul_eq_mul_right (by norm_num) onNat

theorem mem_of_lookup_eq_some {table : List (UInt64 × ℕ)} {midnight : UInt64} {blockIndex : ℕ}
    (found : table.lookup midnight = some blockIndex) : (midnight, blockIndex) ∈ table := by
  obtain ⟨before, after, rfl, -⟩ := List.lookup_eq_some_iff.mp found
  simp

/-- The day loop answers with the entry of some day at or below its start, or with 0. -/
theorem closestBlockIndexBefore_spec (cache : DatabaseBlockchainCache) (days : ℕ) :
    (∃ day, 0 < day ∧ day ≤ days ∧ cache.closestTimestampBlockIndex.lookup (UInt64.ofNat day * ONE_DAY_SECONDS) =
        some (cache.closestBlockIndexBefore days)) ∨
      cache.closestBlockIndexBefore days = 0 := by
  induction days with
  | zero => exact .inr rfl
  | succ days ih =>
    rw [closestBlockIndexBefore]
    split
    · rename_i blockIndex found
      exact .inl ⟨days + 1, Nat.succ_pos days, le_rfl, found⟩
    · obtain ⟨day, positive, below, found⟩ | zero := ih
      · exact .inl ⟨day, positive, by omega, found⟩
      · exact .inr zero

/-- What `pushBlock` does to the block infos and the table: one info with the block's timestamp
goes on top, and its midnight is filed under the new index unless the table holds it. -/
theorem pushBlock_dayFields (primitives : Primitives) (cache : DatabaseBlockchainCache) (cachedBlock : CachedBlock)
    (transactions : List CachedTransaction) (validatorState : TransactionValidatorState) (blockSize : ℕ)
    (generatedCoins blockDifficulty : UInt64) (rawBlock : RawBlock) :
    ∃ info : CachedBlockInfo, info.timestamp = cachedBlock.block.timestamp ∧
      (cache.pushBlock primitives cachedBlock transactions validatorState blockSize generatedCoins blockDifficulty
        rawBlock).blockInfos = cache.blockInfos ++ [info] ∧
      (cache.pushBlock primitives cachedBlock transactions validatorState blockSize generatedCoins blockDifficulty
        rawBlock).closestTimestampBlockIndex =
        if (cache.closestTimestampBlockIndex.lookup (midnightOf cachedBlock.block.timestamp)).isSome then
          cache.closestTimestampBlockIndex
        else cache.closestTimestampBlockIndex ++ [(midnightOf cachedBlock.block.timestamp, cache.getTopBlockIndex + 1)] :=
  by
  simp only [pushBlock, pushTransactions_blockInfos, pushTransactions_closestTimestampBlockIndex, midnightOf]
  exact ⟨_, rfl, rfl, rfl⟩

/-- `pushBlock` keeps the table indexed by day. -/
theorem DayIndexed.pushBlock {cache : DatabaseBlockchainCache} (indexed : DayIndexed cache) (primitives : Primitives)
    (cachedBlock : CachedBlock) (transactions : List CachedTransaction) (validatorState : TransactionValidatorState)
    (blockSize : ℕ) (generatedCoins blockDifficulty : UInt64) (rawBlock : RawBlock) :
    DayIndexed (cache.pushBlock primitives cachedBlock transactions validatorState blockSize generatedCoins
      blockDifficulty rawBlock) := by
  obtain ⟨info, stamped, infos, table⟩ := pushBlock_dayFields primitives cache cachedBlock transactions
    validatorState blockSize generatedCoins blockDifficulty rawBlock
  have position : cache.getTopBlockIndex + 1 = cache.blockInfos.length := by
    have := List.length_pos_iff.mpr indexed.nonempty
    unfold getTopBlockIndex
    omega
  -- an entry of the old table still names the first block of its day
  have kept : ∀ entry ∈ cache.closestTimestampBlockIndex,
      (cache.blockInfos ++ [info]).findIdx? (fun info => midnightOf info.timestamp == entry.1) = some entry.2 := by
    intro entry member
    rw [List.findIdx?_append, indexed.first entry member, Option.some_or]
  refine ⟨by simp [infos], ?_, ?_⟩
  · rw [infos, table]
    split_ifs with filed
    · exact kept
    · intro entry member
      rcases List.mem_append.mp member with old | new
      · exact kept entry old
      · -- a day the table lacks has no earlier block, so the new block is its first
        rw [List.mem_singleton] at new
        subst new
        have noEarlier : cache.blockInfos.findIdx?
            (fun other => midnightOf other.timestamp == midnightOf cachedBlock.block.timestamp) = none := by
          rw [List.findIdx?_eq_none_iff]
          intro other member
          by_contra sameDay
          rw [Bool.not_eq_false, beq_iff_eq] at sameDay
          exact filed (sameDay ▸ indexed.covered other member)
        rw [List.findIdx?_append, noEarlier, List.findIdx?_singleton, stamped]
        simp [position]
  · rw [infos, table]
    intro other member
    split_ifs with filed
    · rcases List.mem_append.mp member with old | new
      · exact indexed.covered other old
      · rw [List.mem_singleton.mp new, stamped]
        exact filed
    · rw [List.lookup_append]
      rcases List.mem_append.mp member with old | new
      · simp [indexed.covered other old]
      · rw [List.mem_singleton.mp new, stamped]
        simp

/-- The root built from a genesis block is indexed by day. -/
theorem DayIndexed.ofGenesisBlock {primitives : Primitives} {genesisBlock : CachedBlock}
    {cache : DatabaseBlockchainCache} (built : DatabaseBlockchainCache.ofGenesisBlock primitives genesisBlock = .ok cache) :
    DayIndexed cache := by
  simp only [DatabaseBlockchainCache.ofGenesisBlock, bind, Except.bind] at built
  split at built
  · cases built
  · split at built
    · rename_i midnight rounded
      have filed : midnight = midnightOf genesisBlock.block.timestamp := by
        unfold roundToMidnight at rounded
        split_ifs at rounded
        exact (Option.some.inj rounded).symm
      cases built
      refine ⟨by simp, ?_, ?_⟩
      · intro entry member
        rw [List.mem_singleton.mp member, List.findIdx?_singleton, filed]
        simp
      · intro other member
        rw [List.mem_singleton.mp member, filed]
        simp
    · cases built

/-- The database roots a node builds without splitting: its genesis root, then block after block
pushed on top. -/
inductive Built : DatabaseBlockchainCache → Prop
  | genesis {primitives : Primitives} {genesisBlock : CachedBlock} {cache : DatabaseBlockchainCache} :
      DatabaseBlockchainCache.ofGenesisBlock primitives genesisBlock = .ok cache → Built cache
  | push {cache : DatabaseBlockchainCache} (primitives : Primitives) (cachedBlock : CachedBlock)
      (transactions : List CachedTransaction) (validatorState : TransactionValidatorState) (blockSize : ℕ)
      (generatedCoins blockDifficulty : UInt64) (rawBlock : RawBlock) :
      Built cache → Built (cache.pushBlock primitives cachedBlock transactions validatorState blockSize generatedCoins
        blockDifficulty rawBlock)

/-- Every root built block by block is indexed by day. -/
theorem Built.dayIndexed {cache : DatabaseBlockchainCache} (built : Built cache) : DayIndexed cache := by
  induction built with
  | genesis created => exact DayIndexed.ofGenesisBlock created
  | push primitives cachedBlock transactions validatorState blockSize generatedCoins blockDifficulty rawBlock _
      indexed =>
    exact indexed.pushBlock primitives cachedBlock transactions validatorState blockSize generatedCoins
      blockDifficulty rawBlock

/-- The day loop reads the table once for each day from its start down to a day the table holds. -/
theorem le_closestBlockIndexReads (cache : DatabaseBlockchainCache) (lastDay : ℕ) (days : ℕ)
    (absent : ∀ day, lastDay < day → day ≤ days →
      cache.closestTimestampBlockIndex.lookup (UInt64.ofNat day * ONE_DAY_SECONDS) = none) :
    days - lastDay ≤ cache.closestBlockIndexReads days := by
  induction days with
  | zero => simp
  | succ days ih =>
    rw [closestBlockIndexReads]
    by_cases past : lastDay < days + 1
    · rw [absent (days + 1) past le_rfl]
      dsimp only
      have := ih fun day later below => absent day later (by omega)
      omega
    · omega

/-- A timestamp in the range of `time_t` rounds to its midnight, on day `timestamp / 86400`. -/
theorem roundToMidnight_of_le {timestamp : UInt64} (inRange : timestamp.toNat ≤ 0x7FFFFFFFFFFFFFFF) :
    roundToMidnight timestamp = some (midnightOf timestamp) ∧
      (midnightOf timestamp / ONE_DAY_SECONDS).toNat = timestamp.toNat / 86400 := by
  have notPast : ¬ timestamp > 0x7FFFFFFFFFFFFFFF := by
    rw [gt_iff_lt, UInt64.lt_iff_toNat_lt]
    exact Nat.not_lt.mpr inRange
  refine ⟨by simp [roundToMidnight, notPast, midnightOf], ?_⟩
  rw [UInt64.toNat_div, toNat_midnightOf]
  simp [ONE_DAY_SECONDS]

/-- For a timestamp in the range of `time_t` the lower bound is the day loop from its day. -/
theorem getTimestampLowerBoundBlockIndex_eq (cache : DatabaseBlockchainCache) {timestamp : UInt64}
    (inRange : timestamp.toNat ≤ 0x7FFFFFFFFFFFFFFF) :
    cache.getTimestampLowerBoundBlockIndex timestamp = some (cache.closestBlockIndexBefore (timestamp.toNat / 86400)) := by
  obtain ⟨rounded, days⟩ := roundToMidnight_of_le inRange
  rw [getTimestampLowerBoundBlockIndex, rounded, Option.map_some, days]

theorem getTimestampLowerBoundBlockIndexReads_eq (cache : DatabaseBlockchainCache) {timestamp : UInt64}
    (inRange : timestamp.toNat ≤ 0x7FFFFFFFFFFFFFFF) :
    cache.getTimestampLowerBoundBlockIndexReads timestamp = cache.closestBlockIndexReads (timestamp.toNat / 86400) := by
  obtain ⟨rounded, days⟩ := roundToMidnight_of_le inRange
  rw [getTimestampLowerBoundBlockIndexReads, rounded]
  dsimp only
  rw [days]

/-- On a root indexed by day whose timestamps never decrease, the lower bound of a timestamp in the
range of `time_t` is at most the top and every block below it is older than the timestamp. -/
theorem getTimestampLowerBoundBlockIndex_sorted {cache : DatabaseBlockchainCache} (indexed : DayIndexed cache)
    (sorted : cache.blockInfos.Pairwise fun earlier later => earlier.timestamp ≤ later.timestamp)
    {timestamp : UInt64} (inRange : timestamp.toNat ≤ 0x7FFFFFFFFFFFFFFF) :
    ∃ blockIndex, cache.getTimestampLowerBoundBlockIndex timestamp = some blockIndex ∧
      blockIndex ≤ cache.getTopBlockIndex ∧
      ∀ earlier < blockIndex, ∀ info ∈ cache.blockInfos[earlier]?, info.timestamp < timestamp := by
  refine ⟨_, getTimestampLowerBoundBlockIndex_eq cache inRange, ?_⟩
  obtain ⟨day, -, below, found⟩ | zero := closestBlockIndexBefore_spec cache (timestamp.toNat / 86400)
  · -- the entry of `day` names the first block stamped that day; blocks before it are of earlier days
    set first := cache.closestBlockIndexBefore (timestamp.toNat / 86400)
    have inRangeDay : day * 86400 < 2 ^ 64 := by omega
    obtain ⟨inside, firstOfDay, earlierDays⟩ :=
      List.findIdx?_eq_some_iff_getElem.mp (indexed.first _ (mem_of_lookup_eq_some found))
    dsimp only at inside firstOfDay earlierDays
    have firstDay := day_of_midnightOf_eq inRangeDay (beq_iff_eq.mp firstOfDay)
    refine ⟨by unfold getTopBlockIndex; omega, fun earlier before info got => ?_⟩
    obtain ⟨within, rfl⟩ := List.getElem?_eq_some_iff.mp got
    have otherDay : cache.blockInfos[earlier].timestamp.toNat / 86400 ≠ day := by
      intro sameDay
      apply earlierDays earlier before
      rw [beq_iff_eq, ← UInt64.toNat_inj, toNat_midnightOf, toNat_dayMidnight inRangeDay, sameDay]
    have older := List.pairwise_iff_getElem.mp sorted earlier first within inside before
    rw [UInt64.le_iff_toNat_le] at older
    rw [UInt64.lt_iff_toNat_lt]
    omega
  · rw [zero]
    exact ⟨Nat.zero_le _, fun earlier before => absurd before (Nat.not_lt_zero _)⟩

/-- The midnight of a timestamp's day, as the day loop spells it. -/
theorem dayMidnight_eq_midnightOf {timestamp : UInt64} (inRange : timestamp.toNat ≤ 0x7FFFFFFFFFFFFFFF) :
    UInt64.ofNat (timestamp.toNat / 86400) * ONE_DAY_SECONDS = midnightOf timestamp := by
  rw [← UInt64.toNat_inj, toNat_dayMidnight (by omega), toNat_midnightOf]

/-- On the day of a timestamp the table holds, the lower bound reads the table once. -/
theorem getTimestampLowerBoundBlockIndexReads_of_filed (cache : DatabaseBlockchainCache) {timestamp : UInt64}
    (inRange : timestamp.toNat ≤ 0x7FFFFFFFFFFFFFFF) (pastEpochDay : 0 < timestamp.toNat / 86400)
    (filed : (cache.closestTimestampBlockIndex.lookup (midnightOf timestamp)).isSome) :
    cache.getTimestampLowerBoundBlockIndexReads timestamp = 1 := by
  rw [getTimestampLowerBoundBlockIndexReads_eq cache inRange]
  obtain ⟨blockIndex, found⟩ := Option.isSome_iff_exists.mp filed
  rw [← dayMidnight_eq_midnightOf inRange] at found
  obtain ⟨days, previous⟩ : ∃ days, timestamp.toNat / 86400 = days + 1 := ⟨_, (Nat.succ_pred_eq_of_pos pastEpochDay).symm⟩
  rw [previous] at found ⊢
  rw [closestBlockIndexReads, found]

/-- Past the latest day the table holds, the lower bound reads the table once for each day back
to it. -/
theorem le_getTimestampLowerBoundBlockIndexReads (cache : DatabaseBlockchainCache) {timestamp : UInt64}
    (inRange : timestamp.toNat ≤ 0x7FFFFFFFFFFFFFFF) (lastDay : ℕ)
    (latest : ∀ entry ∈ cache.closestTimestampBlockIndex, entry.1.toNat / 86400 ≤ lastDay) :
    timestamp.toNat / 86400 - lastDay ≤ cache.getTimestampLowerBoundBlockIndexReads timestamp := by
  rw [getTimestampLowerBoundBlockIndexReads_eq cache inRange]
  apply le_closestBlockIndexReads
  intro day later below
  -- an entry at the midnight of `day` would lie past the latest day
  cases found : cache.closestTimestampBlockIndex.lookup (UInt64.ofNat day * ONE_DAY_SECONDS) with
  | none => rfl
  | some blockIndex =>
    have filed := latest _ (mem_of_lookup_eq_some found)
    rw [toNat_dayMidnight (by omega)] at filed
    omega

end DatabaseBlockchainCache

end Nox.CryptoNote
