import Nox.Model.CryptoNoteCore.IBlockchainCache
import Mathlib.Data.List.Sort

/-! # Currency parameters, block reward, upgrades and checkpoints

The `Currency` fields that the modelled core code reads, with the values `CurrencyBuilder` sets from
`config/CryptoNoteConfig.h`. The LWMA difficulty algorithms of `Difficulty.cpp` are functions of the
currency that this model takes as given; the older algorithm of `Currency.cpp` is computed.

`getBlockReward` follows `Currency.cpp`: the base reward is the unmined supply shifted right by the
emission speed factor, a block larger than the median is penalised quadratically (`mul128` and two
`div128_32` divisions by the median), and from block major version 2 on the fee is penalised too.
`emissionChange` is an `int64_t`; it is kept here as the `uint64_t` bit pattern that `pushBlock`
receives as `generatedCoins`.
-/

namespace Nox.CryptoNote

open Nox.Crypto

def BLOCK_MAJOR_VERSION_3 : UInt8 := 3
def UPGRADE_HEIGHT_V2 : ℕ := 1
def UPGRADE_HEIGHT_V3 : ℕ := 2
def UPGRADE_HEIGHT_V4 : ℕ := 350000
def LWMA_2_DIFFICULTY_BLOCK_INDEX : ℕ := 620000
def LWMA_2_DIFFICULTY_BLOCK_INDEX_V2 : ℕ := 700000
def LWMA_2_DIFFICULTY_BLOCK_INDEX_V3 : ℕ := 800000
def BLOCKCHAIN_TIMESTAMP_CHECK_WINDOW_V3 : ℕ := 11
def CRYPTONOTE_BLOCK_FUTURE_TIME_LIMIT_V3 : UInt64 := 3 * 30
def CRYPTONOTE_BLOCK_FUTURE_TIME_LIMIT_V4 : UInt64 := 6 * 30
def CRYPTONOTE_BLOCK_GRANTED_FULL_REWARD_ZONE_V1 : ℕ := 10000
def CRYPTONOTE_BLOCK_GRANTED_FULL_REWARD_ZONE_V2 : ℕ := 20000
def KEY_IMAGE_CHECKING_BLOCK_INDEX : ℕ := 0
def CRYPTONOTE_MINED_MONEY_UNLOCK_WINDOW : ℕ := 40
def DIFFICULTY_WINDOW_V1 : ℕ := 2880
def DIFFICULTY_WINDOW_V2 : ℕ := 2880
def DIFFICULTY_CUT_V1 : ℕ := 60
def DIFFICULTY_CUT_V2 : ℕ := 60
def DIFFICULTY_LAG_V1 : ℕ := 15
def DIFFICULTY_LAG_V2 : ℕ := 15
def DIFFICULTY_BLOCKS_COUNT_V3 : ℕ := 60 + 1

structure Currency where
  maxBlockHeight : ℕ
  maxTxSize : ℕ
  minedMoneyUnlockWindow : ℕ
  timestampCheckWindow : ℕ
  blockFutureTimeLimit : UInt64
  moneySupply : UInt64
  emissionSpeedFactor : ℕ
  genesisBlockReward : UInt64
  rewardBlocksWindow : ℕ
  blockGrantedFullRewardZone : ℕ
  maxBlockSizeInitial : ℕ
  maxBlockSizeGrowthSpeedNumerator : ℕ
  maxBlockSizeGrowthSpeedDenominator : ℕ
  lockedTxAllowedDeltaSeconds : UInt64
  lockedTxAllowedDeltaBlocks : ℕ
  minerTxBlobReservedSize : ℕ
  defaultDustThreshold : UInt64
  fusionTxMaxSize : ℕ
  upgradeHeightV2 : ℕ
  upgradeHeightV3 : ℕ
  upgradeHeightV4 : ℕ
  difficultyTarget : UInt64
  difficultyWindow : ℕ
  difficultyLag : ℕ
  difficultyCut : ℕ
  zawyDifficultyBlockIndex : ℕ
  zawyDifficultyV2 : ℕ
  zawyDifficultyBlockVersion : UInt8
  /-- `nextDifficultyV3(timestamps, cumulativeDifficulties)` of `Difficulty.cpp`. -/
  nextDifficultyV3 : List UInt64 → List UInt64 → UInt64
  /-- `nextDifficultyV4`. -/
  nextDifficultyV4 : List UInt64 → List UInt64 → UInt64
  /-- `nextDifficultyV5`. -/
  nextDifficultyV5 : List UInt64 → List UInt64 → UInt64

/-- The currency `CurrencyBuilder` builds from the configuration, over the LWMA difficulty
algorithms of `Difficulty.cpp`. -/
def Currency.ofConfig (nextDifficultyV3 nextDifficultyV4 nextDifficultyV5 : List UInt64 → List UInt64 → UInt64) :
    Currency :=
  { maxBlockHeight := 500000000, maxTxSize := 1000000000,
    minedMoneyUnlockWindow := CRYPTONOTE_MINED_MONEY_UNLOCK_WINDOW, timestampCheckWindow := 60,
    blockFutureTimeLimit := 60 * 60 * 2, moneySupply := 100000000000000, emissionSpeedFactor := 25,
    genesisBlockReward := 0, rewardBlocksWindow := 100, blockGrantedFullRewardZone := 100000,
    maxBlockSizeInitial := 100000, maxBlockSizeGrowthSpeedNumerator := 100 * 1024,
    maxBlockSizeGrowthSpeedDenominator := 365 * 24 * 60 * 60 / 30,
    lockedTxAllowedDeltaSeconds := 30, lockedTxAllowedDeltaBlocks := 1,
    minerTxBlobReservedSize := 600, defaultDustThreshold := 10, fusionTxMaxSize := 100000 * 30 / 100,
    upgradeHeightV2 := UPGRADE_HEIGHT_V2, upgradeHeightV3 := UPGRADE_HEIGHT_V3,
    upgradeHeightV4 := UPGRADE_HEIGHT_V4,
    difficultyTarget := 30, difficultyWindow := 17, difficultyLag := 0, difficultyCut := 0,
    zawyDifficultyBlockIndex := 187000, zawyDifficultyV2 := 0, zawyDifficultyBlockVersion := 3,
    nextDifficultyV3 := nextDifficultyV3, nextDifficultyV4 := nextDifficultyV4,
    nextDifficultyV5 := nextDifficultyV5 }

namespace Currency

variable (currency : Currency)

def timestampCheckWindowAt (blockHeight : ℕ) : ℕ :=
  if blockHeight ≥ LWMA_2_DIFFICULTY_BLOCK_INDEX_V3 then BLOCKCHAIN_TIMESTAMP_CHECK_WINDOW_V3
  else currency.timestampCheckWindow

def blockFutureTimeLimitAt (blockHeight : ℕ) : UInt64 :=
  if blockHeight ≥ LWMA_2_DIFFICULTY_BLOCK_INDEX_V2 then CRYPTONOTE_BLOCK_FUTURE_TIME_LIMIT_V4
  else if blockHeight ≥ LWMA_2_DIFFICULTY_BLOCK_INDEX then CRYPTONOTE_BLOCK_FUTURE_TIME_LIMIT_V3
  else currency.blockFutureTimeLimit

/-- `upgradeHeight`: no upgrade for an unknown version (`uint32_t(-1)`). -/
def upgradeHeight (majorVersion : UInt8) : ℕ :=
  if majorVersion = BLOCK_MAJOR_VERSION_2 then currency.upgradeHeightV2
  else if majorVersion = BLOCK_MAJOR_VERSION_3 then currency.upgradeHeightV3
  else if majorVersion = BLOCK_MAJOR_VERSION_4 then currency.upgradeHeightV4
  else 2 ^ 32 - 1

def maxBlockCumulativeSize (height : ℕ) : ℕ :=
  currency.maxBlockSizeInitial +
    height * currency.maxBlockSizeGrowthSpeedNumerator / currency.maxBlockSizeGrowthSpeedDenominator

def blockGrantedFullRewardZoneByBlockVersion (blockMajorVersion : UInt8) : ℕ :=
  if blockMajorVersion ≥ BLOCK_MAJOR_VERSION_3 then currency.blockGrantedFullRewardZone
  else if blockMajorVersion = BLOCK_MAJOR_VERSION_2 then CRYPTONOTE_BLOCK_GRANTED_FULL_REWARD_ZONE_V2
  else CRYPTONOTE_BLOCK_GRANTED_FULL_REWARD_ZONE_V1

/-- `isTransactionSpendTimeUnlocked(unlockTime, blockIndex)`: an unlock time below the maximal
block height is a block index, any other a time compared with the clock `now`. -/
def isTransactionSpendTimeUnlocked (now : UInt64) (unlockTime : UInt64) (blockIndex : ℕ) : Bool :=
  if unlockTime.toNat < currency.maxBlockHeight then
    decide (blockIndex + currency.lockedTxAllowedDeltaBlocks ≥ unlockTime.toNat)
  else decide (now + currency.lockedTxAllowedDeltaSeconds ≥ unlockTime)

end Currency

/-- `getPenalizedAmount` of `CryptoNoteBasicImpl.cpp`: `amount * size * (2 * median - size)`
divided twice by the median, the middle factor in `size_t` arithmetic. -/
def getPenalizedAmount (amount : UInt64) (medianSize currentBlockSize : ℕ) : UInt64 :=
  if amount = 0 then 0
  else if currentBlockSize ≤ medianSize then amount
  else
    let multiplier := currentBlockSize * (2 * medianSize - currentBlockSize) % 2 ^ 64
    UInt64.ofNat (amount.toNat * multiplier / medianSize / medianSize)

namespace Currency

variable (currency : Currency)

/-- `getBlockReward`: `none` when the block is larger than twice the effective median, otherwise
the reward and the emission change. -/
def getBlockReward (blockMajorVersion : UInt8) (medianSize currentBlockSize : ℕ)
    (alreadyGeneratedCoins fee : UInt64) : Option (UInt64 × UInt64) :=
  let baseReward :=
    if alreadyGeneratedCoins = 0 ∧ currency.genesisBlockReward ≠ 0 then currency.genesisBlockReward
    else (currency.moneySupply - alreadyGeneratedCoins) >>> currency.emissionSpeedFactor.toUInt64
  let medianSize := max medianSize (currency.blockGrantedFullRewardZoneByBlockVersion blockMajorVersion)
  if currentBlockSize > 2 * medianSize then none
  else
    let penalizedBaseReward := getPenalizedAmount baseReward medianSize currentBlockSize
    let penalizedFee :=
      if blockMajorVersion ≥ BLOCK_MAJOR_VERSION_2 then getPenalizedAmount fee medianSize currentBlockSize
      else fee
    some (penalizedBaseReward + penalizedFee, penalizedBaseReward - (fee - penalizedFee))

end Currency

/-- `Common::medianValue`: the middle of the sorted values, the mean of the two middle ones for an
even count (their sum in `uint64_t`), and 0 for none. -/
def medianValue (values : List UInt64) : UInt64 :=
  match values with
  | [] => 0
  | [value] => value
  | _ =>
    let sorted := values.insertionSort (· ≤ ·)
    let n := values.length / 2
    if values.length % 2 = 1 then sorted.getD n 0
    else (sorted.getD (n - 1) 0 + sorted.getD n 0) / 2

/-- The sorted part of a difficulty window that `nextDifficulty` measures: all of it when it is
short, else the middle `window - 2 * cut` entries. -/
def difficultyCutRange (length window cut : ℕ) : ℕ × ℕ :=
  if length ≤ window - 2 * cut then (0, length)
  else
    let cutBegin := (length - (window - 2 * cut) + 1) / 2
    (cutBegin, cutBegin + (window - 2 * cut))

/-- The time span and the work of a window from `cutBegin` to `cutEnd`: the timestamps are
sorted, the cumulative difficulties are not. A zero span counts as one second. -/
def difficultySpanAndWork (timestamps cumulativeDifficulties : List UInt64) (cutBegin cutEnd : ℕ) :
    UInt64 × UInt64 :=
  let sorted := timestamps.insertionSort (· ≤ ·)
  let timeSpan := sorted.getD (cutEnd - 1) 0 - sorted.getD cutBegin 0
  (if timeSpan = 0 then 1 else timeSpan,
   cumulativeDifficulties.getD (cutEnd - 1) 0 - cumulativeDifficulties.getD cutBegin 0)

/-- `mul128(a, b, &high)`: the low and the high word of the product. -/
def mul128 (a b : UInt64) : UInt64 × UInt64 :=
  (UInt64.ofNat (a.toNat * b.toNat % 2 ^ 64), UInt64.ofNat (a.toNat * b.toNat / 2 ^ 64))

/-- The largest `uint64_t`. -/
def UINT64_MAX : UInt64 := 0xFFFFFFFFFFFFFFFF

namespace Currency

variable (currency : Currency)

def difficultyWindowByBlockVersion (blockMajorVersion : UInt8) : ℕ :=
  if blockMajorVersion ≥ BLOCK_MAJOR_VERSION_3 then currency.difficultyWindow
  else if blockMajorVersion = BLOCK_MAJOR_VERSION_2 then DIFFICULTY_WINDOW_V2
  else DIFFICULTY_WINDOW_V1

def difficultyLagByBlockVersion (blockMajorVersion : UInt8) : ℕ :=
  if blockMajorVersion ≥ BLOCK_MAJOR_VERSION_3 then currency.difficultyLag
  else if blockMajorVersion = BLOCK_MAJOR_VERSION_2 then DIFFICULTY_LAG_V2
  else DIFFICULTY_LAG_V1

def difficultyCutByBlockVersion (blockMajorVersion : UInt8) : ℕ :=
  if blockMajorVersion ≥ BLOCK_MAJOR_VERSION_3 then currency.difficultyCut
  else if blockMajorVersion = BLOCK_MAJOR_VERSION_2 then DIFFICULTY_CUT_V2
  else DIFFICULTY_CUT_V1

def difficultyBlocksCountByBlockVersion (blockMajorVersion : UInt8) (height : ℕ) : ℕ :=
  if height ≥ LWMA_2_DIFFICULTY_BLOCK_INDEX then DIFFICULTY_BLOCKS_COUNT_V3
  else currency.difficultyWindowByBlockVersion blockMajorVersion +
    currency.difficultyLagByBlockVersion blockMajorVersion

/-- The recomputation of `nextDifficulty` from `ZAWY_DIFFICULTY_BLOCK_INDEX` on: the last entries
of the given lists, at most 17 and as many as the window kept, with no cut, and at least 100. -/
def zawyBlockIndexDifficulty (timestamps cumulativeDifficulties : List UInt64) (length : ℕ) : UInt64 :=
  let window := min 17 length
  if window ≤ 1 then 1
  else
    let (timeSpan, totalWork) := difficultySpanAndWork (timestamps.drop (timestamps.length - window))
      (cumulativeDifficulties.drop (cumulativeDifficulties.length - window)) 0 window
    let (low, high) := mul128 totalWork currency.difficultyTarget
    if high ≠ 0 ∨ UINT64_MAX - low < timeSpan - 1 then 0
    else max (low / timeSpan) 100

/-- `nextDifficulty(version, blockIndex, timestamps, cumulativeDifficulties)`: the work of the
window per second of its sorted, cut time span, times the target. From the zawy block version on
the quotient is rounded down, before it up; from the zawy block index on an older version
recomputes it over the last 17 blocks. Zero means overflow. -/
def nextDifficulty (version : UInt8) (blockIndex : ℕ) (timestamps cumulativeDifficulties : List UInt64) :
    UInt64 :=
  let window := currency.difficultyWindowByBlockVersion version
  let (resizedTimestamps, resizedDifficulties) :=
    if timestamps.length > window then (timestamps.take window, cumulativeDifficulties.take window)
    else (timestamps, cumulativeDifficulties)
  let length := resizedTimestamps.length
  if length ≤ 1 then 1
  else
    let (cutBegin, cutEnd) := difficultyCutRange length window (currency.difficultyCutByBlockVersion version)
    let (timeSpan, totalWork) := difficultySpanAndWork resizedTimestamps resizedDifficulties cutBegin cutEnd
    let (low, high) := mul128 totalWork currency.difficultyTarget
    if high ≠ 0 ∨ UINT64_MAX - low < timeSpan - 1 then 0
    else
      let zawyVersion := if currency.zawyDifficultyV2 ≠ 0 then 2 else currency.zawyDifficultyBlockVersion
      if version ≥ zawyVersion ∧ zawyVersion ≠ 0 then low / timeSpan
      else if currency.zawyDifficultyBlockIndex ≠ 0 ∧ currency.zawyDifficultyBlockIndex ≤ blockIndex then
        currency.zawyBlockIndexDifficulty timestamps cumulativeDifficulties length
      else (low + timeSpan - 1) / timeSpan

/-- `getNextDifficulty`: the LWMA algorithms from their block indexes on, `nextDifficulty` before. -/
def getNextDifficulty (version : UInt8) (blockIndex : ℕ) (timestamps cumulativeDifficulties : List UInt64) :
    UInt64 :=
  if blockIndex ≥ LWMA_2_DIFFICULTY_BLOCK_INDEX_V3 then currency.nextDifficultyV5 timestamps cumulativeDifficulties
  else if blockIndex ≥ LWMA_2_DIFFICULTY_BLOCK_INDEX_V2 then currency.nextDifficultyV4 timestamps cumulativeDifficulties
  else if blockIndex ≥ LWMA_2_DIFFICULTY_BLOCK_INDEX then currency.nextDifficultyV3 timestamps cumulativeDifficulties
  else currency.nextDifficulty version blockIndex timestamps cumulativeDifficulties

end Currency

/-- `UpgradeManager`: the target versions with their upgrade indexes, in increasing version order. -/
structure UpgradeManager where
  upgradeDetectors : List (UInt8 × ℕ)

/-- `getBlockMajorVersion`: the newest version whose upgrade index lies below the block index. -/
def UpgradeManager.getBlockMajorVersion (manager : UpgradeManager) (blockIndex : ℕ) : UInt8 :=
  ((manager.upgradeDetectors.reverse.find? (fun detector => detector.2 < blockIndex)).map (·.1)).getD
    BLOCK_MAJOR_VERSION_1

/-- The upgrade manager of `Core`, which knows versions 2, 3 and 4. -/
def Currency.coreUpgradeManager (currency : Currency) : UpgradeManager :=
  ⟨[(BLOCK_MAJOR_VERSION_2, currency.upgradeHeight BLOCK_MAJOR_VERSION_2),
    (BLOCK_MAJOR_VERSION_3, currency.upgradeHeight BLOCK_MAJOR_VERSION_3),
    (BLOCK_MAJOR_VERSION_4, currency.upgradeHeight BLOCK_MAJOR_VERSION_4)]⟩

/-- The upgrade manager that `getBlockMajorVersionForHeight` of both segment kinds builds, which
knows versions 2 and 3 only. -/
def Currency.segmentUpgradeManager (currency : Currency) : UpgradeManager :=
  ⟨[(BLOCK_MAJOR_VERSION_2, currency.upgradeHeight BLOCK_MAJOR_VERSION_2),
    (BLOCK_MAJOR_VERSION_3, currency.upgradeHeight BLOCK_MAJOR_VERSION_3)]⟩

/-- `Checkpoints`: the `std::map` from block index to block hash, as its entries in increasing
index order. -/
structure Checkpoints where
  points : List (ℕ × Hash)
  ordered : (points.map Prod.fst).Pairwise (· < ·)

namespace Checkpoints

variable (checkpoints : Checkpoints)

/-- `isInCheckpointZone`: at or below the last checkpoint. -/
def isInCheckpointZone (index : ℕ) : Bool :=
  match checkpoints.points.getLast? with
  | none => false
  | some last => decide (index ≤ last.1)

/-- `checkBlock`: a checkpoint index must carry the checkpoint hash; any other index passes. -/
def checkBlock (index : ℕ) (hash : Hash) : Bool :=
  match checkpoints.points.lookup index with
  | none => true
  | some expected => decide (expected = hash)

/-- `isAlternativeBlockAllowed`: an alternative block must lie above the last checkpoint at or below
the chain size. -/
def isAlternativeBlockAllowed (blockchainSize blockIndex : ℕ) : Bool :=
  if blockchainSize = 0 then false
  else match (checkpoints.points.filter (fun point => point.1 ≤ blockchainSize)).getLast? with
    | none => true
    | some point => decide (point.1 < blockIndex)

end Checkpoints

end Nox.CryptoNote
