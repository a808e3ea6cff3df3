import Nox.Proofs.CryptoNoteCore.TimestampIndex
import Nox.Soundness.QueryBlocks

/-! # Where a wallet's block query starts, and what it costs

The database root answers `getTimestampLowerBoundBlockIndex` from its closest-timestamp table. On a
root built block by block whose timestamps never decrease, every block below the answer is older
than the timestamp, so a wallet that starts from its creation time misses no block after it. Block
timestamps need not increase, though: a node accepts a block stamped a day before its parent. The
table then files the earlier day under the later block, and the query starts past the block with the
later stamp, which the wallet receives as a hash alone.

The walk back through the table reads the database once per day from the timestamp's day down to the
latest day the table holds: once for the day of a block, and about `10 ^ 14` times for the largest
timestamp that `roundToMidnight` accepts, on the same chain.
-/

namespace Nox.CryptoNote

open Nox.Crypto DatabaseBlockchainCache

/-- On a database root built block by block whose timestamps never decrease, the lower bound of
every timestamp in the range of `time_t` is a block index at most the top, and every block below it
is older than the timestamp. -/
theorem getTimestampLowerBoundBlockIndex_sorted_root (cache : DatabaseBlockchainCache) (built : Built cache)
    (sorted : cache.blockInfos.Pairwise fun earlier later => earlier.timestamp ≤ later.timestamp)
    (timestamp : UInt64) (inRange : timestamp.toNat ≤ 0x7FFFFFFFFFFFFFFF) :
    ∃ blockIndex, cache.getTimestampLowerBoundBlockIndex timestamp = some blockIndex ∧
      blockIndex ≤ cache.getTopBlockIndex ∧
      ∀ earlier < blockIndex, ∀ info ∈ cache.blockInfos[earlier]?, info.timestamp < timestamp :=
  getTimestampLowerBoundBlockIndex_sorted built.dayIndexed sorted inRange

/-- The lower bound reads the database once for each day from the timestamp's day back to the
latest day the table holds, and once on a day the table holds: how many reads it makes is set by
the timestamp. -/
theorem getTimestampLowerBoundBlockIndexReads_by_timestamp (cache : DatabaseBlockchainCache) (lastDay : ℕ)
    (latest : ∀ entry ∈ cache.closestTimestampBlockIndex, entry.1.toNat / 86400 ≤ lastDay) :
    (∀ timestamp : UInt64, timestamp.toNat ≤ 0x7FFFFFFFFFFFFFFF →
      timestamp.toNat / 86400 - lastDay ≤ cache.getTimestampLowerBoundBlockIndexReads timestamp) ∧
      ∀ timestamp : UInt64, timestamp.toNat ≤ 0x7FFFFFFFFFFFFFFF → 0 < timestamp.toNat / 86400 →
        (cache.closestTimestampBlockIndex.lookup (midnightOf timestamp)).isSome →
        cache.getTimestampLowerBoundBlockIndexReads timestamp = 1 :=
  ⟨fun _ inRange => le_getTimestampLowerBoundBlockIndexReads cache inRange lastDay latest,
    fun _ inRange pastEpochDay filed => getTimestampLowerBoundBlockIndexReads_of_filed cache inRange pastEpochDay filed⟩

namespace Scenario

/-- The fresh node's root, built from the configured genesis block. -/
theorem root_built : Built root := by
  have created : (DatabaseBlockchainCache.ofGenesisBlock primitives ⟨genesis⟩).toOption.isSome = true := by
    decide
  unfold root
  cases built : DatabaseBlockchainCache.ofGenesisBlock primitives ⟨genesis⟩ with
  | error message => simp [built, Except.toOption] at created
  | ok cache => exact Built.genesis built

/-- On the fresh node, every block below the lower bound of day 10 is older than it. -/
theorem getTimestampLowerBoundBlockIndex_sorted_root_fresh :
    (root.blockInfos.Pairwise fun earlier later => earlier.timestamp ≤ later.timestamp) ∧
      (920000 : UInt64).toNat ≤ 0x7FFFFFFFFFFFFFFF ∧
      ∃ blockIndex, root.getTimestampLowerBoundBlockIndex 920000 = some blockIndex ∧
        blockIndex ≤ root.getTopBlockIndex ∧
        ∀ earlier < blockIndex, ∀ info ∈ root.blockInfos[earlier]?, info.timestamp < 920000 := by
  have sorted : root.blockInfos.Pairwise fun earlier later => earlier.timestamp ≤ later.timestamp := by
    decide
  have inRange : (920000 : UInt64).toNat ≤ 0x7FFFFFFFFFFFFFFF := by decide
  exact ⟨sorted, inRange, getTimestampLowerBoundBlockIndex_sorted_root root root_built sorted 920000 inRange⟩

/-- Block 1 stamped on day 11, at the node's clock. -/
def stampedLate : BlockTemplate := block 1 (hashOf 71) 1 1000000 (reward genesisCoins)

/-- Block 2 stamped on day 10, a day before its parent. -/
def stampedEarly : BlockTemplate := block 2 (hashOf 1) 2 900000 (reward secondCoins)

/-- Both blocks relayed to a fresh node. -/
def stampRun : Core × List ErrorCode :=
  node.addRawBlocks (context noCheckpoints) [relay stampedLate, relay stampedEarly]

/-- The root the main chain of `stampRun` starts from. -/
def stampRoot : DatabaseBlockchainCache :=
  match stampRun.1.mainLeafSegments with
  | .database cache :: _ => cache
  | _ => .empty

set_option maxRecDepth 10000 in
/-- The node accepts a block stamped a day before its parent; its table, indexed by day, files day 10
under block 2, so the lower bound of a day-10 timestamp is 2 and a block query from the genesis block
returns block 1, stamped after the timestamp, as a hash alone. -/
theorem getTimestampLowerBoundBlockIndex_skips_later_stamp :
    stampRun.2 = [.addBlock .ADDED_TO_MAIN, .addBlock .ADDED_TO_MAIN] ∧
      stampRoot.blockInfos.map (·.timestamp) = [0, 1000000, 900000] ∧
      DayIndexed stampRoot ∧
      stampRoot.closestTimestampBlockIndex = [(0, 0), (950400, 1), (864000, 2)] ∧
      Segment.getTimestampLowerBoundBlockIndex stampRun.1.mainLeafSegments 920000 = some 2 ∧
      stampRun.1.queryBlocks [genesisHash] 920000 =
        some (0, 2, 2, [⟨genesisHash, ⟨[], []⟩⟩, ⟨hashOf 1, ⟨[], []⟩⟩]) := by
  with_unfolding_all decide

set_option maxRecDepth 10000 in
/-- On that chain, the lower bound of a day-11 timestamp reads the table once, and that of the
largest timestamp `roundToMidnight` accepts more than `10 ^ 14` times. -/
theorem getTimestampLowerBoundBlockIndexReads_by_timestamp_stamped :
    (∀ entry ∈ stampRoot.closestTimestampBlockIndex, entry.1.toNat / 86400 ≤ 11) ∧
      stampRoot.getTimestampLowerBoundBlockIndexReads 1000000 = 1 ∧
      106751991167289 ≤ stampRoot.getTimestampLowerBoundBlockIndexReads 0x7FFFFFFFFFFFFFFF := by
  have latest : ∀ entry ∈ stampRoot.closestTimestampBlockIndex, entry.1.toNat / 86400 ≤ 11 := by
    with_unfolding_all decide
  have reads := getTimestampLowerBoundBlockIndexReads_by_timestamp stampRoot 11 latest
  have filed : (stampRoot.closestTimestampBlockIndex.lookup (midnightOf 1000000)).isSome := by
    with_unfolding_all decide
  exact ⟨latest, reads.2 1000000 (by decide) (by decide) filed, reads.1 0x7FFFFFFFFFFFFFFF (by decide)⟩

end Scenario

end Nox.CryptoNote
