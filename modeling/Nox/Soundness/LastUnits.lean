import Nox.Proofs.CryptoNoteCore.LastUnits
import Nox.Soundness.SegmentTree
import Nox.Model.CryptoNoteCore.BlockTemplate

/-! # The last units of a block

The difficulty and reward checks read the timestamps, sizes and cumulative difficulties of the
blocks before the one they check through `getLastUnits(count, blockIndex, useGenesis, pred)`. On
every path of segments that makes one chain, this gives exactly the units of the blocks
`max(blockIndex + 1 - count, lo) .. blockIndex`, oldest first, where `lo` is 0 with the genesis block
and 1 without it. An in-memory segment gives its own blocks and asks its parent for the rest; the
database root reads the newest units from its cache and the others from its table, for every cache
that holds the newest block infos. Such is the cache of every root a database reaches, and the empty
cache of a database opened again.
-/

namespace Nox.CryptoNote

/-- On every path of segments that makes one chain, the last-N queries of a block of the chain give
the timestamps, sizes and cumulative difficulties of the window of the chain up to the block. -/
theorem getLastUnits_exact {segments : List Segment} (path : Segment.ChainPath segments)
    (count blockIndex : ℕ) (useGenesis : Bool) (onChain : blockIndex < (Segment.chainInfos segments).length) :
    let window := unitsWindow (Segment.chainInfos segments) (firstUnit blockIndex count useGenesis) blockIndex
    Segment.getLastTimestamps segments count blockIndex useGenesis = window.map (·.timestamp) ∧
      Segment.getLastBlocksSizes segments count blockIndex useGenesis = window.map (·.blockSize.toUInt64) ∧
      Segment.getLastCumulativeDifficulties segments count blockIndex useGenesis =
        window.map (·.cumulativeDifficulty) :=
  ⟨Segment.getLastUnits_eq_unitsWindow _ path count useGenesis onChain,
    Segment.getLastUnits_eq_unitsWindow _ path count useGenesis onChain,
    Segment.getLastUnits_eq_unitsWindow _ path count useGenesis onChain⟩

namespace Scenario

/-- Blocks 1 and 2 and a second block 2 on a fresh node: the fork splits the database at block 2. -/
def forkedRun : Core :=
  (node.addRawBlocks (context noCheckpoints) [relay first, relay second, relay secondFork]).1

/-- The first segment of the main leaf's path after the fork: the upper part of the split, holding
block 2. -/
def forkedUpper : BlockchainCache :=
  match forkedRun.mainLeafSegments with
  | .memory cache :: _ => cache
  | _ => BlockchainCache.empty none 0

/-- The root under it, holding the genesis block and block 1. -/
def forkedRoot : DatabaseBlockchainCache :=
  match forkedRun.mainLeafSegments with
  | [_, .database cache] => cache
  | _ => .empty

set_option maxRecDepth 10000 in
/-- The units of the blocks up to block 2 without the genesis block: block 1 from the root and
block 2 from the segment above it. -/
theorem getLastUnits_exact_forked :
    Segment.ChainPath [.memory forkedUpper, .database forkedRoot] ∧
      2 < (Segment.chainInfos [.memory forkedUpper, .database forkedRoot]).length ∧
      let window := unitsWindow (Segment.chainInfos [.memory forkedUpper, .database forkedRoot]) (firstUnit 2 3 false) 2
      Segment.getLastTimestamps [.memory forkedUpper, .database forkedRoot] 3 2 false = window.map (·.timestamp) ∧
        Segment.getLastBlocksSizes [.memory forkedUpper, .database forkedRoot] 3 2 false =
          window.map (·.blockSize.toUInt64) ∧
        Segment.getLastCumulativeDifficulties [.memory forkedUpper, .database forkedRoot] 3 2 false =
          window.map (·.cumulativeDifficulty) := by
  have path : Segment.ChainPath [.memory forkedUpper, .database forkedRoot] := by with_unfolding_all decide
  have onChain : 2 < (Segment.chainInfos [.memory forkedUpper, .database forkedRoot]).length := by with_unfolding_all decide
  exact ⟨path, onChain, getLastUnits_exact path 3 2 false onChain⟩

end Scenario

end Nox.CryptoNote
