import Nox.Proofs.CryptoNoteCore.QueryBlocks
import Nox.Soundness.SegmentTree

/-! # What a block query returns near the top

`queryBlocks` and `queryBlocksLite` answer alike up to the fill step, which counts the blocks from
the full offset differently. The full variant fills at most `currentIndex - fullOffset` blocks, one
fewer than there are from the full offset to the top: whenever its answer reaches the full offset,
it stops below the top block, which the lite variant includes. On a fresh node the full query
returns no entry at all and the lite one the genesis block.
-/

namespace Nox.CryptoNote

open Nox.Crypto

/-- Whenever the full offset is not past the top, the entries of `queryBlocks` end before the top
block: there are at most `currentIndex - startIndex` of them from the start index. -/
theorem queryBlocks_stops_before_top (core : Core) (blockHashes : List Hash) (timestamp : UInt64)
    {startIndex currentIndex fullOffset : ℕ} {entries : List BlockFullInfo}
    (answered : core.queryBlocks blockHashes timestamp = some (startIndex, currentIndex, fullOffset, entries))
    (reachesTop : fullOffset ≤ currentIndex) (fits : currentIndex < 2 ^ 32) :
    startIndex + entries.length ≤ currentIndex := by
  simp only [Core.queryBlocks, bind, pure, Option.bind_eq_some_iff] at answered
  obtain ⟨start, -, offset, offsetFound, answered⟩ := answered
  have ordered := core.le_of_queryFullOffset offsetFound
  have hashesBound := core.length_pushBlockHashes_le start offset BLOCKS_IDS_SYNCHRONIZING_DEFAULT_COUNT
  split_ifs at answered with early
  · -- some hashes before the full offset are missing: no block data follows them
    simp only [Option.some.injEq, Prod.mk.injEq] at answered
    obtain ⟨rfl, rfl, rfl, rfl⟩ := answered
    simp only [List.length_map]
    omega
  · obtain ⟨full, filled, answered⟩ := Option.bind_eq_some_iff.mp answered
    simp only [Option.some.injEq, Prod.mk.injEq] at answered
    obtain ⟨rfl, rfl, rfl, rfl⟩ := answered
    have fullCount := core.length_fillQueryBlockFullInfo filled reachesTop fits
    simp only [List.length_append, List.length_map]
    omega

namespace Scenario

/-- The configured genesis block's hash. -/
def genesisHash : Hash := primitives.getBlockHash genesis

/-- On a fresh node, asked from the genesis hash and timestamp 0, the full query has its full offset
at the top and returns no entry, while the lite query returns the genesis block. -/
theorem queryBlocks_misses_genesis_top :
    node.queryBlocks [genesisHash] 0 = some (0, 0, 0, []) ∧
      (node.queryBlocksLite primitives [genesisHash] 0).map (·.2.2.2.length) = some 1 := by
  decide

/-- The full query on a fresh node is a case of the bound: no entry from the start index reaches
the top block 0. -/
theorem queryBlocks_stops_before_genesis_top :
    node.queryBlocks [genesisHash] 0 = some (0, 0, 0, []) ∧ 0 ≤ 0 ∧ 0 < 2 ^ 32 ∧
      0 + ([] : List BlockFullInfo).length ≤ 0 := by
  have answered : node.queryBlocks [genesisHash] 0 = some (0, 0, 0, []) := by decide
  exact ⟨answered, Nat.le_refl 0, by decide,
    queryBlocks_stops_before_top node [genesisHash] 0 answered (Nat.le_refl 0) (by decide)⟩

end Scenario

end Nox.CryptoNote
