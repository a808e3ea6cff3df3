import Nox.Soundness.SegmentTree

/-! # The main chain storage

The core keeps the raw blocks of its main chain in a separate storage, which `load` trusts to be a
prefix-compatible copy of the root segment. A block pushed onto the main leaf is appended to it. A
switch to another leaf pops the storage back to that leaf's start index and appends the leaf's
blocks from there: the result is the new main chain exactly when the stored blocks below the leaf's
start are already the new chain's. That holds when the new leaf's parent lies on the old main
chain, and fails when the new leaf forks off another alternative segment.
-/

namespace Nox.CryptoNote

open Nox.Crypto

/-- The raw blocks a chain of segments holds at the indexes below `count`. -/
def Segment.chainBlocks (segments : List Segment) (count : ℕ) : List RawBlock :=
  (List.range count).filterMap (Segment.getBlockByIndex segments)

namespace Core

variable (core : Core)

/-- The segments of the first leaf's chain. -/
def mainChainSegments : List Segment := core.segments (core.chainsLeaves.headD 0)

/-- The raw blocks of the main chain, from the genesis block to the top. -/
def mainChainBlocks : List RawBlock := Segment.chainBlocks core.mainChainSegments (core.getTopBlockIndex + 1)

/-- The storage holds exactly the blocks of the main chain. -/
def StorageMirrorsMainChain : Prop := core.mainChainStorage = core.mainChainBlocks

instance : Decidable core.StorageMirrorsMainChain :=
  inferInstanceAs (Decidable (core.mainChainStorage = core.mainChainBlocks))

theorem chainBlocks_split (segments : List Segment) {splitBlockIndex count : ℕ}
    (inside : splitBlockIndex ≤ count) :
    Segment.chainBlocks segments count = Segment.chainBlocks segments splitBlockIndex ++
      (List.range' splitBlockIndex (count - splitBlockIndex)).filterMap (Segment.getBlockByIndex segments) := by
  have ranges : List.range count = List.range splitBlockIndex ++ List.range' splitBlockIndex (count - splitBlockIndex) := by
    obtain ⟨extra, rfl⟩ := Nat.exists_eq_add_of_le inside
    rw [List.range_eq_range', List.range_eq_range', Nat.add_sub_cancel_left]
    simpa using (List.range'_append_1 (s := 0) (m := splitBlockIndex) (n := extra)).symm
  simp only [Segment.chainBlocks, ranges, List.filterMap_append]

/-- A switch to `newChain` from `splitBlockIndex` leaves the storage holding the new chain's blocks
exactly when the stored blocks below `splitBlockIndex` already are the new chain's. -/
theorem switchMainChainStorage_mirrors_iff (splitBlockIndex : ℕ) (newChain : List Segment)
    (inside : splitBlockIndex ≤ (newChain.head?.map (·.getTopBlockIndex)).getD 0 + 1) :
    (core.switchMainChainStorage splitBlockIndex newChain).mainChainStorage =
        Segment.chainBlocks newChain ((newChain.head?.map (·.getTopBlockIndex)).getD 0 + 1) ↔
      core.mainChainStorage.take splitBlockIndex = Segment.chainBlocks newChain splitBlockIndex := by
  rw [chainBlocks_split newChain inside]
  exact (List.append_cancel_right_eq _ _ _).to_iff

end Core

namespace Scenario

/-- A block 2 on the fork block 1. -/
def secondOnFork : BlockTemplate := block 2 (hashOf 4) 5 12 (reward secondCoins)

/-- Another block 2 on the fork block 1, one second after it. -/
def otherSecondOnFork : BlockTemplate := block 2 (hashOf 4) 6 12 (reward secondCoins)

/-- A block 3 on `otherSecondOnFork`, whose short time span makes it heavy. -/
def thirdOnFork : BlockTemplate := block 3 (hashOf 6) 7 13 (reward (secondCoins + reward secondCoins))

/-- Blocks 1 and 2, then the fork blocks 1, 2, another 2 and 3, on a fresh node. -/
def crossForkRun : Core × List ErrorCode :=
  node.addRawBlocks (context noCheckpoints)
    [relay first, relay second, relay firstFork, relay secondOnFork, relay otherSecondOnFork, relay thirdOnFork]

end Scenario

open Scenario in
set_option maxRecDepth 10000 in
/-- Blocks 1 and 2 on the database root, then a fork at block 1 that reaches block 2, a second
fork at block 2 off the first fork, and a block 3 on it that outweighs the main chain. The switch
pops the storage back only to index 2, the start of the new main leaf, so the storage keeps the old
block 1 below the new main chain's blocks 2 and 3, while the main chain's block 1 is the fork's. -/
theorem switch_across_forks_corrupts_storage :
    -- every block is accepted, and the last one makes its leaf the main one,
    crossForkRun.2 = [.addBlock .ADDED_TO_MAIN, .addBlock .ADDED_TO_MAIN, .addBlock .ADDED_TO_ALTERNATIVE,
      .addBlock .ADDED_TO_ALTERNATIVE, .addBlock .ADDED_TO_ALTERNATIVE,
      .addBlock .ADDED_TO_ALTERNATIVE_AND_SWITCHED] ∧
    -- the storage holds four blocks for the main chain's four,
    crossForkRun.1.mainChainStorage.length = crossForkRun.1.getTopBlockIndex + 1 ∧
    -- but its block 1 is the old one, where the main chain has the fork's,
    crossForkRun.1.mainChainStorage[1]? = some (relay first) ∧
    Segment.getBlockByIndex crossForkRun.1.mainChainSegments 1 = some (relay firstFork) ∧
    ¬ crossForkRun.1.StorageMirrorsMainChain := by
  with_unfolding_all decide

end Nox.CryptoNote
