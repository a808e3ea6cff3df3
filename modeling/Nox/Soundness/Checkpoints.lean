import Nox.Soundness.SegmentTree

/-! # Checkpoints

A block in the checkpoint zone, at or below the last checkpoint, is checked against the checkpoint
hash of its index instead of for proof of work, and its transactions are not checked against the
chain. `Checkpoints::isAlternativeBlockAllowed` refuses an alternative block at or below the last
checkpoint the chain has reached, but `addBlock` never asks it: a block between two checkpoints
that forks off the main chain below the last checkpoint is stored as an alternative block.
-/

namespace Nox.CryptoNote

open Nox.Crypto

namespace Scenario

/-- Checkpoints at the genesis block and at block 2. -/
def lowCheckpoints : Checkpoints := ⟨[(0, hashOf 71), (2, hashOf 2)], by decide⟩

/-- Blocks 1 and 2 under those checkpoints, on a fresh node. -/
def checkpointRun : Core × List ErrorCode :=
  node.addRawBlocks (context lowCheckpoints) [relay first, relay second]

end Scenario

open Scenario in
set_option maxRecDepth 10000 in
/-- With checkpoints at the genesis block and at block 2, the main chain reaches the last
checkpoint with blocks 1 and 2. A second block 1 on the genesis block, which the checkpoints' rule
refuses as an alternative block, is accepted: block 1 has no checkpoint, and the checkpoint zone
replaces the proof of work by that missing hash check. -/
theorem alternative_block_below_checkpoint_accepted :
    -- the main chain reaches the last checkpoint,
    checkpointRun.2 = [.addBlock .ADDED_TO_MAIN, .addBlock .ADDED_TO_MAIN] ∧
    checkpointRun.1.getTopBlockIndex = 2 ∧
    -- the checkpoints refuse an alternative block 1 on a chain of three blocks,
    lowCheckpoints.isAlternativeBlockAllowed (checkpointRun.1.getTopBlockIndex + 1) 1 = false ∧
    -- and the core adds it as one.
    (checkpointRun.1.addRawBlock (context lowCheckpoints) (relay firstFork)).2 = .addBlock .ADDED_TO_ALTERNATIVE ∧
    (checkpointRun.1.addRawBlock (context lowCheckpoints) (relay firstFork)).1.hasBlock
      (primitives.getBlockHash firstFork) = true := by
  with_unfolding_all decide

end Nox.CryptoNote
