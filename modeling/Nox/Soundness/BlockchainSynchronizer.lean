import Nox.Proofs.Transfers.BlockchainSynchronizer
import Nox.Soundness.QueryBlocks

/-! # The synchronizer's record of the chain

A wallet that starts from the genesis block asks the node with the genesis hash and gets the chain
from block 0. Its state, which holds the genesis block, finds new blocks from height 1; the
synchronizer reads that height as 0, hands the consumer every block from the genesis block on, and
appends their hashes after the genesis block the state holds. The state then names the genesis
block at height 1 too, and every later block one height too high.

The next round's short history lists height 1, the node answers from block 0 again, and the state
leaves the answer at height 1: the consumer is detached at height 1 and handed every block from
block 0 again. It so gets the genesis block twice at height 0 without a detach at or below it, and
the state ends as it was after the first round.
-/

namespace Nox.CryptoNote

open Nox.Crypto

variable {σ : Type}

/-- A fresh state given an interval from height 0 that starts with the genesis block and goes on:
the consumer is handed every block at height 0 on, and the state appends the hashes of the blocks it
took, the genesis block's first, after the genesis block it holds. -/
theorem updateConsumer_records_genesis_twice (consumer : BlockchainConsumer σ) (consumerState : σ)
    (genesisHash : Hash) {hashes : List Hash} (blocks : List CompleteBlock) (more : hashes ≠ [])
    (added : 0 < (consumer.onNewBlocks consumerState blocks 0 blocks.length).2) :
    (BlockchainSynchronizer.updateConsumer consumer ⟨0, genesisHash :: hashes⟩ blocks
        (consumerState, .ofGenesis genesisHash)).1 =
      ((consumer.onNewBlocks consumerState blocks 0 blocks.length).1,
        ⟨genesisHash :: (genesisHash :: hashes).take (consumer.onNewBlocks consumerState blocks 0 blocks.length).2⟩) := by
  have found := SynchronizationState.checkInterval_ofGenesis genesisHash more
  -- the new blocks start at height 1, which is read as 0: the consumer is handed them all
  simp only [BlockchainSynchronizer.updateConsumer, found, Bool.false_eq_true, if_false, if_true, Nat.sub_zero,
    List.drop_zero]
  rw [if_pos added]
  rfl

namespace Scenario

/-- A consumer that records each block it is handed with its height, forgets those from a detach
height on, and takes every block. -/
def recordingConsumer : BlockchainConsumer (List (ℕ × Hash)) where
  getSyncStart _ := ⟨0, 0⟩
  onBlockchainDetach handed height := handed.filter (·.1 < height)
  onNewBlocks handed blocks startHeight count :=
    (handed ++ ((blocks.take count).zipIdx).map (fun (block, i) => (startHeight + i, block.blockHash)), count)

/-- A node with the genesis block and block 1. -/
def walletNode : Core := (node.addRawBlocks (context noCheckpoints) [relay first]).1

/-- A wallet with one fresh consumer. -/
def freshConsumers : List (List (ℕ × Hash) × SynchronizationState) := [([], .ofGenesis genesisHash)]

def firstRound : List (List (ℕ × Hash) × SynchronizationState) :=
  BlockchainSynchronizer.syncRound recordingConsumer walletNode primitives freshConsumers

def secondRound : List (List (ℕ × Hash) × SynchronizationState) :=
  BlockchainSynchronizer.syncRound recordingConsumer walletNode primitives firstRound

/-- The recording consumer handed the interval of a fresh state's first round is one case of the
theorem: it takes both blocks. -/
theorem updateConsumer_records_genesis_twice_recording :
    [genesisHash, primitives.getBlockHash first] ≠ [] ∧
      0 < (recordingConsumer.onNewBlocks [] [⟨genesisHash, none, []⟩, ⟨primitives.getBlockHash first, none, []⟩] 0 2).2 ∧
      (BlockchainSynchronizer.updateConsumer recordingConsumer ⟨0, genesisHash :: [primitives.getBlockHash first]⟩
          [⟨genesisHash, none, []⟩, ⟨primitives.getBlockHash first, none, []⟩] ([], .ofGenesis genesisHash)).1 =
        ((recordingConsumer.onNewBlocks [] [⟨genesisHash, none, []⟩, ⟨primitives.getBlockHash first, none, []⟩] 0 2).1,
          ⟨genesisHash :: (genesisHash :: [primitives.getBlockHash first]).take
            (recordingConsumer.onNewBlocks [] [⟨genesisHash, none, []⟩, ⟨primitives.getBlockHash first, none, []⟩] 0 2).2⟩) :=
  ⟨by simp, by decide,
    updateConsumer_records_genesis_twice recordingConsumer [] genesisHash
      [⟨genesisHash, none, []⟩, ⟨primitives.getBlockHash first, none, []⟩] (by simp) (by decide)⟩

set_option maxRecDepth 10000 in
/-- Against a node with the genesis block and block 1, the node answers the fresh wallet with both
blocks from height 0; after the first round the state names the genesis block at heights 0 and 1
and block 1 at height 2, though the node's block 1 is another block, and after the second the
consumer holds the genesis block twice at height 0. -/
theorem sync_rounds_misplace_blocks :
    (walletNode.doQueryBlocksLite primitives [genesisHash] 0).map
        (fun answer => (answer.1, answer.2.map fun entry => (entry.blockHash, entry.block.isSome))) =
      some (0, [(genesisHash, true), (primitives.getBlockHash first, true)]) ∧
      primitives.getBlockHash first ≠ genesisHash ∧
      firstRound = [([(0, genesisHash), (1, primitives.getBlockHash first)],
        ⟨[genesisHash, genesisHash, primitives.getBlockHash first]⟩)] ∧
      secondRound = [([(0, genesisHash), (0, genesisHash), (1, primitives.getBlockHash first)],
        ⟨[genesisHash, genesisHash, primitives.getBlockHash first]⟩)] := by
  with_unfolding_all decide

end Scenario

end Nox.CryptoNote
