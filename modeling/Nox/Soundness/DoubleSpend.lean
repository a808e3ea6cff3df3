import Nox.Soundness.RingMembers

/-! # Spent key images across a database split

`validateTransaction` refuses a key image that `checkIfSpent` finds on the chain of the block's
previous block, and `checkIfSpent` walks the segments from that block's segment to the root. After
`DatabaseBlockchainCache::split` the segments above the split point keep the root as their parent,
although the blocks between the split point and them have moved to the new upper segment. A block
on the main leaf is then checked against a chain that lacks those blocks and the key images they
spent, and the same output is spent a second time on one chain of blocks.
-/

namespace Nox.CryptoNote

open Nox.Crypto

namespace Scenario

/-- The coins generated up to block `n` of a chain whose every block is paid the full base
reward. -/
def coinsAfter : ℕ → UInt64
  | 0 => genesisCoins
  | n + 1 => coinsAfter n + reward (coinsAfter n)

/-- A transaction spending the genesis output, at global index 0, under the key image
`keyImageOf 1`; the unlock time only tells two such transactions apart. -/
def spendGenesis (unlockTime : UInt64) : Transaction :=
  { version := 1, unlockTime := unlockTime, inputs := [.key ⟨genesisCoins, [0], keyImageOf 1⟩],
    outputs := [⟨genesisCoins, .key ⟨keyOf 90⟩⟩], extra := [], signatures := [[⟨Vector.replicate 64 0⟩]] }

/-- A block template carrying the hashes of `transactions`. -/
def withTransactions (template : BlockTemplate) (transactions : List Transaction) : BlockTemplate :=
  { template with transactionHashes := transactions.map primitives.getTransactionHash }

/-- A block and its transactions as a peer relays them. -/
def relayWith (template : BlockTemplate) (transactions : List Transaction) : RawBlock :=
  ⟨(toBinaryArray outputBlockTemplate (withTransactions template transactions)).toOption.getD [],
   transactions.map fun transaction => (toBinaryArray outputTransaction transaction).toOption.getD []⟩

/-- The previous block of block `index` on the main chain: the genesis block, or block `index - 1`,
whose nonce is its index. -/
def mainPrevious (index : ℕ) : Hash := if index = 1 then hashOf 71 else hashOf (index - 1)

/-- Block `index` of the main chain, 10 s per block. -/
def mainBlock (index : ℕ) : BlockTemplate :=
  block index (mainPrevious index) (UInt32.ofNat index) (UInt64.ofNat (10 * index))
    (reward (coinsAfter (index - 1)))

/-- Block 10 spends the genesis output; the other blocks carry no transaction. -/
def mainRaw (index : ℕ) : RawBlock :=
  if index = 10 then relayWith (mainBlock 10) [spendGenesis 0] else relay (mainBlock index)

/-- Blocks 1 to 11 of the main chain on a fresh node, all in the database root. -/
def spendRun : Core × List ErrorCode :=
  node.addRawBlocks (context noCheckpoints) ((List.range 11).map fun index => mainRaw (index + 1))

/-- A second block 11 on block 10. -/
def forkEleven : BlockTemplate := block 11 (hashOf 10) 30 111 (reward (coinsAfter 10))

/-- A second block 10 on block 9. -/
def forkTen : BlockTemplate := block 10 (hashOf 9) 31 101 (reward (coinsAfter 9))

/-- Block 12 on block 11, spending the genesis output again. -/
def twelfth : BlockTemplate := block 12 (hashOf 11) 12 120 (reward (coinsAfter 11))

/-- The main chain, two forks that split the database root at 11 and then at 10, and block 12. -/
def doubleSpendRun : Core × List ErrorCode :=
  spendRun.1.addRawBlocks (context noCheckpoints) [relay forkEleven, relay forkTen, relayWith twelfth [spendGenesis 1]]

end Scenario

open Scenario in
set_option maxRecDepth 10000 in
/-- Block 10 spends the genesis output, and block 12, on block 11 on block 10, spends it again: the
split at 10 leaves the main leaf, which holds blocks 11 and 12, under the root that now ends at
block 9, so the check of block 12 no longer sees block 10, which sits in a segment no leaf
reaches. -/
theorem double_spend_after_database_split :
    -- every block is accepted, the forks as alternative blocks and block 12 on the main chain,
    spendRun.2 = List.replicate 11 (.addBlock .ADDED_TO_MAIN) ∧
    doubleSpendRun.2 = [.addBlock .ADDED_TO_ALTERNATIVE, .addBlock .ADDED_TO_ALTERNATIVE,
      .addBlock .ADDED_TO_MAIN] ∧
    -- block 12 continues block 11, which continues block 10,
    twelfth.previousBlockHash = primitives.getBlockHash (mainBlock 11) ∧
    (mainBlock 11).previousBlockHash = primitives.getBlockHash (withTransactions (mainBlock 10) [spendGenesis 0]) ∧
    -- before the forks the main chain records the spend of block 10,
    Segment.checkIfSpent (spendRun.1.segments (spendRun.1.chainsLeaves.headD 0)) (keyImageOf 1) 11 = true ∧
    -- after them the main chain has no block 10 and records the spend only from block 12 on,
    Segment.getBlockHash (doubleSpendRun.1.segments (doubleSpendRun.1.chainsLeaves.headD 0)) 10 = none ∧
    Segment.checkIfSpent (doubleSpendRun.1.segments (doubleSpendRun.1.chainsLeaves.headD 0)) (keyImageOf 1) 11 = false ∧
    Segment.checkIfSpent (doubleSpendRun.1.segments (doubleSpendRun.1.chainsLeaves.headD 0)) (keyImageOf 1) 12 = true ∧
    -- while block 10 and its spend sit in a segment the node no longer finds.
    Segment.checkIfSpent (doubleSpendRun.1.segments 3) (keyImageOf 1) 10 = true ∧
    doubleSpendRun.1.hasBlock (primitives.getBlockHash (mainBlock 10)) = false := by
  with_unfolding_all decide

end Nox.CryptoNote
