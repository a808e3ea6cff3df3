import Nox.Soundness.SegmentTree
import Nox.Model.CryptoNoteCore.BlockTemplate
import Nox.Proofs.CryptoNoteCore.AddBlock
import Nox.Proofs.CryptoNoteCore.LastUnits

/-! # Block templates and the blocks the core accepts

A template's difficulty comes from `Core::getDifficultyForNextBlock`, which runs the difficulty
algorithm of the top block's version; `addBlock` runs that of the next block's version. The two
differ where the version changes: on top of block 2 the template uses the rounded-up algorithm of
version 2, while block 3 is checked with the rounded-down one of version 3. When block 2 comes more
than the 30 s target after block 1, the template asks for difficulty 1, and the main leaf asks
difficulty 0 of block 3, which `addBlock` rejects as a difficulty overhead: no block joins the main
chain, the template mined with any nonce among them.

`getBlockTimestampByIndex` asserts that the main leaf does not return exactly one timestamp, which
it always does for a block it holds, so a debug build stops in every template from height 60 on.
-/

namespace Nox.CryptoNote

open Nox.Crypto

namespace Core

variable (core : Core)

/-- A segment returns exactly one timestamp for a block it holds. -/
theorem getLastTimestamps_one_of_top {segment : Segment} (parents : List Segment)
    (nonempty : 0 < segment.getBlockCount) :
    (Segment.getLastTimestamps (segment :: parents) 1 segment.getTopBlockIndex true).length = 1 := by
  cases segment with
  | memory cache =>
    simp only [Segment.getBlockCount] at nonempty
    -- the segment holds its top block, so one block is read from it and none from its parents
    have notBelow : ¬ cache.startIndex + cache.blockInfos.length - 1 < cache.startIndex := by omega
    have toIndex : cache.startIndex + cache.blockInfos.length - 1 - cache.startIndex + 1 =
        cache.blockInfos.length := by omega
    have realCount : min 1 cache.blockInfos.length = 1 := by omega
    simp only [Segment.getLastTimestamps, Segment.getLastUnits, Segment.getTopBlockIndex,
      Segment.getStartBlockIndex, Segment.getBlockCount, if_neg notBelow, toIndex, realCount]
    cases parents <;> simp <;> omega
  | database cache =>
    simp only [Segment.getBlockCount] at nonempty
    have top : 0 + cache.blockInfos.length - 1 = cache.getTopBlockIndex := by
      simp [DatabaseBlockchainCache.getTopBlockIndex]
    simp only [Segment.getLastTimestamps, Segment.getLastUnits, Segment.getTopBlockIndex,
      Segment.getStartBlockIndex, Segment.getBlockCount, top]
    exact cache.length_getLastUnits_one_top _ nonempty

/-- The chain of a stored segment starts with that segment. -/
theorem segments_of_getSegment {pointer : SegmentPointer} {segment : Segment}
    (stored : core.getSegment pointer = some segment) :
    ∃ parents, core.segments pointer = segment :: parents := by
  have nonempty : core.chainsStorage.length ≠ 0 := by
    intro empty
    rw [getSegment, List.length_eq_zero_iff.mp empty] at stored
    cases stored
  obtain ⟨fuel, fuelEq⟩ := Nat.exists_eq_succ_of_ne_zero nonempty
  simp only [segments, chain, fuelEq, chainFrom, stored]
  exact ⟨_, rfl⟩

/-- The assertion of `getBlockTimestampByIndex` fails for the top block of any main leaf that holds
a block, the last timestamp every template from height 60 on reads. -/
theorem getBlockTimestampByIndexAssertion_top {segment : Segment}
    (stored : core.getSegment (core.chainsLeaves.headD 0) = some segment) (isLeaf : core.chainsLeaves ≠ [])
    (nonempty : 0 < segment.getBlockCount) :
    core.getBlockTimestampByIndexAssertion core.getTopBlockIndex = false := by
  obtain ⟨leaf, leaves, leavesEq⟩ := List.exists_cons_of_ne_nil isLeaf
  obtain ⟨parents, chainEq⟩ := core.segments_of_getSegment stored
  have top : core.getTopBlockIndex = segment.getTopBlockIndex := by
    rw [leavesEq, List.headD_cons] at stored
    simp [getTopBlockIndex, leavesEq, stored]
  simp only [getBlockTimestampByIndexAssertion, mainLeafSegments, chainEq, top,
    getLastTimestamps_one_of_top parents nonempty]
  rfl

end Core

namespace Scenario

/-- Block 2 on block 1, 90 s after it, three times the target. -/
def lateSecond : BlockTemplate := block 2 (hashOf 1) 9 100 (reward secondCoins)

/-- Blocks 1 and 2 on a fresh node, the second one late. -/
def lateRun : Core × List ErrorCode := node.addRawBlocks (context noCheckpoints) [relay first, relay lateSecond]

/-- A miner's address. -/
def miner : AccountPublicAddress := ⟨keyOf 50, keyOf 51⟩

/-- An empty pool and stand-ins for the key derivation of the miner's outputs. -/
def templateEnvironment : TemplateEnvironment :=
  { poolTransactions := [], transactionKey := ⟨keyOf 52, ⟨Vector.replicate 32 7⟩⟩,
    generateKeyDerivation := fun _ _ => some ⟨Vector.replicate 32 3⟩,
    derivePublicKey := fun _ no _ => some (keyOf (60 + no)) }

end Scenario

open Scenario in
set_option maxRecDepth 10000 in
/-- After a late block 2, the node hands out a template for block 3 at difficulty 1, which every
proof of work meets, but asks difficulty 0 of block 3 on its main leaf: no block, the template's
among them, is added to the main chain. -/
theorem template_difficulty_rejected_after_late_block :
    -- blocks 1 and 2 join the main chain,
    lateRun.2 = [.addBlock .ADDED_TO_MAIN, .addBlock .ADDED_TO_MAIN] ∧
    -- the template for block 3 has difficulty 1,
    (lateRun.1.getBlockTemplate (context noCheckpoints) templateEnvironment miner []).map (·.2) = some (1, 3) ∧
    -- the main leaf gives block 3 difficulty 0,
    Segment.getDifficultyForNextBlock currency (lateRun.1.segments 0) 2 = 0 ∧
    -- and no block is added to the main chain.
    ∀ cachedBlock rawBlock,
      (lateRun.1.addBlock (context noCheckpoints) cachedBlock rawBlock).2 ≠ .addBlock .ADDED_TO_MAIN := by
  have leaves : lateRun.1.chainsLeaves.head? = some 0 := by with_unfolding_all decide
  have overhead : Segment.getDifficultyForNextBlock currency (lateRun.1.segments 0)
      (lateRun.1.storedSegment 0).getTopBlockIndex = 0 := by with_unfolding_all decide
  refine ⟨by with_unfolding_all decide, by with_unfolding_all decide, by with_unfolding_all decide, ?_⟩
  intro cachedBlock rawBlock added
  obtain ⟨leaf, head, nonzero⟩ := Core.addBlock_added_to_main added
  rw [leaves, Option.some.injEq] at head
  subst head
  exact nonzero overhead

end Nox.CryptoNote
