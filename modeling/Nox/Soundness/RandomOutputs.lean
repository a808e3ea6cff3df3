import Nox.Proofs.CryptoNoteCore.RandomOutputs
import Nox.Soundness.SegmentTree

/-! # Decoys from an in-memory segment

An in-memory segment that holds outputs of the amount draws its decoys with a generator over
`min(count, eligible)` positions, so it only ever draws among its first `count` outputs. Its other
eligible outputs are never drawn from it, whatever the engine draws, and its parent, which numbers
its own outputs below the segment's, does not return them either: a wallet never gets them as
decoys while the segment holds them.

On a node with the genesis block, block 1 and a block 2 whose coinbase pays two outputs of amount 1,
a second block 2 splits the database, and the main chain's first segment holds both outputs. Asked
for one decoy of amount 1 at block 42, where both are eligible, it only ever draws the first.
-/

namespace Nox.CryptoNote

open Nox.Crypto

/-- An output of an in-memory segment `count` or more positions past its first is returned under
no outcome of the engine, on a path whose parents answer with global indexes below the segment's
first. -/
theorem getRandomOutsByAmount_skips_late_outputs (currency : Currency) (now : UInt64) (cache : BlockchainCache)
    (parents : List Segment) (amount : UInt64) (count blockIndex : ℕ) (engine : ℕ → ℕ)
    {entry : OutputGlobalIndexesForAmount} (found : cache.keyOutputsGlobalIndexes amount = some entry)
    (parentsBelow : ∀ rest engine₀ prevs engine₁,
      Segment.getRandomOutsByAmount currency now parents amount rest blockIndex engine₀ = some (prevs, engine₁) →
        ∀ g ∈ prevs, g < entry.startIndex)
    {outs : List ℕ} {engine' : ℕ → ℕ}
    (drawn : Segment.getRandomOutsByAmount currency now (.memory cache :: parents) amount count blockIndex engine =
      some (outs, engine'))
    (offset : ℕ) (late : count ≤ offset) :
    entry.startIndex + offset ∉ outs := by
  obtain ⟨own, fromParents, rfl, -, -, within, parent⟩ := Segment.getRandomOutsByAmount_memory currency now found drawn
  rw [List.mem_append, not_or]
  constructor
  · -- the segment's own draws lie below its first `count` outputs
    intro member
    have := (within _ member).2
    omega
  · rcases parent with rfl | ⟨engine₀, parent⟩
    · exact List.not_mem_nil
    · intro member
      have := parentsBelow _ _ _ _ parent _ member
      omega

namespace Scenario

/-- A block 2 on block 1 whose coinbase pays two outputs of amount 1 and the rest of the reward. -/
def pairedSecond : BlockTemplate :=
  { block 2 (hashOf 1) 5 20 (reward secondCoins) with
    baseTransaction := { minerTransaction 2 5 (reward secondCoins) with
      outputs := [⟨1, .key ⟨keyOf 5⟩⟩, ⟨1, .key ⟨keyOf 6⟩⟩, ⟨reward secondCoins - 2, .key ⟨keyOf 7⟩⟩] } }

/-- Block 1 and the paired block 2 on a fresh node, then another block 2: the fork splits the
database at block 2. -/
def pairedRun : Core × List ErrorCode :=
  node.addRawBlocks (context noCheckpoints) [relay first, relay pairedSecond, relay secondFork]

/-- The first segment of the main chain after the fork: the upper part of the split, holding the
paired block 2. -/
def pairedUpper : BlockchainCache :=
  match pairedRun.1.mainLeafSegments with
  | .memory cache :: _ => cache
  | _ => BlockchainCache.empty none 0

/-- The root under it, holding the genesis block and block 1. -/
def pairedRoot : DatabaseBlockchainCache :=
  match pairedRun.1.mainLeafSegments with
  | [_, .database cache] => cache
  | _ => .empty

set_option maxRecDepth 10000 in
/-- The main chain's segments, asked for one decoy of amount 1 at block 42 by an engine that draws
0: the first output of the paired block. The theorem's hypotheses hold, the root having no output of
amount 1. -/
theorem getRandomOutsByAmount_skips_paired_output :
    pairedUpper.keyOutputsGlobalIndexes 1 = some ⟨0, [⟨2, 0, 0⟩, ⟨2, 0, 1⟩]⟩ ∧
      (∀ rest engine₀ prevs engine₁,
        Segment.getRandomOutsByAmount currency 1000000 [.database pairedRoot] 1 rest 42 engine₀ = some (prevs, engine₁) →
          ∀ g ∈ prevs, g < 0) ∧
      (∃ engine', Segment.getRandomOutsByAmount currency 1000000 [.memory pairedUpper, .database pairedRoot] 1 1 42
        (fun _ => 0) = some ([0], engine')) ∧
      0 + 1 ∉ [0] := by
  have found : pairedUpper.keyOutputsGlobalIndexes 1 = some ⟨0, [⟨2, 0, 0⟩, ⟨2, 0, 1⟩]⟩ := by with_unfolding_all decide
  have empty : (pairedRoot.keyOutputs 1).length = 0 := by with_unfolding_all decide
  have parentsBelow : ∀ rest engine₀ prevs engine₁,
      Segment.getRandomOutsByAmount currency 1000000 [.database pairedRoot] 1 rest 42 engine₀ = some (prevs, engine₁) →
        ∀ g ∈ prevs, g < 0 := by
    intro rest engine₀ prevs engine₁ answered g member
    have := (pairedRoot.getRandomOutsByAmount_drawn currency 1000000 1 42 answered).2.1 g member
    omega
  have answered : (Segment.getRandomOutsByAmount currency 1000000 [.memory pairedUpper, .database pairedRoot] 1 1 42
      (fun _ => 0)).map (·.1) = some [0] := by with_unfolding_all decide
  obtain ⟨⟨outs, engine'⟩, drawn, picked⟩ := Option.map_eq_some_iff.mp answered
  cases picked
  exact ⟨found, parentsBelow, ⟨engine', drawn⟩,
    getRandomOutsByAmount_skips_late_outputs currency 1000000 pairedUpper [.database pairedRoot] 1 1 42 (fun _ => 0)
      found parentsBelow drawn 1 le_rfl⟩

set_option maxRecDepth 10000 in
/-- The paired block's two outputs of amount 1 are the main chain's first segment's global indexes 0
and 1, in block 2, whose coinbase is unlocked at block 42 and which is at least the unlock window
below it; the root holds no output of amount 1. Both outputs are eligible decoys at block 42, and
asked for one, the segment draws among the first alone. -/
theorem random_outs_skip_eligible_output :
    pairedRun.2 = [.addBlock .ADDED_TO_MAIN, .addBlock .ADDED_TO_MAIN, .addBlock .ADDED_TO_ALTERNATIVE] ∧
      pairedRun.1.mainLeafSegments.length = 2 ∧
      pairedUpper.keyOutputsGlobalIndexes 1 = some ⟨0, [⟨2, 0, 0⟩, ⟨2, 0, 1⟩]⟩ ∧
      pairedUpper.transactions.map (fun info =>
          (info.blockIndex, info.transactionIndex, currency.isTransactionSpendTimeUnlocked 1000000 info.unlockTime 42)) =
        [(2, 0, true)] ∧
      2 + currency.minedMoneyUnlockWindow ≤ 42 ∧
      pairedRoot.keyOutputs 1 = [] ∧
      min 1 (Segment.eligibleEnd [⟨2, 0, 0⟩, ⟨2, 0, 1⟩]
        (UInt32.ofNat 42 - UInt32.ofNat currency.minedMoneyUnlockWindow).toNat) = 1 := by
  with_unfolding_all decide

end Scenario

end Nox.CryptoNote
