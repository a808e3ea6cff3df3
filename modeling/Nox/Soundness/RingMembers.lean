import Nox.Soundness.SegmentTree

/-! # Ring members

`validateTransaction` turns the relative output indexes of a key input into global indexes and asks
the chain for the keys of those outputs. An in-memory segment resolves the indexes it holds and
rejects one past its outputs. The database root reads the requested indexes in one batch and calls
back only for those it found, so an index past its outputs is dropped, and the ring signature is
checked against fewer keys than the ring names: the verdict depends on which kind of segment holds
the chain.
-/

namespace Nox.CryptoNote

open Nox.Crypto

namespace Scenario

/-- The key image whose last byte is `n`, all others zero. -/
def keyImageOf (n : ℕ) : KeyImage := ⟨(Vector.replicate 31 0).push (UInt8.ofNat n)⟩

/-- A transaction whose one input names a ring of one output of the genesis amount, at global
index 5. -/
def missingRingMember : CachedTransaction :=
  ⟨{ version := 1, unlockTime := 0, inputs := [.key ⟨genesisCoins, [5], keyImageOf 1⟩],
     outputs := [⟨genesisCoins, .key ⟨keyOf 9⟩⟩], extra := [],
     signatures := [[⟨Vector.replicate 64 0⟩]] }, []⟩

/-- The in-memory root a node builds from the genesis block. -/
def memoryRoot : BlockchainCache :=
  (BlockchainCache.ofGenesisBlock primitives ⟨genesis⟩).toOption.getD (BlockchainCache.empty none 0)

/-- The node's context with a ring signature check that fails every ring. -/
def strictContext : CoreContext :=
  { context noCheckpoints with
    primitives := { primitives with checkRingSignature := fun _ _ _ _ _ => false } }

end Scenario

open Scenario in
/-- Both roots hold the genesis block and its one output of the genesis amount. Validated for the
block after the genesis block, a ring naming the output at global index 5 is rejected as an invalid
global index on the in-memory root. On the database root the index is dropped: the signature check
gets an empty ring, and the transaction is accepted when that check passes and rejected for its
signature otherwise. -/
theorem ring_member_resolution_depends_on_root :
    -- both roots are built from the genesis block,
    (BlockchainCache.ofGenesisBlock primitives ⟨genesis⟩).toOption.isSome = true ∧
    (DatabaseBlockchainCache.ofGenesisBlock primitives ⟨genesis⟩).toOption.isSome = true ∧
    -- each holds one output of the genesis amount,
    Segment.getKeyOutputsCountForAmount [.memory memoryRoot] genesisCoins 1 = 1 ∧
    Segment.getKeyOutputsCountForAmount [.database root] genesisCoins 1 = 1 ∧
    -- the in-memory root rejects the ring member,
    (context noCheckpoints).validateTransaction [.memory memoryRoot] missingRingMember ⟨[]⟩ 0 =
      .error .INPUT_INVALID_GLOBAL_INDEX ∧
    strictContext.validateTransaction [.memory memoryRoot] missingRingMember ⟨[]⟩ 0 =
      .error .INPUT_INVALID_GLOBAL_INDEX ∧
    -- the database root resolves the ring to no key at all,
    Segment.extractKeyOutputKeys currency 1000000 [.database root] genesisCoins 0 [5] = .ok [] ∧
    -- and its verdict is the signature check's.
    (context noCheckpoints).validateTransaction [.database root] missingRingMember ⟨[]⟩ 0 =
      .ok (0, ⟨[keyImageOf 1]⟩) ∧
    strictContext.validateTransaction [.database root] missingRingMember ⟨[]⟩ 0 =
      .error .INPUT_INVALID_SIGNATURES := by
  decide

end Nox.CryptoNote
