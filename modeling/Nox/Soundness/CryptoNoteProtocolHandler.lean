import Nox.Proofs.CryptoNoteProtocol.CryptoNoteProtocolHandler
import Nox.Soundness.QueryBlocks

/-! # A peer's objects request is answered in full

The chain request is bounded: its entry never holds more than `BLOCKS_IDS_SYNCHRONIZING_DEFAULT_COUNT`
hashes. The objects request is not: the handler answers every hash the peer lists, and a hash the
node holds, listed `n` times, brings its raw block `n` times. A request of 32-byte hashes that fits
in the 100 MB Levin limit lists about three million of them; on a fresh node one listing the
genesis hash 101 times already brings more than `BLOCKS_SYNCHRONIZING_DEFAULT_COUNT` blocks.
-/

namespace Nox.CryptoNote

open Nox.Crypto

/-- Chain entries hold at most `BLOCKS_IDS_SYNCHRONIZING_DEFAULT_COUNT` hashes; an objects response
has a block or a missed hash for each requested hash; and a hash the node serves, requested `n`
times, is answered with `n` blocks, for every `n`. -/
theorem handleRequestGetObjects_unbounded :
    (∀ (core : Core) (arg : NotifyRequestChain) (response : NotifyResponseChainEntry),
      core.handleRequestChain arg = some (.notify response) →
        response.m_block_ids.length ≤ BLOCKS_IDS_SYNCHRONIZING_DEFAULT_COUNT) ∧
      (∀ (core : Core) (arg : NotifyRequestGetObjects) (response : NotifyResponseGetObjects),
        core.handleRequestGetObjects arg = some response →
          response.blocks.length + response.missed_ids.length = arg.blocks.length) ∧
      ∀ (core : Core) (blockHash : Hash) (rawBlock : RawBlock), core.getBlocks [blockHash] = some ([rawBlock], []) →
        ∀ n, (core.handleRequestGetObjects ⟨[], List.replicate n blockHash⟩).map (·.blocks.length) = some n :=
  ⟨fun core _ _ answered => core.length_handleRequestChain_le answered,
    fun core _ _ answered => core.handleRequestGetObjects_length answered,
    fun core _ _ served n => core.handleRequestGetObjects_replicate served n⟩

namespace Scenario

/-- A fresh node asked for the genesis block 101 times answers with 101 blocks, more than
`BLOCKS_SYNCHRONIZING_DEFAULT_COUNT`. -/
theorem handleRequestGetObjects_unbounded_genesis :
    node.getBlocks [genesisHash] = some ([relay genesis], []) ∧
      (node.handleRequestGetObjects ⟨[], List.replicate 101 genesisHash⟩).map (·.blocks.length) = some 101 ∧
      BLOCKS_SYNCHRONIZING_DEFAULT_COUNT < 101 := by
  have served : node.getBlocks [genesisHash] = some ([relay genesis], []) := by decide
  exact ⟨served, handleRequestGetObjects_unbounded.2.2 node genesisHash (relay genesis) served 101, by decide⟩

end Scenario

end Nox.CryptoNote
