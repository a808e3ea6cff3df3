import Nox.Model.CryptoNoteProtocol.CryptoNoteProtocolHandler
import Nox.Proofs.CryptoNoteCore.QueryBlocks

/-! # How large the answers to a peer's block requests are

`getBlocks` sorts every listed hash into a block or a missed hash, in the order listed, so an
objects response has one entry per requested hash, repeats included. A chain entry holds at most
`BLOCKS_IDS_SYNCHRONIZING_DEFAULT_COUNT` hashes, since the supplement asks the main chain for no
more.
-/

namespace Nox.CryptoNote

open Nox.Crypto

namespace Core

variable (core : Core)

/-- Every listed hash gives a block or a missed hash. -/
theorem getBlocks_length : ∀ {blockHashes : List Hash} {blocks : List RawBlock} {missed : List Hash},
    core.getBlocks blockHashes = some (blocks, missed) → blocks.length + missed.length = blockHashes.length
  | [], blocks, missed, found => by
    cases found
    rfl
  | blockHash :: blockHashes, blocks, missed, found => by
    rw [getBlocks] at found
    split at found
    · obtain ⟨⟨restBlocks, restMissed⟩, rest, produced⟩ := Option.map_eq_some_iff.mp found
      cases produced
      have := getBlocks_length rest
      simp only [List.length_cons]
      omega
    · simp only [bind, Option.bind_eq_some_iff, pure, Option.some.injEq] at found
      obtain ⟨_, -, _, -, _, -, ⟨restBlocks, restMissed⟩, rest, produced⟩ := found
      cases produced
      have := getBlocks_length rest
      simp only [List.length_cons]
      omega

/-- A hash the core serves, listed `n` times, is served `n` times. -/
theorem getBlocks_replicate {blockHash : Hash} {rawBlock : RawBlock}
    (served : core.getBlocks [blockHash] = some ([rawBlock], [])) :
    ∀ n, core.getBlocks (List.replicate n blockHash) = some (List.replicate n rawBlock, []) := by
  -- the lookups of one hash do not depend on the hashes after it
  rw [getBlocks] at served
  split at served
  · simp [getBlocks] at served
  · rename_i pointer found
    simp only [bind, Option.bind_eq_some_iff, pure, Option.some.injEq, getBlocks] at served
    obtain ⟨segment, segmentFound, blockIndex, indexFound, block, blockFound, rest, restEq, produced⟩ := served
    cases restEq
    simp only [Prod.mk.injEq, List.cons.injEq] at produced
    obtain ⟨⟨rfl, -⟩, -⟩ := produced
    intro n
    induction n with
    | zero => rfl
    | succ n ih =>
      simp [List.replicate_succ, getBlocks, found, segmentFound, indexFound, blockFound, ih]

/-- The supplement holds at most the hashes asked for. -/
theorem findBlockchainSupplementWithCount_length_le {remoteBlockIds : List Hash} {maxCount : ℕ}
    {hashes : List Hash} {totalBlockCount startBlockIndex : ℕ}
    (found : core.findBlockchainSupplementWithCount remoteBlockIds maxCount =
      some (hashes, totalBlockCount, startBlockIndex)) :
    hashes.length ≤ maxCount := by
  simp only [findBlockchainSupplementWithCount, bind, pure, Option.bind_eq_some_iff, Option.some.injEq] at found
  obtain ⟨start, -, produced⟩ := found
  cases produced
  exact Segment.length_getBlockHashes_le _ _ _

/-- A chain entry holds at most `BLOCKS_IDS_SYNCHRONIZING_DEFAULT_COUNT` hashes. -/
theorem length_handleRequestChain_le {arg : NotifyRequestChain} {response : NotifyResponseChainEntry}
    (answered : core.handleRequestChain arg = some (.notify response)) :
    response.m_block_ids.length ≤ BLOCKS_IDS_SYNCHRONIZING_DEFAULT_COUNT := by
  unfold handleRequestChain at answered
  split at answered
  · cases answered
  · split_ifs at answered
    · cases answered
    · simp only [bind, Option.bind_eq_some_iff] at answered
      obtain ⟨⟨hashes, totalBlockCount, startBlockIndex⟩, found, produced⟩ := answered
      cases produced
      exact core.findBlockchainSupplementWithCount_length_le found

/-- An objects response has one block or missed hash for each requested hash. -/
theorem handleRequestGetObjects_length {arg : NotifyRequestGetObjects} {response : NotifyResponseGetObjects}
    (answered : core.handleRequestGetObjects arg = some response) :
    response.blocks.length + response.missed_ids.length = arg.blocks.length := by
  simp only [handleRequestGetObjects, bind, pure, Option.bind_eq_some_iff, Option.some.injEq] at answered
  obtain ⟨⟨rawBlocks, missed⟩, found, rfl⟩ := answered
  simpa [convertRawBlocksToRawBlocksLegacy] using core.getBlocks_length found

/-- A hash the core serves, requested `n` times, is answered with `n` blocks. -/
theorem handleRequestGetObjects_replicate {blockHash : Hash} {rawBlock : RawBlock}
    (served : core.getBlocks [blockHash] = some ([rawBlock], [])) (n : ℕ) :
    (core.handleRequestGetObjects ⟨[], List.replicate n blockHash⟩).map (·.blocks.length) = some n := by
  simp [handleRequestGetObjects, core.getBlocks_replicate served n, convertRawBlocksToRawBlocksLegacy]

end Core

end Nox.CryptoNote
