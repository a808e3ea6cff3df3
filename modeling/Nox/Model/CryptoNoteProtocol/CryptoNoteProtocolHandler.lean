import Nox.Model.CryptoNoteCore.QueryBlocks

/-! # Answers to a peer's block requests: `CryptoNoteProtocolHandler`

A synchronising peer asks for the hashes of the main chain after the blocks it knows
(`NOTIFY_REQUEST_CHAIN`) and then for blocks by hash (`NOTIFY_REQUEST_GET_OBJECTS`). The chain
request is answered through `Core::findBlockchainSupplement` with at most
`BLOCKS_IDS_SYNCHRONIZING_DEFAULT_COUNT` hashes. The objects request passes the peer's hash list to
`Core::getBlocks`, which copies the raw block of every listed hash the core holds, once per time it
is listed.

The handlers' logging and the connection context are left out; a request that makes the handler
drop the peer is `ChainRequestOutcome.shutdown`, and a lookup that fails where the source asserts
is `none`.
-/

namespace Nox.CryptoNote

open Nox.Crypto

/-- `RawBlockLegacy`: a raw block as the protocol carries it. -/
structure RawBlockLegacy where
  block : List UInt8
  transactions : List (List UInt8)
deriving DecidableEq, Repr

/-- `convertRawBlocksToRawBlocksLegacy`. -/
def convertRawBlocksToRawBlocksLegacy (rawBlocks : List RawBlock) : List RawBlockLegacy :=
  rawBlocks.map fun rawBlock => ⟨rawBlock.block, rawBlock.transactions⟩

/-- `NOTIFY_REQUEST_GET_OBJECTS::request`. -/
structure NotifyRequestGetObjects where
  txs : List Hash
  blocks : List Hash
deriving DecidableEq, Repr

/-- `NOTIFY_RESPONSE_GET_OBJECTS::request`. -/
structure NotifyResponseGetObjects where
  txs : List (List UInt8)
  blocks : List RawBlockLegacy
  missed_ids : List Hash
  current_blockchain_height : UInt32
deriving DecidableEq, Repr

/-- `NOTIFY_REQUEST_CHAIN::request`. -/
structure NotifyRequestChain where
  block_ids : List Hash
deriving DecidableEq, Repr

/-- `NOTIFY_RESPONSE_CHAIN_ENTRY::request`. -/
structure NotifyResponseChainEntry where
  start_height : UInt32
  total_height : UInt32
  m_block_ids : List Hash
deriving DecidableEq, Repr

/-- What `handle_request_chain` does with a request: drop the peer, or post a chain entry. -/
inductive ChainRequestOutcome where
  | shutdown
  | notify (response : NotifyResponseChainEntry)
deriving DecidableEq, Repr

namespace Core

variable (core : Core)

/-- `getBlocks(blockHashes, blocks, missedHashes)`: for each listed hash in turn, the raw block
read from the segment that holds it, or the hash among the missed ones. -/
def getBlocks : List Hash → Option (List RawBlock × List Hash)
  | [] => some ([], [])
  | blockHash :: blockHashes =>
    match core.findSegmentContainingBlock blockHash with
    | none => (getBlocks blockHashes).map fun (blocks, missed) => (blocks, blockHash :: missed)
    | some pointer => do
      let segment ← core.getSegment pointer
      let blockIndex ← segment.getBlockIndex blockHash
      let rawBlock ← Segment.getBlockByIndex (core.segments pointer) blockIndex
      let (blocks, missed) ← getBlocks blockHashes
      pure (rawBlock :: blocks, missed)

/-- `findBlockchainSupplement(remoteBlockIds, maxCount, totalBlockCount, startBlockIndex)`: the
main-chain hashes from the start index, at most `maxCount` of them, with the chain's height and the
start index. -/
def findBlockchainSupplementWithCount (remoteBlockIds : List Hash) (maxCount : ℕ) :
    Option (List Hash × ℕ × ℕ) := do
  let startBlockIndex ← core.findBlockchainSupplement remoteBlockIds
  pure (Segment.getBlockHashes core.mainLeafSegments startBlockIndex maxCount, core.getTopBlockIndex + 1,
    startBlockIndex)

/-- `handle_request_get_objects`: the response it posts. -/
def handleRequestGetObjects (arg : NotifyRequestGetObjects) : Option NotifyResponseGetObjects := do
  let (rawBlocks, missed_ids) ← core.getBlocks arg.blocks
  pure { txs := [], blocks := convertRawBlocksToRawBlocksLegacy rawBlocks, missed_ids := missed_ids,
         current_blockchain_height := UInt32.ofNat (core.getTopBlockIndex + 1) }

/-- `handle_request_chain`: a request without hashes, or whose last hash is not the genesis block's,
drops the peer; any other is answered with the supplement of its hashes. -/
def handleRequestChain (arg : NotifyRequestChain) : Option ChainRequestOutcome :=
  match arg.block_ids.getLast? with
  | none => some .shutdown
  | some last =>
    if some last ≠ Segment.getBlockHash core.mainLeafSegments 0 then some .shutdown
    else do
      let (m_block_ids, total_height, start_height) ←
        core.findBlockchainSupplementWithCount arg.block_ids BLOCKS_IDS_SYNCHRONIZING_DEFAULT_COUNT
      pure (.notify ⟨UInt32.ofNat start_height, UInt32.ofNat total_height, m_block_ids⟩)

end Core

end Nox.CryptoNote
