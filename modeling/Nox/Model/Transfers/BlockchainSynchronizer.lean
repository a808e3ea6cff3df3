import Nox.Model.CryptoNoteCore.QueryBlocks

/-! # The wallet's block synchronizer: `Transfers/BlockchainSynchronizer.cpp`

Each consumer of the synchronizer, one per wallet container set, has a `SynchronizationState`: the
hashes of the blocks it was given, by height, from the genesis block on. A round asks the node for
the blocks after a short history of the shortest state (`getCommonHistory`), through
`NodeRpcProxy::doQueryBlocksLite` on `Core::queryBlocksLite`, and hands the answer to every consumer
(`processBlocks`, `updateConsumers`). `checkInterval` finds where a state leaves the answered
interval; the consumer is detached there, handed the blocks from there, and the state records the
hashes of the blocks the consumer took.

`updateConsumers` hands a consumer whose new blocks start at height 1 the blocks from height 0, and
`addBlocks` appends the hashes it is given after the genesis block whatever height they start at.

Heights are list positions here. The node's heights stay below `2^32 - 1`, so the `uint32_t`
arithmetic of the source does not wrap on them; `checkIfShouldStop` is taken to stay false through a
round, and the assertions are those of a release build.
-/

namespace Nox.CryptoNote

open Nox.Crypto Nox.Serialization

/-- `SynchronizationState`: the hashes of the blocks its consumer has, by height. -/
structure SynchronizationState where
  blockchain : List Hash
deriving DecidableEq, Repr

/-- `BlockchainInterval`: the hashes of consecutive blocks from `startHeight`. -/
structure BlockchainInterval where
  startHeight : ℕ
  blocks : List Hash
deriving DecidableEq, Repr

/-- `SynchronizationState::CheckResult`. -/
structure CheckResult where
  detachRequired : Bool
  detachHeight : ℕ
  hasNewBlocks : Bool
  newBlockHeight : ℕ
deriving DecidableEq, Repr

namespace SynchronizationState

variable (state : SynchronizationState)

/-- `SynchronizationState(genesisBlockHash)`. -/
def ofGenesis (genesisBlockHash : Hash) : SynchronizationState := ⟨[genesisBlockHash]⟩

/-- `getHeight`. -/
def getHeight : ℕ := state.blockchain.length

/-- The loop of `getShortHistory(localHeight)` with `fuel` rounds left: round `i` lists the hash at
`sz - currentBackOffset`; the offset grows by 1 for ten rounds and then by a doubling multiplier.
It returns the hashes listed and whether one of them was the genesis block's. -/
def shortHistoryLoop (sz : ℕ) : ℕ → ℕ → ℕ → ℕ → Bool → List Hash × Bool
  | 0, _, _, _, genesisIncluded => ([], genesisIncluded)
  | fuel + 1, i, currentMultiplier, currentBackOffset, genesisIncluded =>
    if currentBackOffset < sz then
      let listed := state.blockchain[sz - currentBackOffset]?.toList
      let genesisIncluded := genesisIncluded || sz - currentBackOffset == 0
      let (nextMultiplier, nextBackOffset) :=
        if i < 10 then (currentMultiplier, currentBackOffset + 1)
        else (currentMultiplier * 2, currentBackOffset + currentMultiplier * 2)
      let (rest, genesisIncluded) := shortHistoryLoop sz fuel (i + 1) nextMultiplier nextBackOffset genesisIncluded
      (listed ++ rest, genesisIncluded)
    else ([], genesisIncluded)

/-- `getShortHistory(localHeight)`: hashes from the block below `sz = min(size, localHeight + 1)`
back, sparser after the first ten, then the genesis block's unless the loop listed it. Each round
moves the offset up, so `sz` rounds are enough. -/
def getShortHistory (localHeight : ℕ) : List Hash :=
  let sz := min state.blockchain.length (localHeight + 1)
  if sz = 0 then []
  else
    let (history, genesisIncluded) := state.shortHistoryLoop sz sz 0 1 1 false
    if genesisIncluded then history else history ++ state.blockchain.head?.toList

/-- `checkInterval(interval)`: the first height where the state and the interval name different
blocks, where the consumer is to be detached and handed new blocks; else, when the interval goes
past the state, new blocks from the state's height. -/
def checkInterval (interval : BlockchainInterval) : CheckResult :=
  let intervalEnd := interval.startHeight + interval.blocks.length
  let iterationEnd := min state.blockchain.length intervalEnd
  match (List.range' interval.startHeight (iterationEnd - interval.startHeight)).find? fun i =>
      state.blockchain[i]? != interval.blocks[i - interval.startHeight]? with
  | some i => { detachRequired := true, detachHeight := i, hasNewBlocks := true, newBlockHeight := i }
  | none =>
    if intervalEnd > state.blockchain.length then
      { detachRequired := false, detachHeight := 0, hasNewBlocks := true, newBlockHeight := state.blockchain.length }
    else { detachRequired := false, detachHeight := 0, hasNewBlocks := false, newBlockHeight := 0 }

/-- `detach(height)`: the hashes below the height. -/
def detach (height : ℕ) : SynchronizationState := ⟨state.blockchain.take height⟩

/-- `addBlocks(blockHashes, height, count)`: the first `count` hashes go after the state's. The
height only feeds an assertion that it is the state's height, after a height 0 is read as 1. -/
def addBlocks (blockHashes : List Hash) (count : ℕ) : SynchronizationState :=
  ⟨state.blockchain ++ blockHashes.take count⟩

end SynchronizationState

/-- `CompleteBlock`: a block's hash and, from the full offset on, the block with the prefixes of its
transactions, the coinbase first. -/
structure CompleteBlock where
  blockHash : Hash
  block : Option BlockTemplate
  transactions : List TransactionPrefixInfo
deriving DecidableEq, Repr

/-- `BlockShortEntry`: a block of a lite query as the node proxy returns it; `hasBlock` is
`block.isSome`. -/
structure BlockShortEntry where
  blockHash : Hash
  block : Option BlockTemplate
  txsShortInfo : List TransactionPrefixInfo
deriving DecidableEq, Repr

/-- `SynchronizationStart`. -/
structure SynchronizationStart where
  timestamp : UInt64
  height : ℕ
deriving DecidableEq, Repr

/-- `IBlockchainConsumer` as the synchronizer calls it, over the consumer's state: where it starts,
its detach, and its block handler, which returns how many of the blocks it added. -/
structure BlockchainConsumer (σ : Type) where
  getSyncStart : σ → SynchronizationStart
  onBlockchainDetach : σ → ℕ → σ
  onNewBlocks : σ → List CompleteBlock → ℕ → ℕ → σ × ℕ

/-- `UpdateConsumersResult`. -/
inductive UpdateConsumersResult where
  | nothingChanged
  | addedNewBlocks
  | errorOccurred
deriving DecidableEq, Repr

namespace BlockchainSynchronizer

variable {σ : Type} (consumer : BlockchainConsumer σ)

/-- One consumer's turn in `updateConsumers(interval, blocks)`: detached where its state leaves the
interval, then handed the blocks from its new block height, where 1 is read as 0. It returns the
consumer and its state, whether it took blocks, whether it failed some, and the index of the last
block it took. -/
def updateConsumer (interval : BlockchainInterval) (blocks : List CompleteBlock)
    (entry : σ × SynchronizationState) : (σ × SynchronizationState) × Bool × Bool × Option ℕ :=
  let (consumerState, state) := entry
  let result := state.checkInterval interval
  let (consumerState, state) :=
    if result.detachRequired then
      (consumer.onBlockchainDetach consumerState result.detachHeight, state.detach result.detachHeight)
    else (consumerState, state)
  let newBlockHeight := if result.newBlockHeight = 1 then 0 else result.newBlockHeight
  if result.hasNewBlocks then
    let startOffset := if newBlockHeight = 0 then 0 else newBlockHeight - interval.startHeight
    let blockCount := blocks.length - startOffset
    let (consumerState, addedCount) := consumer.onNewBlocks consumerState (blocks.drop startOffset) newBlockHeight blockCount
    if addedCount > 0 then
      ((consumerState, state.addBlocks (interval.blocks.drop startOffset) addedCount), true,
        decide (addedCount < blockCount), some (startOffset + addedCount - 1))
    else ((consumerState, state), false, true, none)
  else ((consumerState, state), false, false, none)

/-- `updateConsumers(interval, blocks)` over every consumer and its state, with the last block id it
sets when some consumer took blocks: that of the smallest last index. -/
def updateConsumers (interval : BlockchainInterval) (blocks : List CompleteBlock)
    (consumers : List (σ × SynchronizationState)) :
    List (σ × SynchronizationState) × UpdateConsumersResult × Option Hash :=
  let turns := consumers.map (updateConsumer consumer interval blocks)
  let lastBlockId := (turns.filterMap (·.2.2.2)).min?.bind fun index => (blocks[index]?).map (·.blockHash)
  let result :=
    if turns.any (·.2.2.1) then .errorOccurred
    else if turns.any (·.2.1) then .addedNewBlocks
    else .nothingChanged
  (turns.map (·.1), result, lastBlockId)

/-- The complete block `processBlocks` makes of an entry: a full block carries the prefix of its
coinbase, hashed as a transaction, before those of its other transactions. -/
def completeBlock (primitives : Primitives) (entry : BlockShortEntry) : CompleteBlock :=
  match entry.block with
  | some block =>
    { blockHash := entry.blockHash, block := some block,
      transactions :=
        { txHash := primitives.getTransactionHash block.baseTransaction,
          txPrefix := block.baseTransaction.toTransactionPrefix } :: entry.txsShortInfo }
  | none => { blockHash := entry.blockHash, block := none, transactions := [] }

/-- `processBlocks(response)`: the interval of the answered hashes from the start height and the
complete blocks, handed to the consumers. -/
def processBlocks (primitives : Primitives) (startHeight : ℕ) (newBlocks : List BlockShortEntry)
    (consumers : List (σ × SynchronizationState)) :
    List (σ × SynchronizationState) × UpdateConsumersResult × Option Hash :=
  let blocks := newBlocks.map (completeBlock primitives)
  updateConsumers consumer ⟨startHeight, newBlocks.map (·.blockHash)⟩ blocks consumers

/-- `getCommonHistory()`: the short history of the shortest state, the first of the shortest, up
to the node's last local block, with the earliest start of the consumers. -/
def getCommonHistory (lastLocalBlockHeight : ℕ) : List (σ × SynchronizationState) →
    Option (List Hash × SynchronizationStart)
  | [] => none
  | first :: others =>
    let shortest := others.foldl (fun shortest entry =>
      if entry.2.getHeight < shortest.2.getHeight then entry else shortest) first
    let syncStart := others.foldl (fun start entry =>
      let consumerStart := consumer.getSyncStart entry.1
      { timestamp := min start.timestamp consumerStart.timestamp,
        height := min start.height consumerStart.height }) (consumer.getSyncStart first.1)
    some (shortest.2.getShortHistory lastLocalBlockHeight, syncStart)

end BlockchainSynchronizer

namespace Core

variable (core : Core) (primitives : Primitives)

/-- `NodeRpcProxy::doQueryBlocksLite`'s reading of an item: a nonempty block is deserialized as a
block template, and an item whose block does not read is an error. -/
def blockShortEntry (item : BlockShortInfo) : Option BlockShortEntry := do
  let block ← if item.block.isEmpty then pure none
    else ((fromBinaryArray (inputBlockTemplate unreadParentBlock) item.block).toOption).map some
  pure { blockHash := item.blockId, block := block, txsShortInfo := item.txPrefixes }

/-- `NodeRpcProxy::doQueryBlocksLite` on `/queryblockslite`, which `RpcServer` answers with
`Core::queryBlocksLite`: the start height and the entries. -/
def doQueryBlocksLite (knownBlockIds : List Hash) (timestamp : UInt64) : Option (ℕ × List BlockShortEntry) := do
  let (startIndex, _, _, items) ← core.queryBlocksLite primitives knownBlockIds timestamp
  let newBlocks ← items.mapM blockShortEntry
  pure (startIndex, newBlocks)

end Core

namespace BlockchainSynchronizer

variable {σ : Type} (consumer : BlockchainConsumer σ)

/-- A round of `startBlockchainSync` against a node: the common history up to the node's top, the
lite query, and `processBlocks`. A round without consumers or whose query fails leaves them. -/
def syncRound (core : Core) (primitives : Primitives) (consumers : List (σ × SynchronizationState)) :
    List (σ × SynchronizationState) :=
  match getCommonHistory consumer core.getTopBlockIndex consumers with
  | none => consumers
  | some (knownBlocks, syncStart) =>
    if knownBlocks.isEmpty then consumers
    else match core.doQueryBlocksLite primitives knownBlocks syncStart.timestamp with
      | some (startHeight, newBlocks) => (processBlocks consumer primitives startHeight newBlocks consumers).1
      | none => consumers

end BlockchainSynchronizer

end Nox.CryptoNote
