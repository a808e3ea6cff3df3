import Nox.Model.CryptoNoteCore.BlockTemplate
import Nox.Model.Common.ShuffleGenerator

/-! # Decoys for a ring: `getRandomOutsByAmount` and `Core::getRandomOutputs`

A wallet asks the node for random outputs of an amount to mix its own with. The node draws them on
the main leaf's path of segments with `ShuffleGenerator`s over the random engine.

An in-memory segment holding outputs of the amount takes the prefix of its outputs up to the last
one in a block at least `minedMoneyUnlockWindow` below the asked block, draws `min(count, prefix)`
distinct positions below that minimum, keeps those whose transaction is unlocked, and asks its
parent for what is missing. The database root draws from all its outputs of the amount, in batches
of what is still missing, keeps those in a block far enough below and unlocked, and stops when it has
enough or the generator runs out.

The engine is a stream of draws, the state the calls pass on: each generator takes the next draws of
the stream, one for each value it hands out. A throw of the source is `none`.
-/

namespace Nox.CryptoNote

open Nox.Crypto Nox.Common

namespace ShuffleGenerator

/-- `count` calls of the generator: `none` where a call throws `SequenceEnded`. -/
def drawMany : Nox.Common.ShuffleGenerator → ℕ → Option (List ℕ × Nox.Common.ShuffleGenerator)
  | generator, 0 => some ([], generator)
  | generator, count + 1 => do
    let (value, generator) ← generator.next
    let (values, generator) ← drawMany generator count
    pure (value :: values, generator)

end ShuffleGenerator

namespace Segment

variable (currency : Currency) (now : UInt64)

/-- The end of `find_if(outs.rbegin(), outs.rend(), blockIndex <= upperBlockIndex).base()`: the
length of the prefix that ends at the last output of a block at or below `upperBlockIndex`. -/
def eligibleEnd (outputs : List PackedOutIndex) (upperBlockIndex : ℕ) : ℕ :=
  (outputs.reverse.dropWhile fun index => !decide (index.blockIndex ≤ upperBlockIndex)).length

/-- The drawing loop of `BlockchainCache::getRandomOutsByAmount`, `dist` rounds over the generator
of `dist` positions: a drawn position whose transaction is unlocked at `blockIndex` gives its
global index. The source dereferences the transaction it looks up; a lookup that fails is `none`. -/
def randomOwnOutsLoop (cache : BlockchainCache) (entry : OutputGlobalIndexesForAmount) (blockIndex : ℕ) :
    ℕ → Nox.Common.ShuffleGenerator → Option (List ℕ × Nox.Common.ShuffleGenerator)
  | 0, generator => some ([], generator)
  | dist + 1, generator => do
    let (offset, generator) ← generator.next
    let outIndex ← entry.outputs[offset]?
    let info ← cache.transactions.find? fun info =>
      info.blockIndex == outIndex.blockIndex && info.transactionIndex == outIndex.transactionIndex
    let (offs, generator) ← randomOwnOutsLoop cache entry blockIndex dist generator
    pure (if currency.isTransactionSpendTimeUnlocked now info.unlockTime blockIndex then
      (entry.startIndex + offset) :: offs else offs, generator)

end Segment

namespace DatabaseBlockchainCache

variable (cache : DatabaseBlockchainCache) (currency : Currency) (now : UInt64)

/-- `requestPackedOutputs` and `requestExtendedTransactionInfos` for drawn global indexes: where
each output is, and its transaction's record, found through the hashes of its block. -/
def drawnTransactions (amount : UInt64) (globalIndexes : List ℕ) : Option (List ExtendedTransactionInfo) := do
  let outputs ← globalIndexes.mapM fun globalIndex => ((cache.keyOutputs amount)[globalIndex]?).map (·.1)
  outputs.mapM fun output => do
    let transactionHash ← (cache.transactionHashesByBlocks[output.blockIndex]?).bind (·[output.transactionIndex]?)
    cache.transactions.find? (·.transactionHash == transactionHash)

/-- The loop over a batch's transactions: the draws whose transaction is unlocked and in a block at
or below the upper block index. -/
def keptDraws (blockIndex : ℕ) (globalIndexes : List ℕ) (transactions : List ExtendedTransactionInfo) : List ℕ :=
  let upperBlockIndex :=
    if blockIndex > currency.minedMoneyUnlockWindow then blockIndex - currency.minedMoneyUnlockWindow else 0
  ((globalIndexes.zip transactions).filter fun (_, info) =>
    currency.isTransactionSpendTimeUnlocked now info.unlockTime blockIndex &&
      decide (info.blockIndex ≤ upperBlockIndex)).map (·.1)

/-- The loop of `DatabaseBlockchainCache::getRandomOutsByAmount` with `fuel` rounds left: a batch of
`outputsToPick` draws, of which those unlocked and in a block at or below the upper block index are
kept. A batch the generator cannot fill ends the call with what it has. Each batch draws one value
at least, so the generator's count is enough rounds. -/
def randomOutsLoop (amount : UInt64) (blockIndex : ℕ) :
    ℕ → ℕ → Nox.Common.ShuffleGenerator → List ℕ → Option (List ℕ × Nox.Common.ShuffleGenerator)
  | 0, _, generator, resultOuts => some (resultOuts, generator)
  | fuel + 1, outputsToPick, generator, resultOuts =>
    if outputsToPick = 0 then some (resultOuts, generator)
    else match ShuffleGenerator.drawMany generator outputsToPick with
      | none => some (resultOuts, generator)
      | some (globalIndexes, generator) => do
        let transactions ← cache.drawnTransactions amount globalIndexes
        let kept := keptDraws currency now blockIndex globalIndexes transactions
        randomOutsLoop amount blockIndex fuel (outputsToPick - kept.length) generator (resultOuts ++ kept)

/-- `DatabaseBlockchainCache::getRandomOutsByAmount(amount, count, blockIndex)`. -/
def getRandomOutsByAmount (amount : UInt64) (count blockIndex : ℕ) (engine : ℕ → ℕ) :
    Option (List ℕ × (ℕ → ℕ)) := do
  let outputsCount := (cache.keyOutputs amount).length
  let outputsToPick := min count outputsCount
  let (resultOuts, generator) ←
    cache.randomOutsLoop currency now amount blockIndex (outputsCount + 1) outputsToPick
      (.new outputsCount engine) []
  pure (resultOuts, generator.generator)

end DatabaseBlockchainCache

namespace Segment

variable (currency : Currency) (now : UInt64)

/-- `getRandomOutsByAmount(amount, count, blockIndex)` on a path of segments, with the engine's
draws; a segment without outputs of the amount passes the request to its parent, and one that got
fewer than `count` asks its parent for the rest. The upper block index is `uint32_t` arithmetic. -/
def getRandomOutsByAmount : List Segment → UInt64 → ℕ → ℕ → (ℕ → ℕ) → Option (List ℕ × (ℕ → ℕ))
  | [], _, _, _, engine => some ([], engine)
  | .memory cache :: parents, amount, count, blockIndex, engine =>
    match cache.keyOutputsGlobalIndexes amount with
    | none => getRandomOutsByAmount parents amount count blockIndex engine
    | some entry => do
      let upperBlockIndex := (UInt32.ofNat blockIndex - UInt32.ofNat currency.minedMoneyUnlockWindow).toNat
      let dist := min count (eligibleEnd entry.outputs upperBlockIndex)
      let (offs, generator) ← randomOwnOutsLoop currency now cache entry blockIndex dist (.new dist engine)
      if offs.length < count ∧ parents ≠ [] then
        let (prevs, engine) ← getRandomOutsByAmount parents amount (count - offs.length) blockIndex generator.generator
        pure (offs ++ prevs, engine)
      else pure (offs, generator.generator)
  | .database cache :: _, amount, count, blockIndex, engine =>
    cache.getRandomOutsByAmount currency now amount count blockIndex engine

end Segment

namespace Core

variable (core : Core) (context : CoreContext)

/-- `Core::getRandomOutputs(amount, count, globalIndexes, publicKeys)`: the drawn global indexes of
the main leaf, sorted, with their keys. It fails on a chain shorter than twice the unlock window,
when nothing is drawn, and when a key cannot be extracted. -/
def getRandomOutputs (amount : UInt64) (count : ℕ) (engine : ℕ → ℕ) : Option (List ℕ × List PublicKey) :=
  if count = 0 then some ([], [])
  else
    let window := context.currency.minedMoneyUnlockWindow
    let upperBlockLimit := (UInt32.ofNat core.getTopBlockIndex - UInt32.ofNat window).toNat
    if upperBlockLimit < window then none
    else do
      let (globalIndexes, _) ← Segment.getRandomOutsByAmount context.currency context.now core.mainLeafSegments
        amount count core.getTopBlockIndex engine
      if globalIndexes.isEmpty then none
      else
        let globalIndexes := globalIndexes.mergeSort (· ≤ ·)
        let publicKeys ← (Segment.extractKeyOutputKeys context.currency context.now core.mainLeafSegments amount
          core.getTopBlockIndex globalIndexes).toOption
        pure (globalIndexes, publicKeys)

end Core

end Nox.CryptoNote
