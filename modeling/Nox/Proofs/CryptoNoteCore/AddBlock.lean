import Nox.Model.CryptoNoteCore.Core
import Nox.Library.Except

/-! # What `addBlock` establishes about the blocks it accepts

`checkBlock` runs the checks of `addBlock` one after the other and stops at the first that fails.
An accepted block therefore passed every one of them, and the record it returns carries the values
they computed: the segment holding the previous block, the previous block's index, the difficulty
of the next block, which is not zero, and the reward the coinbase pays. `insertBlock` then reports
`ADDED_TO_MAIN` only for a block on top of the main leaf. A rejected block leaves the core as it
was.
-/

namespace Nox.CryptoNote

open Nox.Crypto

namespace Core

variable (core : Core) (context : CoreContext)

/-- The segment stored at `pointer`, as `checkBlock` and `insertBlock` read it. -/
def storedSegment (pointer : SegmentPointer) : Segment :=
  (core.getSegment pointer).getD (.memory (BlockchainCache.empty none 0))

/-- The checks `checkBlock` passed for an accepted block, with the values they computed: the block
is new, its previous block lies in `accepted.cache`, the difficulty is the segment's for the next
block and not zero, the transactions deserialize, the block and its transactions validate against
the segment's chain at the previous block, and the coinbase pays exactly the reward. -/
def BlockChecked (cachedBlock : CachedBlock) (rawBlock : RawBlock) (accepted : AcceptedBlock) : Prop :=
  core.hasBlock (context.primitives.getBlockHash cachedBlock.block) = false ∧
  core.findSegmentContainingBlock cachedBlock.block.previousBlockHash = some accepted.cache ∧
  accepted.previousBlockIndex =
    ((core.storedSegment accepted.cache).getBlockIndex cachedBlock.block.previousBlockHash).getD 0 ∧
  accepted.addOnTop = ((core.storedSegment accepted.cache).getTopBlockIndex == accepted.previousBlockIndex) ∧
  accepted.currentDifficulty =
    Segment.getDifficultyForNextBlock context.currency (core.segments accepted.cache) accepted.previousBlockIndex ∧
  accepted.currentDifficulty ≠ 0 ∧
  ∃ cumulativeSize minerReward cumulativeFee,
    context.extractTransactions rawBlock.transactions = some (accepted.transactions, cumulativeSize) ∧
    accepted.cumulativeBlockSize =
      (getObjectBinarySize outputTransaction cachedBlock.block.baseTransaction + cumulativeSize) % 2 ^ 64 ∧
    context.validateBlock (core.segments accepted.cache) cachedBlock = .ok minerReward ∧
    context.validateTransactions (core.segments accepted.cache) accepted.previousBlockIndex accepted.transactions
      ⟨[]⟩ 0 = .ok (accepted.validatorState, cumulativeFee) ∧
    context.currency.getBlockReward cachedBlock.block.majorVersion
      (medianValue (Segment.getLastBlocksSizes (core.segments accepted.cache) context.currency.rewardBlocksWindow
        accepted.previousBlockIndex true)).toNat accepted.cumulativeBlockSize
      ((Segment.getAlreadyGeneratedCoins (core.segments accepted.cache) accepted.previousBlockIndex).getD 0)
      cumulativeFee = some (minerReward, accepted.emissionChange)

variable {core context} {cachedBlock : CachedBlock} {rawBlock : RawBlock}

/-- An accepted block passed every check of `checkBlock`. -/
theorem checkBlock_eq_ok {accepted : AcceptedBlock}
    (checked : core.checkBlock context cachedBlock rawBlock = .ok accepted) :
    core.BlockChecked context cachedBlock rawBlock accepted := by
  unfold checkBlock at checked
  -- a failed check ends its branch with an error; the branches left are the ways through the
  -- mixin window and the checkpoint zone, each returning the accepted record
  repeat' (first | split at checked | simp only [bind, Except.bind, pure, Except.pure, throw, throwThe,
    MonadExceptOf.throw, reduceCtorEq] at checked)
  all_goals
    cases checked
    refine ⟨Bool.eq_false_iff.mpr ‹¬ core.hasBlock _ = true›, ‹core.findSegmentContainingBlock _ = some _›,
      rfl, rfl, rfl, ‹¬ Segment.getDifficultyForNextBlock _ _ _ = 0›, _, _, _,
      ‹context.extractTransactions _ = some _›, rfl, ‹context.validateBlock _ _ = .ok _›,
      (Except.mapError_eq_ok _ _ _).mp ‹Except.mapError _ _ = .ok _›, ?_⟩
    simp_all

/-- `validateBlock` rejects a block with a validation code, never with a code of `addBlock`. -/
theorem validateBlock_error {segments : List Segment} {code : ErrorCode}
    (rejected : context.validateBlock segments cachedBlock = .error code) : ∀ addBlockCode, code ≠ .addBlock addBlockCode := by
  intro addBlockCode same
  subst same
  unfold CoreContext.validateBlock at rejected
  repeat' (first | split at rejected | simp only [bind, Except.bind, pure, Except.pure, throw, throwThe,
    MonadExceptOf.throw, reduceCtorEq, Except.error.injEq] at rejected)

/-- The codes of `addBlock` that `checkBlock` rejects with are those of a known block, an orphan and
a block that does not deserialize. -/
theorem checkBlock_error {addBlockCode : AddBlockErrorCode}
    (rejected : core.checkBlock context cachedBlock rawBlock = .error (.addBlock addBlockCode)) :
    addBlockCode = .ALREADY_EXISTS ∨ addBlockCode = .REJECTED_AS_ORPHANED ∨
      addBlockCode = .DESERIALIZATION_FAILED := by
  unfold checkBlock at rejected
  repeat' (first | split at rejected | simp only [bind, Except.bind, pure, Except.pure, throw, throwThe,
    MonadExceptOf.throw, reduceCtorEq, Except.error.injEq, ErrorCode.addBlock.injEq] at rejected)
  -- the codes `checkBlock` throws itself, those of `validateBlock`, and the transaction codes
  all_goals first
    | (subst rejected; simp)
    | exact absurd rejected (validateBlock_error ‹context.validateBlock _ _ = .error _› addBlockCode)
    | (subst rejected; rename_i mapped
       obtain ⟨_, -, same⟩ := (Except.mapError_eq_error _ _ _).mp mapped
       cases same)

/-- A block `checkBlock` rejects leaves the core unchanged, and its error is the result. -/
theorem addBlock_of_checkBlock_error {code : ErrorCode}
    (rejected : core.checkBlock context cachedBlock rawBlock = .error code) :
    core.addBlock context cachedBlock rawBlock = (core, code) := by
  simp only [addBlock, rejected]

/-- The structural part of `addBlock` reports one of the three codes of an added block. -/
theorem insertBlock_code (accepted : AcceptedBlock) :
    (core.insertBlock context cachedBlock rawBlock accepted).2 = .ADDED_TO_MAIN ∨
    (core.insertBlock context cachedBlock rawBlock accepted).2 = .ADDED_TO_ALTERNATIVE ∨
    (core.insertBlock context cachedBlock rawBlock accepted).2 = .ADDED_TO_ALTERNATIVE_AND_SWITCHED := by
  unfold insertBlock
  dsimp only
  split_ifs
  · exact .inl rfl
  · split
    · split_ifs
      · exact .inr (.inr rfl)
      · exact .inr (.inl rfl)
    · exact .inr (.inl rfl)
  · exact .inr (.inl rfl)
  · exact .inr (.inl rfl)
  · exact .inr (.inl rfl)

/-- `ADDED_TO_MAIN` is the code of a block on top of the main leaf. -/
theorem insertBlock_added_to_main {accepted : AcceptedBlock}
    (added : (core.insertBlock context cachedBlock rawBlock accepted).2 = .ADDED_TO_MAIN) :
    accepted.addOnTop = true ∧ core.chainsLeaves.head? = some accepted.cache := by
  unfold insertBlock at added
  dsimp only at added
  split_ifs at added with onTop noChildren isMain
  · exact ⟨onTop, isMain⟩
  · split at added
    · split_ifs at added
    · cases added

/-- A result that is not the code of an added block comes from a rejected block, and the core is
unchanged. -/
theorem addBlock_rejected
    (notAdded : ∀ code, (core.addBlock context cachedBlock rawBlock).2 ≠ .addBlock code) :
    (core.addBlock context cachedBlock rawBlock).1 = core := by
  cases checked : core.checkBlock context cachedBlock rawBlock with
  | error code => rw [addBlock_of_checkBlock_error checked]
  | ok accepted =>
    exfalso
    apply notAdded (core.insertBlock context cachedBlock rawBlock accepted).2
    simp only [addBlock, checked]

/-- A block added to the main chain was checked on top of the main leaf, at the difficulty the
main leaf gives the block after its top, which is not zero. -/
theorem addBlock_added_to_main
    (added : (core.addBlock context cachedBlock rawBlock).2 = .addBlock .ADDED_TO_MAIN) :
    ∃ leaf, core.chainsLeaves.head? = some leaf ∧
      Segment.getDifficultyForNextBlock context.currency (core.segments leaf)
        (core.storedSegment leaf).getTopBlockIndex ≠ 0 := by
  cases checked : core.checkBlock context cachedBlock rawBlock with
  | error code =>
    rw [addBlock_of_checkBlock_error checked] at added
    subst added
    rcases checkBlock_error checked with same | same | same <;> cases same
  | ok accepted =>
    simp only [addBlock, checked, ErrorCode.addBlock.injEq] at added
    obtain ⟨onTop, isMain⟩ := insertBlock_added_to_main added
    obtain ⟨-, -, -, top, difficulty, nonzero, -⟩ := checkBlock_eq_ok checked
    have atTop : (core.storedSegment accepted.cache).getTopBlockIndex = accepted.previousBlockIndex := by
      simpa [onTop] using top.symm
    exact ⟨accepted.cache, isMain, by rw [atTop, ← difficulty]; exact nonzero⟩

end Core

end Nox.CryptoNote
