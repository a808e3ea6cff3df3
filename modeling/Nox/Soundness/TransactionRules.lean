import Nox.Proofs.CryptoNoteCore.Mixins
import Nox.Proofs.CryptoNoteCore.RingIndexes
import Nox.Proofs.CryptoNoteCore.OverflowChecks
import Nox.Soundness.RingMembers

/-! # The rules a transaction is held to

`Mixins::validate` reads a transaction's mixin off its largest ring. Every ring is held to the
greatest mixin of the height, but only the largest to the least, so after the third limit height a
transaction may spend one input with a ring of four and another with no mixin at all.

`validateSemantic` refuses an empty ring and a repeated offset, but not offsets whose sum passes
`2 ^ 32`: the `uint32_t` running sums of `validateTransaction` then wrap, and the global indexes it
hands to the chain go down, against the sortedness `extractKeyOutputKeys` asserts.

Its amounts are exact: a transaction it accepts has true sums of outputs and of inputs below
`2 ^ 64`, outputs within the inputs and the difference as fee, and each overflow error comes from
the item where the true sum first reaches `2 ^ 64`.
-/

namespace Nox.CryptoNote

open Nox.Crypto

/-- `Mixins::validate` passes exactly when every ring of every transaction is within the greatest
mixin of the height and, unless the least mixin is zero, some ring of each reaches the least. -/
theorem validate_checks_largest_ring_only (primitives : Primitives) (transactions : List CachedTransaction)
    (height : ℕ) :
    Mixins.validate primitives transactions height = .ok () ↔
      ∀ transaction ∈ transactions,
        (∀ size ∈ Mixins.keyRingSizes transaction.transaction.inputs,
          size - 1 ≤ (Mixins.getMixinAllowableRange height).2) ∧
        ((Mixins.getMixinAllowableRange height).1 = 0 ∨
          ∃ size ∈ Mixins.keyRingSizes transaction.transaction.inputs,
            (Mixins.getMixinAllowableRange height).1 ≤ size - 1) := by
  rw [Mixins.validate_eq_ok_iff]
  exact forall₂_congr fun transaction _ => Mixins.validateTransaction_eq_ok_iff primitives transaction _ _

/-- In a transaction `validateSemantic` accepts, every ring is nonempty, and its global indexes
increase strictly exactly when the true sum of its offsets stays below `2 ^ 32`. -/
theorem validateSemantic_ring_indexes_increase_iff (primitives : Primitives) (transaction : Transaction)
    (blockIndex : ℕ) (fee : UInt64) (valid : validateSemantic primitives transaction blockIndex = .ok fee) :
    ∀ input, .key input ∈ transaction.inputs →
      input.outputIndexes ≠ [] ∧
        ((absoluteGlobalIndexes input.outputIndexes).Pairwise (· < ·) ↔
          (input.outputIndexes.map UInt32.toNat).sum < 2 ^ 32) := by
  intro input member
  obtain ⟨first, offsets, ring, positive⟩ := validateSemantic_rings valid input member
  rw [ring]
  exact ⟨List.cons_ne_nil _ _, absoluteGlobalIndexes_pairwise_lt_iff first positive⟩

/-- `validateSemantic` accepts only exact sums within a word, with the outputs within the inputs
and the difference as fee. It reports an overflow of the outputs or of the inputs exactly when the
true sum of a prefix of them first reaches `2 ^ 64` and no check before that point fails. -/
theorem validateSemantic_accounts_exactly (primitives : Primitives) (transaction : Transaction) (blockIndex : ℕ) :
    (∀ fee, validateSemantic primitives transaction blockIndex = .ok fee →
      (outputAmounts transaction.outputs).sum < 2 ^ 64 ∧ (keyInputAmounts transaction.inputs).sum < 2 ^ 64 ∧
        (outputAmounts transaction.outputs).sum ≤ (keyInputAmounts transaction.inputs).sum ∧
        fee.toNat = (keyInputAmounts transaction.inputs).sum - (outputAmounts transaction.outputs).sum) ∧
    (validateSemantic primitives transaction blockIndex = .error .OUTPUTS_AMOUNT_OVERFLOW ↔
      transaction.inputs ≠ [] ∧
        ∃ before output after, transaction.outputs = before ++ output :: after ∧
          (∃ total, validateOutputs primitives before 0 = .ok total) ∧
          validateOutputs primitives [output] 0 = .ok output.amount ∧
          2 ^ 64 ≤ (outputAmounts (before ++ [output])).sum) ∧
    (validateSemantic primitives transaction blockIndex = .error .INPUTS_AMOUNT_OVERFLOW ↔
      transaction.inputs ≠ [] ∧ (∃ total, validateOutputs primitives transaction.outputs 0 = .ok total) ∧
        ∃ before input after, transaction.inputs = before ++ .key input :: after ∧
          (∃ total, validateInputs primitives blockIndex before [] 0 = .ok total) ∧
          validateInputs primitives blockIndex [.key input] (inputsKeyImages before) 0 = .ok input.amount ∧
          2 ^ 64 ≤ (keyInputAmounts (before ++ [.key input])).sum) := by
  refine ⟨fun fee valid => ?_, ?_, ?_⟩
  · obtain ⟨outputsBound, inputsBound⟩ := validateSemantic_sums_lt valid
    have exact := validateSemantic_eq_ok valid
    refine ⟨outputsBound, inputsBound, by omega, by omega⟩
  · rw [validateSemantic_eq_error_iff, ← validateOutputs_eq_overflow_iff]
    constructor
    · rintro (⟨-, wrong⟩ | ⟨present, outputs | ⟨outputsTotal, -, inputs | ⟨_, -, -, wrong⟩⟩⟩)
      · cases wrong
      · exact ⟨present, outputs⟩
      · exact absurd inputs (validateInputs_ne_outputs_overflow _ _ _)
      · cases wrong
    · rintro ⟨present, outputs⟩
      exact .inr ⟨present, .inl outputs⟩
  · rw [validateSemantic_eq_error_iff, ← validateInputs_eq_overflow_iff]
    constructor
    · rintro (⟨-, wrong⟩ | ⟨present, outputs | ⟨outputsTotal, passed, inputs | ⟨_, -, -, wrong⟩⟩⟩)
      · cases wrong
      · exact absurd outputs (validateOutputs_ne_inputs_overflow _ _)
      · exact ⟨present, ⟨outputsTotal, passed⟩, inputs⟩
      · cases wrong
    · rintro ⟨present, ⟨outputsTotal, passed⟩, inputs⟩
      exact .inr ⟨present, .inr ⟨outputsTotal, passed, .inl inputs⟩⟩

namespace Scenario

/-- A transaction spending a ring of four outputs and a ring of one, its own output alone. -/
def unmixedSpend : CachedTransaction :=
  ⟨{ version := 1, unlockTime := 0,
     inputs := [.key ⟨genesisCoins, [0, 1, 1, 1], keyImageOf 1⟩, .key ⟨genesisCoins, [5], keyImageOf 2⟩],
     outputs := [], extra := [], signatures := [[], []] }, []⟩

/-- After the third limit height, where the mixin must be 3, the transaction passes although its
second input has no mixin. -/
theorem validate_accepts_unmixed_input :
    Mixins.validate primitives [unmixedSpend] MIXIN_LIMITS_V3_HEIGHT = .ok () ∧
      ∃ input, .key input ∈ unmixedSpend.transaction.inputs ∧ input.outputIndexes.length - 1 < MINIMUM_MIXIN_V3 :=
  ⟨(validate_checks_largest_ring_only primitives [unmixedSpend] MIXIN_LIMITS_V3_HEIGHT).mpr (by decide),
    ⟨_, List.mem_cons_of_mem _ (List.mem_singleton_self _), by decide⟩⟩

/-- A transaction whose ring names global index 1 and then, at the offset `2 ^ 32 - 1`, global
index `2 ^ 32`. -/
def wrappingSpend : Transaction :=
  { version := 1, unlockTime := 0, inputs := [.key ⟨10, [1, 0xFFFFFFFF], keyImageOf 1⟩], outputs := [],
    extra := [], signatures := [[]] }

/-- `validateSemantic` accepts it, and the global indexes `validateTransaction` computes for its ring
go down from 1 to 0. -/
theorem ring_indexes_wrap_past_uint32 :
    validateSemantic primitives wrappingSpend 0 = .ok 10 ∧
      absoluteGlobalIndexes [1, 0xFFFFFFFF] = [1, 0] ∧
      ¬ (absoluteGlobalIndexes [1, 0xFFFFFFFF]).Pairwise (· < ·) :=
  have valid : validateSemantic primitives wrappingSpend 0 = .ok 10 := by decide
  ⟨valid, by decide, fun increasing =>
    absurd ((validateSemantic_ring_indexes_increase_iff primitives wrappingSpend 0 10 valid
      ⟨10, [1, 0xFFFFFFFF], keyImageOf 1⟩ (List.mem_singleton_self _)).2.mp increasing) (by decide)⟩

end Scenario

end Nox.CryptoNote
