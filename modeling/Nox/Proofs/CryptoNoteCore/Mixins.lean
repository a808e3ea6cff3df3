import Nox.Model.CryptoNoteCore.Mixins
import Nox.Library.Except

/-! # What the mixin rules check

The ring size of a transaction is the largest of its key inputs' rings and 1. Its mixin is below a
bound exactly when every ring is, but it reaches a bound as soon as one ring does: `validate`
holds every ring of every transaction to the greatest mixin of the height, and only the largest ring
of each to the least.
-/

namespace Nox.CryptoNote

namespace Mixins

/-- The ring sizes of the key inputs. -/
def keyRingSizes (inputs : List TransactionInput) : List ℕ :=
  inputs.filterMap fun
    | .key input => some input.outputIndexes.length
    | .base _ => none

/-- One input of the ring size loop. -/
def ringSizeStep (ringSize : ℕ) : TransactionInput → ℕ
  | .key input => if input.outputIndexes.length > ringSize then input.outputIndexes.length else ringSize
  | .base _ => ringSize

theorem ringSize_eq (inputs : List TransactionInput) : ringSize inputs = inputs.foldl ringSizeStep 1 := rfl

@[simp] theorem keyRingSizes_nil : keyRingSizes [] = [] := rfl

@[simp] theorem keyRingSizes_key (input : KeyInput) (inputs : List TransactionInput) :
    keyRingSizes (.key input :: inputs) = input.outputIndexes.length :: keyRingSizes inputs := rfl

@[simp] theorem keyRingSizes_base (input : BaseInput) (inputs : List TransactionInput) :
    keyRingSizes (.base input :: inputs) = keyRingSizes inputs := rfl

/-- The loop stays below a bound exactly when its start and every ring do. -/
theorem foldl_ringSizeStep_le_iff (bound : ℕ) :
    ∀ (inputs : List TransactionInput) (ringSize : ℕ),
      inputs.foldl ringSizeStep ringSize ≤ bound ↔ ringSize ≤ bound ∧ ∀ size ∈ keyRingSizes inputs, size ≤ bound := by
  intro inputs
  induction inputs with
  | nil => simp
  | cons input inputs ih =>
    intro ringSize
    cases input with
    | base input =>
      rw [List.foldl_cons, ringSizeStep, ih, keyRingSizes_base]
    | key input =>
      have step : ringSizeStep ringSize (.key input) ≤ bound ↔
          ringSize ≤ bound ∧ input.outputIndexes.length ≤ bound := by
        rw [ringSizeStep]
        split_ifs <;> omega
      rw [List.foldl_cons, ih, step, keyRingSizes_key, List.forall_mem_cons, and_assoc]

/-- The loop reaches a bound exactly when its start or one ring does. -/
theorem le_foldl_ringSizeStep_iff (bound : ℕ) :
    ∀ (inputs : List TransactionInput) (ringSize : ℕ),
      bound ≤ inputs.foldl ringSizeStep ringSize ↔ bound ≤ ringSize ∨ ∃ size ∈ keyRingSizes inputs, bound ≤ size := by
  intro inputs
  induction inputs with
  | nil => simp
  | cons input inputs ih =>
    intro ringSize
    cases input with
    | base input =>
      rw [List.foldl_cons, ringSizeStep, ih, keyRingSizes_base]
    | key input =>
      have step : bound ≤ ringSizeStep ringSize (.key input) ↔
          bound ≤ ringSize ∨ bound ≤ input.outputIndexes.length := by
        rw [ringSizeStep]
        split_ifs <;> omega
      rw [List.foldl_cons, ih, step, keyRingSizes_key, or_assoc]
      simp only [List.mem_cons, or_and_right, exists_or, exists_eq_left]

variable (primitives : Primitives)

/-- A transaction passes exactly when each of its rings is within the greatest mixin and, unless
the least is zero, one of them reaches the least. -/
theorem validateTransaction_eq_ok_iff (transaction : CachedTransaction) (minMixin maxMixin : ℕ) :
    validateTransaction primitives transaction minMixin maxMixin = .ok () ↔
      (∀ size ∈ keyRingSizes transaction.transaction.inputs, size - 1 ≤ maxMixin) ∧
        (minMixin = 0 ∨ ∃ size ∈ keyRingSizes transaction.transaction.inputs, minMixin ≤ size - 1) := by
  have below := foldl_ringSizeStep_le_iff (maxMixin + 1) transaction.transaction.inputs 1
  have reaches := le_foldl_ringSizeStep_iff (minMixin + 1) transaction.transaction.inputs 1
  have positive := (le_foldl_ringSizeStep_iff 1 transaction.transaction.inputs 1).mpr (.inl le_rfl)
  rw [← ringSize_eq] at below reaches positive
  have eachBelow : (∀ size ∈ keyRingSizes transaction.transaction.inputs, size ≤ maxMixin + 1) ↔
      ∀ size ∈ keyRingSizes transaction.transaction.inputs, size - 1 ≤ maxMixin :=
    forall₂_congr fun _ _ => by omega
  have oneReaches : (minMixin + 1 ≤ 1 ∨ ∃ size ∈ keyRingSizes transaction.transaction.inputs, minMixin + 1 ≤ size) ↔
      (minMixin = 0 ∨ ∃ size ∈ keyRingSizes transaction.transaction.inputs, minMixin ≤ size - 1) := by
    by_cases zero : minMixin = 0
    · simp [zero]
    · exact or_congr (by omega) (exists_congr fun size => and_congr_right fun _ => by omega)
  unfold validateTransaction
  dsimp only
  split_ifs with large small
  · -- the largest ring is past the greatest mixin
    simp only [false_iff, not_and]
    intro each
    have := below.mpr ⟨by omega, eachBelow.mpr each⟩
    omega
  · simp only [false_iff, not_and]
    intro _ one
    have := reaches.mpr (oneReaches.mpr one)
    omega
  · simp only [true_iff]
    exact ⟨eachBelow.mp (below.mp (by omega)).2, oneReaches.mp (reaches.mp (by omega))⟩

/-- `validate` passes exactly when every transaction is within the range of the height. -/
theorem validate_eq_ok_iff (transactions : List CachedTransaction) (height : ℕ) :
    validate primitives transactions height = .ok () ↔
      ∀ transaction ∈ transactions,
        validateTransaction primitives transaction (getMixinAllowableRange height).1
          (getMixinAllowableRange height).2 = .ok () :=
  Except.forM_eq_ok _

end Mixins

end Nox.CryptoNote
