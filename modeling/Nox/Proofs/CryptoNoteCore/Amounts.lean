import Nox.Model.CryptoNoteCore.Core
import Nox.Library.Wrapping

/-! # The amounts the validation loops add up

`validateOutputs` and `validateInputs` refuse a sum that would overflow, so the `uint64_t` they
return is the true sum of the amounts. `validateSemantic` then returns as fee the key inputs less
the outputs, exactly. `validateTransactions` adds the fees in a word, which may wrap, and
`validateBlock` passes on the coinbase sum of `validateOutputs`.
-/

namespace Nox.CryptoNote

/-- The amounts a transaction's key inputs spend. -/
def keyInputAmounts (inputs : List TransactionInput) : List ℕ :=
  inputs.filterMap fun
    | .key input => some input.amount.toNat
    | .base _ => none

/-- The amounts a transaction's outputs create. -/
def outputAmounts (outputs : List TransactionOutput) : List ℕ := outputs.map (·.amount.toNat)

/-- A sum that passed the overflow check `UINT64_MAX - amount < summary` stays below `2 ^ 64`. -/
theorem add_lt_of_not_overflow {amount summary : UInt64} (fits : ¬ UINT64_MAX - amount < summary) :
    summary.toNat + amount.toNat < 2 ^ 64 := by
  have maximum : UINT64_MAX.toNat = 2 ^ 64 - 1 := rfl
  have bounded := amount.toNat_lt
  have below : amount ≤ UINT64_MAX := UInt64.le_iff_toNat_le.mpr (by omega)
  rw [UInt64.lt_iff_toNat_lt, UInt64.toNat_sub_of_le _ _ below, maximum] at fits
  omega

/-- The outputs loop returns the true sum of the amounts. -/
theorem validateOutputs_eq_ok {primitives : Primitives} {outputs : List TransactionOutput}
    {summary total : UInt64} (valid : validateOutputs primitives outputs summary = .ok total) :
    total.toNat = summary.toNat + (outputAmounts outputs).sum := by
  induction outputs generalizing summary with
  | nil =>
    cases valid
    simp [outputAmounts]
  | cons output outputs ih =>
    simp only [validateOutputs] at valid
    split_ifs at valid with zero invalid overflow
    have fits := add_lt_of_not_overflow overflow
    rw [ih valid, UInt64.toNat_add_of_lt fits]
    simp only [outputAmounts, List.map_cons, List.sum_cons]
    omega

/-- The inputs loop accepts key inputs only and returns the true sum of their amounts. -/
theorem validateInputs_eq_ok {primitives : Primitives} {blockIndex : ℕ} {inputs : List TransactionInput}
    {keyImages : List Crypto.KeyImage} {summary total : UInt64}
    (valid : validateInputs primitives blockIndex inputs keyImages summary = .ok total) :
    total.toNat = summary.toNat + (keyInputAmounts inputs).sum := by
  induction inputs generalizing keyImages summary with
  | nil =>
    cases valid
    simp [keyInputAmounts]
  | cons input inputs ih =>
    cases input with
    | base _ => cases valid
    | key input =>
      simp only [validateInputs] at valid
      split_ifs at valid with repeated empty domain identical overflow
      have fits := add_lt_of_not_overflow overflow
      rw [ih valid, UInt64.toNat_add_of_lt fits]
      simp only [keyInputAmounts, List.filterMap_cons, List.sum_cons]
      omega

/-- The fee of a transaction is its key inputs less its outputs, exactly. -/
theorem validateSemantic_eq_ok {primitives : Primitives} {transaction : Transaction} {blockIndex : ℕ}
    {fee : UInt64} (valid : validateSemantic primitives transaction blockIndex = .ok fee) :
    fee.toNat + (outputAmounts transaction.outputs).sum = (keyInputAmounts transaction.inputs).sum := by
  unfold validateSemantic at valid
  repeat' (first | split at valid | simp only [bind, Except.bind, pure, Except.pure, throw, throwThe,
    MonadExceptOf.throw, reduceCtorEq, Except.ok.injEq] at valid)
  subst valid
  have outputs := validateOutputs_eq_ok ‹validateOutputs _ _ _ = .ok _›
  have inputs := validateInputs_eq_ok ‹validateInputs _ _ _ _ _ = .ok _›
  have covered := UInt64.not_lt.mp ‹¬ _ > _›
  rw [UInt64.toNat_sub_of_le _ _ covered]
  simp only [UInt64.toNat_zero, Nat.zero_add] at outputs inputs
  have := UInt64.le_iff_toNat_le.mp covered
  omega

namespace CoreContext

variable {context : CoreContext}

/-- `validateTransaction` returns the fee of `validateSemantic`. -/
theorem validateTransaction_eq_ok {cache : List Segment} {transaction : CachedTransaction}
    {state state' : TransactionValidatorState} {blockIndex : ℕ} {fee : UInt64}
    (valid : context.validateTransaction cache transaction state blockIndex = .ok (fee, state')) :
    validateSemantic context.primitives transaction.transaction blockIndex = .ok fee := by
  unfold validateTransaction at valid
  repeat' (first | split at valid | simp only [bind, Except.bind, pure, Except.pure, reduceCtorEq,
    Except.ok.injEq, Prod.mk.injEq] at valid)
  obtain ⟨rfl, -⟩ := valid
  assumption

/-- The transaction loop of `addBlock` adds, in a word, the fee `validateSemantic` gives each
transaction. -/
theorem validateTransactions_eq_ok {cache : List Segment} {previousBlockIndex : ℕ}
    {transactions : List CachedTransaction} {state state' : TransactionValidatorState} {summary total : UInt64}
    (valid : context.validateTransactions cache previousBlockIndex transactions state summary = .ok (state', total)) :
    ∃ fees, List.Forall₂ (fun transaction fee =>
        validateSemantic context.primitives transaction.transaction previousBlockIndex = .ok fee) transactions fees ∧
      total = summary + fees.sum := by
  induction transactions generalizing state summary with
  | nil =>
    cases valid
    exact ⟨[], .nil, by simp⟩
  | cons transaction transactions ih =>
    simp only [validateTransactions, bind, Except.bind] at valid
    split at valid
    · cases valid
    · rename_i result validated
      obtain ⟨fees, semantic, sum⟩ := ih valid
      refine ⟨result.1 :: fees, .cons (validateTransaction_eq_ok validated) semantic, ?_⟩
      rw [sum, List.sum_cons, UInt64.add_assoc]

/-- `validateBlock` returns the sum of the coinbase outputs. -/
theorem validateBlock_eq_ok {cache : List Segment} {cachedBlock : CachedBlock} {minerReward : UInt64}
    (valid : context.validateBlock cache cachedBlock = .ok minerReward) :
    validateOutputs context.primitives cachedBlock.block.baseTransaction.outputs 0 = .ok minerReward := by
  unfold validateBlock at valid
  repeat' (first | split at valid | simp only [bind, Except.bind, pure, Except.pure, throw, throwThe,
    MonadExceptOf.throw, reduceCtorEq, Except.ok.injEq] at valid)
  all_goals
    subst valid
    assumption

end CoreContext

end Nox.CryptoNote
