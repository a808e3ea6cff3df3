import Nox.Proofs.CryptoNoteCore.Amounts
import Nox.Proofs.CryptoNoteCore.TransactionPool
import Nox.Library.Except

/-! # Where the checks of `validateSemantic` fail

Each loop of `validateSemantic` is a fold of one check per item: the outputs loop over the running
sum, the inputs loop over the key images seen and the running sum. A fold fails where its first
failing step is, so an overflow error comes from the item at which the true running sum first
reaches `2 ^ 64`, every check before it and the item's own other checks having passed.
-/

namespace Nox.CryptoNote

open Nox.Crypto

/-- The overflow check `UINT64_MAX - amount < summary` fails exactly when the true sum reaches
`2 ^ 64`. -/
theorem overflow_iff (amount summary : UInt64) :
    UINT64_MAX - amount < summary ↔ 2 ^ 64 ≤ summary.toNat + amount.toNat := by
  have maximum : UINT64_MAX.toNat = 2 ^ 64 - 1 := rfl
  have bounded := amount.toNat_lt
  have below : amount ≤ UINT64_MAX := UInt64.le_iff_toNat_le.mpr (by omega)
  rw [UInt64.lt_iff_toNat_lt, UInt64.toNat_sub_of_le _ _ below, maximum]
  omega

section Steps

variable (primitives : Primitives) (blockIndex : ℕ)

/-- One output of the outputs loop. -/
def outputStep (summaryOutputAmount : UInt64) (output : TransactionOutput) :
    Except TransactionValidationError UInt64 :=
  if output.amount = 0 then .error .OUTPUT_ZERO_AMOUNT
  else match output.target with
    | .key key =>
      if !primitives.checkKey key.key then .error .OUTPUT_INVALID_KEY
      else if UINT64_MAX - output.amount < summaryOutputAmount then .error .OUTPUTS_AMOUNT_OVERFLOW
      else .ok (summaryOutputAmount + output.amount)

/-- One input of the inputs loop, over the key images seen and the running sum. -/
def inputStep (state : List KeyImage × UInt64) : TransactionInput →
    Except TransactionValidationError (List KeyImage × UInt64)
  | .base _ => .error .INPUT_UNKNOWN_TYPE
  | .key input =>
    if input.keyImage ∈ state.1 then .error .INPUT_IDENTICAL_KEYIMAGES
    else if input.outputIndexes.isEmpty then .error .INPUT_EMPTY_OUTPUT_USAGE
    else if !primitives.keyImageInDomain input.keyImage && blockIndex > KEY_IMAGE_CHECKING_BLOCK_INDEX then
      .error .INPUT_INVALID_DOMAIN_KEYIMAGES
    else if (input.outputIndexes.drop 1).contains 0 then .error .INPUT_IDENTICAL_OUTPUT_INDEXES
    else if UINT64_MAX - input.amount < state.2 then .error .INPUTS_AMOUNT_OVERFLOW
    else .ok (state.1 ++ [input.keyImage], state.2 + input.amount)

theorem validateOutputs_eq_foldlM :
    ∀ (outputs : List TransactionOutput) (summary : UInt64),
      validateOutputs primitives outputs summary = outputs.foldlM (outputStep primitives) summary
  | [], _ => rfl
  | ⟨amount, .key key⟩ :: outputs, summary => by
    rw [validateOutputs, List.foldlM_cons, outputStep]
    cases checks : primitives.checkKey key.key <;>
      split_ifs <;> simp [checks, bind, Except.bind, validateOutputs_eq_foldlM outputs]

theorem validateInputs_eq_foldlM :
    ∀ (inputs : List TransactionInput) (keyImages : List KeyImage) (summary : UInt64),
      validateInputs primitives blockIndex inputs keyImages summary =
        Prod.snd <$> inputs.foldlM (inputStep primitives blockIndex) (keyImages, summary)
  | [], _, _ => rfl
  | .base _ :: _, _, _ => rfl
  | .key input :: inputs, keyImages, summary => by
    rw [validateInputs, List.foldlM_cons, inputStep]
    split_ifs <;> simp [bind, Except.bind, validateInputs_eq_foldlM inputs]

/-- The inputs loop has seen the key images of the inputs it passed. -/
theorem foldlM_inputStep_keyImages :
    ∀ {inputs : List TransactionInput} {keyImages keyImages' : List KeyImage} {summary total : UInt64},
      inputs.foldlM (inputStep primitives blockIndex) (keyImages, summary) = .ok (keyImages', total) →
      keyImages' = keyImages ++ inputsKeyImages inputs := by
  intro inputs
  induction inputs with
  | nil =>
    intro keyImages keyImages' summary total passed
    cases passed
    simp
  | cons input inputs ih =>
    intro keyImages keyImages' summary total passed
    rw [List.foldlM_cons] at passed
    obtain ⟨state, step, rest⟩ := (Except.bind_eq_ok _ _ _).mp passed
    cases input with
    | base _ => cases step
    | key input =>
      rw [inputStep] at step
      split_ifs at step
      cases step
      rw [ih rest, inputsKeyImages_key, List.append_assoc, List.singleton_append]

/-- An output fails on the overflow exactly when it passes its other checks and the true sum
reaches `2 ^ 64`. -/
theorem outputStep_eq_overflow_iff (summary : UInt64) (output : TransactionOutput) :
    outputStep primitives summary output = .error .OUTPUTS_AMOUNT_OVERFLOW ↔
      outputStep primitives 0 output = .ok output.amount ∧ 2 ^ 64 ≤ summary.toNat + output.amount.toNat := by
  obtain ⟨amount, ⟨key⟩⟩ := output
  have bounded := amount.toNat_lt
  simp only [outputStep, UInt64.zero_add, overflow_iff]
  cases checks : primitives.checkKey key.key <;> split_ifs <;> simp_all
  -- the one case left: a word amount cannot reach `2 ^ 64` alone
  omega

/-- An input fails on the overflow exactly when it is a key input that passes its other checks and
the true sum reaches `2 ^ 64`. -/
theorem inputStep_eq_overflow_iff (keyImages : List KeyImage) (summary : UInt64) (input : TransactionInput) :
    inputStep primitives blockIndex (keyImages, summary) input = .error .INPUTS_AMOUNT_OVERFLOW ↔
      ∃ keyInput, input = .key keyInput ∧
        inputStep primitives blockIndex (keyImages, 0) input = .ok (keyImages ++ [keyInput.keyImage], keyInput.amount) ∧
        2 ^ 64 ≤ summary.toNat + keyInput.amount.toNat := by
  cases input with
  | base _ => simp [inputStep]
  | key input =>
    have bounded := input.amount.toNat_lt
    simp only [inputStep, UInt64.zero_add, overflow_iff, TransactionInput.key.injEq, exists_eq_left']
    split_ifs <;> simp_all
    omega

theorem outputStep_ne_inputs_overflow (summary : UInt64) (output : TransactionOutput) :
    outputStep primitives summary output ≠ .error .INPUTS_AMOUNT_OVERFLOW := by
  obtain ⟨amount, ⟨key⟩⟩ := output
  simp only [outputStep]
  split_ifs <;> simp

theorem inputStep_ne_outputs_overflow (state : List KeyImage × UInt64) (input : TransactionInput) :
    inputStep primitives blockIndex state input ≠ .error .OUTPUTS_AMOUNT_OVERFLOW := by
  cases input with
  | base _ => simp [inputStep]
  | key input =>
    rw [inputStep]
    split_ifs <;> simp

end Steps

section Loops

variable {primitives : Primitives} {blockIndex : ℕ}

/-- The outputs loop overflows exactly at the output where the true sum first reaches `2 ^ 64`,
after every output before it passed and with the output's own other checks passing. -/
theorem validateOutputs_eq_overflow_iff (outputs : List TransactionOutput) :
    validateOutputs primitives outputs 0 = .error .OUTPUTS_AMOUNT_OVERFLOW ↔
      ∃ before output after, outputs = before ++ output :: after ∧
        (∃ total, validateOutputs primitives before 0 = .ok total) ∧
        validateOutputs primitives [output] 0 = .ok output.amount ∧
        2 ^ 64 ≤ (outputAmounts (before ++ [output])).sum := by
  have single (output : TransactionOutput) :
      validateOutputs primitives [output] 0 = outputStep primitives 0 output := by
    obtain ⟨amount, ⟨key⟩⟩ := output
    simp only [validateOutputs, outputStep]
  simp only [validateOutputs_eq_foldlM primitives outputs, Except.foldlM_eq_error_iff, single]
  constructor
  · rintro ⟨before, output, after, total, rfl, passed, failed⟩
    have exact := validateOutputs_eq_ok ((validateOutputs_eq_foldlM primitives before 0).trans passed)
    obtain ⟨own, reached⟩ := (outputStep_eq_overflow_iff primitives total output).mp failed
    refine ⟨before, output, after, rfl, ⟨total, (validateOutputs_eq_foldlM primitives before 0).trans passed⟩, own, ?_⟩
    simp only [outputAmounts, List.map_append, List.map_singleton, List.sum_append, List.sum_singleton] at exact ⊢
    simp only [UInt64.toNat_zero, Nat.zero_add] at exact
    omega
  · rintro ⟨before, output, after, rfl, ⟨total, passed⟩, own, reached⟩
    have exact := validateOutputs_eq_ok passed
    refine ⟨before, output, after, total, rfl, (validateOutputs_eq_foldlM primitives before 0).symm.trans passed,
      (outputStep_eq_overflow_iff primitives total output).mpr ⟨own, ?_⟩⟩
    simp only [outputAmounts, List.map_append, List.map_singleton, List.sum_append, List.sum_singleton] at exact reached
    simp only [UInt64.toNat_zero, Nat.zero_add] at exact
    omega

/-- The inputs loop overflows exactly at the key input where the true sum first reaches `2 ^ 64`,
after every input before it passed and with the input's own other checks passing against the key
images before it. -/
theorem validateInputs_eq_overflow_iff (inputs : List TransactionInput) :
    validateInputs primitives blockIndex inputs [] 0 = .error .INPUTS_AMOUNT_OVERFLOW ↔
      ∃ before input after, inputs = before ++ .key input :: after ∧
        (∃ total, validateInputs primitives blockIndex before [] 0 = .ok total) ∧
        validateInputs primitives blockIndex [.key input] (inputsKeyImages before) 0 = .ok input.amount ∧
        2 ^ 64 ≤ (keyInputAmounts (before ++ [.key input])).sum := by
  have single (keyImages : List KeyImage) (input : KeyInput) :
      validateInputs primitives blockIndex [.key input] keyImages 0 = .ok input.amount ↔
        inputStep primitives blockIndex (keyImages, 0) (.key input) =
          .ok (keyImages ++ [input.keyImage], input.amount) := by
    simp only [validateInputs, inputStep, UInt64.zero_add]
    split_ifs <;> simp
  have passedIff (before : List TransactionInput) (total : UInt64) :
      (∃ keyImages, before.foldlM (inputStep primitives blockIndex) ([], 0) = .ok (keyImages, total)) ↔
        validateInputs primitives blockIndex before [] 0 = .ok total := by
    rw [validateInputs_eq_foldlM]
    cases before.foldlM (inputStep primitives blockIndex) ([], 0) with
    | error _ => simp [Functor.map, Except.map]
    | ok state => simp [Functor.map, Except.map, Prod.ext_iff, eq_comm]
  rw [validateInputs_eq_foldlM]
  have mapped : ∀ x : Except TransactionValidationError (List KeyImage × UInt64),
      Prod.snd <$> x = .error .INPUTS_AMOUNT_OVERFLOW ↔ x = .error .INPUTS_AMOUNT_OVERFLOW := by
    intro x
    cases x <;> simp [Functor.map, Except.map]
  rw [mapped, Except.foldlM_eq_error_iff]
  constructor
  · rintro ⟨before, input, after, ⟨keyImages, total⟩, rfl, passed, failed⟩
    obtain ⟨keyInput, rfl, own, reached⟩ := (inputStep_eq_overflow_iff primitives blockIndex _ _ _).mp failed
    have seen := foldlM_inputStep_keyImages primitives blockIndex passed
    have exact := validateInputs_eq_ok ((passedIff before total).mp ⟨keyImages, passed⟩)
    rw [List.nil_append] at seen
    subst seen
    refine ⟨before, keyInput, after, rfl, ⟨total, (passedIff before total).mp ⟨_, passed⟩⟩, (single _ _).mpr own, ?_⟩
    simp only [keyInputAmounts, List.filterMap_append, List.filterMap_cons, List.filterMap_nil, List.sum_append,
      List.sum_singleton] at exact ⊢
    simp only [UInt64.toNat_zero, Nat.zero_add] at exact
    omega
  · rintro ⟨before, input, after, rfl, ⟨total, passed⟩, own, reached⟩
    obtain ⟨keyImages, folded⟩ := (passedIff before total).mpr passed
    have seen := foldlM_inputStep_keyImages primitives blockIndex folded
    rw [List.nil_append] at seen
    subst seen
    have exact := validateInputs_eq_ok passed
    refine ⟨before, .key input, after, (inputsKeyImages before, total), rfl, folded,
      (inputStep_eq_overflow_iff primitives blockIndex _ _ _).mpr ⟨input, rfl, (single _ _).mp own, ?_⟩⟩
    simp only [keyInputAmounts, List.filterMap_append, List.filterMap_cons, List.filterMap_nil, List.sum_append,
      List.sum_singleton] at exact reached
    simp only [UInt64.toNat_zero, Nat.zero_add] at exact
    omega

theorem validateOutputs_ne_inputs_overflow (outputs : List TransactionOutput) (summary : UInt64) :
    validateOutputs primitives outputs summary ≠ .error .INPUTS_AMOUNT_OVERFLOW := by
  rw [validateOutputs_eq_foldlM, Ne, Except.foldlM_eq_error_iff]
  rintro ⟨_, output, _, total, -, -, failed⟩
  exact outputStep_ne_inputs_overflow primitives total output failed

theorem validateInputs_ne_outputs_overflow (inputs : List TransactionInput) (keyImages : List KeyImage)
    (summary : UInt64) :
    validateInputs primitives blockIndex inputs keyImages summary ≠ .error .OUTPUTS_AMOUNT_OVERFLOW := by
  rw [validateInputs_eq_foldlM]
  cases folded : inputs.foldlM (inputStep primitives blockIndex) (keyImages, summary) with
  | ok _ => simp [Functor.map, Except.map]
  | error e =>
    simp only [Functor.map, Except.map, ne_eq, Except.error.injEq]
    rintro rfl
    obtain ⟨_, input, _, state, -, -, failed⟩ :=
      (Except.foldlM_eq_error_iff _ _ inputs (keyImages, summary)).mp folded
    exact inputStep_ne_outputs_overflow primitives blockIndex state input failed

end Loops

section Semantic

variable {primitives : Primitives} {transaction : Transaction} {blockIndex : ℕ}

/-- `validateSemantic` returns exactly the first error of its stages: no inputs, the outputs loop,
the inputs loop, and outputs worth more than the inputs. -/
theorem validateSemantic_eq_error_iff (e : TransactionValidationError) :
    validateSemantic primitives transaction blockIndex = .error e ↔
      (transaction.inputs = [] ∧ e = .EMPTY_INPUTS) ∨
        (transaction.inputs ≠ [] ∧
          (validateOutputs primitives transaction.outputs 0 = .error e ∨
            ∃ outputsTotal, validateOutputs primitives transaction.outputs 0 = .ok outputsTotal ∧
              (validateInputs primitives blockIndex transaction.inputs [] 0 = .error e ∨
                ∃ inputsTotal, validateInputs primitives blockIndex transaction.inputs [] 0 = .ok inputsTotal ∧
                  inputsTotal < outputsTotal ∧ e = .WRONG_AMOUNT))) := by
  unfold validateSemantic
  by_cases absent : transaction.inputs = []
  · simp [absent, throw, throwThe, MonadExceptOf.throw, bind, Except.bind, eq_comm]
  · have present : transaction.inputs.isEmpty = false := by simpa using absent
    simp only [present, Bool.false_eq_true, if_false, absent, false_and, false_or, ne_eq, not_false_eq_true,
      true_and]
    cases outputs : validateOutputs primitives transaction.outputs 0 with
    | error _ => simp [bind, Except.bind, eq_comm]
    | ok outputsTotal =>
      cases inputs : validateInputs primitives blockIndex transaction.inputs [] 0 with
      | error _ => simp [bind, Except.bind, eq_comm]
      | ok inputsTotal =>
        by_cases wrong : inputsTotal < outputsTotal <;>
          simp [wrong, bind, Except.bind, pure, Except.pure, throw, throwThe, MonadExceptOf.throw, eq_comm]

/-- The sums of a transaction `validateSemantic` accepts are true sums within a word. -/
theorem validateSemantic_sums_lt {fee : UInt64} (valid : validateSemantic primitives transaction blockIndex = .ok fee) :
    (outputAmounts transaction.outputs).sum < 2 ^ 64 ∧ (keyInputAmounts transaction.inputs).sum < 2 ^ 64 := by
  unfold validateSemantic at valid
  cases outputs : validateOutputs primitives transaction.outputs 0 with
  | error _ =>
    simp only [outputs, bind, Except.bind, throw, throwThe, MonadExceptOf.throw] at valid
    split_ifs at valid
  | ok outputsTotal =>
    cases inputs : validateInputs primitives blockIndex transaction.inputs [] 0 with
    | error _ =>
      simp only [outputs, inputs, bind, Except.bind, throw, throwThe, MonadExceptOf.throw] at valid
      split_ifs at valid
    | ok inputsTotal =>
      have outputsExact := validateOutputs_eq_ok outputs
      have inputsExact := validateInputs_eq_ok inputs
      rw [UInt64.toNat_zero, Nat.zero_add] at outputsExact inputsExact
      exact ⟨outputsExact ▸ outputsTotal.toNat_lt, inputsExact ▸ inputsTotal.toNat_lt⟩

end Semantic

end Nox.CryptoNote
