import Mathlib.Data.Nat.Digits.Defs
import Nox.Model.CryptoNoteCore.CryptoNoteFormatUtils
import Nox.Model.CryptoNoteCore.BlockTemplate
import Nox.Library.Wrapping

/-! # What `decompose_amount_into_digits` hands out

After `digits` steps the loop has read the lowest `digits` decimal digits of the amount: the dust
and the chunks handed out so far add up to them. Before the first chunk that passes the threshold
everything is dust; that chunk hands out the dust, once, and after it every nonzero chunk is at
least a power of ten above the dust, so it passes the threshold too and is handed out, never
folded into the dust already paid. The chunks are `d * 10 ^ e` with a nonzero digit `d`, in
increasing `e`. With 20 steps every digit of a `uint64_t` is read, so the handlers receive the
whole amount.

The callers' handlers all push to one vector: what they push is the values of the handler calls.
-/

namespace Nox.CryptoNote

section Naturality

variable {σ τ : Type} (project : σ → τ) {chunkHandler dustHandler : σ → UInt64 → σ}
  {chunkHandler' dustHandler' : τ → UInt64 → τ}
  (chunkProjects : ∀ state chunk, project (chunkHandler state chunk) = chunkHandler' (project state) chunk)
  (dustProjects : ∀ state dust, project (dustHandler state dust) = dustHandler' (project state) dust)
include chunkProjects dustProjects

/-- The loop commutes with a map of the handlers' state that commutes with the handlers. -/
theorem decomposeAmountIntoDigitsLoopWith_map (dustThreshold : UInt64) (fuel : ℕ) (amount order dust : UInt64)
    (isDustHandled : Bool) (state : σ) :
    (fun result => (project result.1, result.2))
        (decomposeAmountIntoDigitsLoopWith chunkHandler dustHandler dustThreshold fuel amount order dust
          isDustHandled state) =
      decomposeAmountIntoDigitsLoopWith chunkHandler' dustHandler' dustThreshold fuel amount order dust
        isDustHandled (project state) := by
  induction fuel generalizing amount order dust isDustHandled state with
  | zero => rfl
  | succ fuel ih =>
    simp only [decomposeAmountIntoDigitsLoopWith]
    split_ifs <;> simp [ih, chunkProjects, dustProjects]

theorem decomposeAmountIntoDigitsWith_map (dustThreshold amount : UInt64) (state : σ) :
    project (decomposeAmountIntoDigitsWith chunkHandler dustHandler dustThreshold amount state) =
      decomposeAmountIntoDigitsWith chunkHandler' dustHandler' dustThreshold amount (project state) := by
  have loop := decomposeAmountIntoDigitsLoopWith_map project chunkProjects dustProjects dustThreshold 20 amount 1 0
    false state
  unfold decomposeAmountIntoDigitsWith
  split_ifs
  · rfl
  · rw [← loop]
    dsimp only
    split_ifs <;> simp [dustProjects]

end Naturality

/-- The loop of the block template model is the template's loop with both handlers pushing. -/
theorem decomposeAmountIntoDigitsLoop_eq (dustThreshold : UInt64) (fuel : ℕ) (amount order dust : UInt64)
    (isDustHandled : Bool) (outAmounts : List UInt64) :
    decomposeAmountIntoDigitsLoop dustThreshold fuel amount order dust isDustHandled outAmounts =
      decomposeAmountIntoDigitsLoopWith (fun amounts chunk => amounts ++ [chunk]) (fun amounts dust => amounts ++ [dust])
        dustThreshold fuel amount order dust isDustHandled outAmounts := by
  induction fuel generalizing amount order dust isDustHandled outAmounts with
  | zero => rfl
  | succ fuel ih => simp only [decomposeAmountIntoDigitsLoop, decomposeAmountIntoDigitsLoopWith, ih]

/-- The amounts `constructMinerTx` decomposes the reward into are the values of the handler calls. -/
theorem decomposeAmountIntoDigits_eq_parts (amount dustThreshold : UInt64) :
    decomposeAmountIntoDigits amount dustThreshold =
      (decomposeAmountIntoParts amount dustThreshold).map AmountPart.value := by
  have chunk (parts : List AmountPart) (chunk : UInt64) :
      (parts ++ [AmountPart.chunk chunk]).map AmountPart.value = parts.map AmountPart.value ++ [chunk] := by
    simp [AmountPart.value]
  have dust (parts : List AmountPart) (dust : UInt64) :
      (parts ++ [AmountPart.dust dust]).map AmountPart.value = parts.map AmountPart.value ++ [dust] := by
    simp [AmountPart.value]
  have natural := @decomposeAmountIntoDigitsWith_map _ _ (List.map AmountPart.value)
    (fun parts chunk => parts ++ [.chunk chunk]) (fun parts dust => parts ++ [.dust dust])
    (fun amounts chunk => amounts ++ [chunk]) (fun amounts dust => amounts ++ [dust]) chunk dust dustThreshold amount []
  rw [decomposeAmountIntoParts, natural]
  unfold decomposeAmountIntoDigits decomposeAmountIntoDigitsWith
  simp only [decomposeAmountIntoDigitsLoop_eq, List.map_nil]

/-- The handler call of a chunk `digit * 10 ^ exponent`. -/
def chunkPart (chunk : ℕ × ℕ) : AmountPart := .chunk (UInt64.ofNat (chunk.1 * 10 ^ chunk.2))

/-- What the loop has established after reading the lowest `digits` digits of `amount`, with
`chunks` the digits and exponents of the chunks handed out so far. -/
structure LoopInvariant (amount dustThreshold digits : ℕ) (left order dust : UInt64) (isDustHandled : Bool)
    (parts : List AmountPart) (chunks : List (ℕ × ℕ)) : Prop where
  left_eq : left.toNat = amount / 10 ^ digits
  order_eq : left ≠ 0 → order.toNat = 10 ^ digits
  dust_le : dust.toNat ≤ dustThreshold
  sum_eq : dust.toNat + (chunks.map fun chunk => chunk.1 * 10 ^ chunk.2).sum = amount % 10 ^ digits
  parts_eq : parts = (if isDustHandled then [.dust dust] else []) ++ chunks.map chunkPart
  digit_mem : ∀ chunk ∈ chunks, 1 ≤ chunk.1 ∧ chunk.1 ≤ 9 ∧ chunk.2 < digits
  increasing : (chunks.map Prod.snd).Pairwise (· < ·)
  passed : parts ≠ [] → dustThreshold < dust.toNat + 10 ^ digits ∧ (isDustHandled = true ∨ dust = 0)
  handled_nonzero : isDustHandled = true → dust ≠ 0

theorem LoopInvariant.start (amount dustThreshold : UInt64) :
    LoopInvariant amount.toNat dustThreshold.toNat 0 amount 1 0 false [] [] where
  left_eq := by simp
  order_eq _ := rfl
  dust_le := by simp
  sum_eq := by simp [Nat.mod_one]
  parts_eq := rfl
  digit_mem := by simp
  increasing := List.Pairwise.nil
  passed := by simp
  handled_nonzero := by simp

/-- The digit read at a step, its chunk and what is left, as numbers. -/
theorem digit_step {amount digits : ℕ} {left order : UInt64} (fits : amount < 2 ^ 64)
    (leftEq : left.toNat = amount / 10 ^ digits) (orderEq : order.toNat = 10 ^ digits) :
    ((left % 10) * order).toNat = amount / 10 ^ digits % 10 * 10 ^ digits ∧
      (left / 10).toNat = amount / 10 ^ (digits + 1) ∧
      amount % 10 ^ (digits + 1) = amount % 10 ^ digits + amount / 10 ^ digits % 10 * 10 ^ digits ∧
      amount % 10 ^ (digits + 1) ≤ amount := by
  have split := Nat.div_add_mod amount (10 ^ digits)
  have modStep : amount % 10 ^ (digits + 1) = amount % 10 ^ digits + amount / 10 ^ digits % 10 * 10 ^ digits := by
    rw [Nat.mod_pow_succ, Nat.mul_comm (10 ^ digits)]
  have chunkLe : amount / 10 ^ digits % 10 * 10 ^ digits ≤ amount := by
    have := Nat.mod_le (amount / 10 ^ digits) 10
    have := Nat.mul_le_mul_right (10 ^ digits) this
    rw [Nat.mul_comm (10 ^ digits)] at split
    omega
  refine ⟨?_, ?_, modStep, Nat.mod_le _ _⟩
  · rw [UInt64.toNat_mul, UInt64.toNat_mod, leftEq, orderEq]
    exact Nat.mod_eq_of_lt (by simp only [UInt64.reduceToNat]; omega)
  · rw [UInt64.toNat_div, leftEq, Nat.pow_succ, ← Nat.div_div_eq_div_mul]
    rfl

/-- The order after a step is the next power of ten while digits are left. -/
theorem order_step {amount digits : ℕ} {left order : UInt64} (fits : amount < 2 ^ 64)
    (leftEq : (left / 10).toNat = amount / 10 ^ (digits + 1)) (orderEq : order.toNat = 10 ^ digits)
    (nonzero : left / 10 ≠ 0) : (order * 10).toNat = 10 ^ (digits + 1) := by
  have positive : 0 < amount / 10 ^ (digits + 1) := by
    rw [← leftEq]
    exact Nat.pos_of_ne_zero fun zero => nonzero (UInt64.toNat_inj.mp zero)
  have below : 10 ^ (digits + 1) ≤ amount := by
    by_contra above
    rw [Nat.div_eq_of_lt (by omega)] at positive
    exact Nat.lt_irrefl 0 positive
  rw [UInt64.toNat_mul, orderEq, Nat.pow_succ]
  exact Nat.mod_eq_of_lt (by simp only [UInt64.reduceToNat]; rw [← Nat.pow_succ]; omega)

section Step

variable {amount dustThreshold digits : ℕ} {left order dust threshold : UInt64} {isDustHandled : Bool}
  {parts : List AmountPart} {chunks : List (ℕ × ℕ)}
  (invariant : LoopInvariant amount dustThreshold digits left order dust isDustHandled parts chunks)
  (fits : amount < 2 ^ 64) (thresholdEq : threshold.toNat = dustThreshold) (nonzero : left ≠ 0)
include invariant fits thresholdEq nonzero

/-- A chunk within the threshold joins the dust; once a chunk has passed it, only a zero chunk can. -/
theorem LoopInvariant.within (within : dust + left % 10 * order ≤ threshold) :
    LoopInvariant amount dustThreshold (digits + 1) (left / 10) (order * 10) (dust + left % 10 * order)
      isDustHandled parts chunks := by
  obtain ⟨chunk, leftNext, modStep, modLe⟩ := digit_step fits invariant.left_eq (invariant.order_eq nonzero)
  have sum := invariant.sum_eq
  have power : 0 < 10 ^ digits := Nat.pos_of_ne_zero (by positivity)
  have added : (dust + left % 10 * order).toNat = dust.toNat + amount / 10 ^ digits % 10 * 10 ^ digits := by
    rw [UInt64.toNat_add_of_lt (by omega), chunk]
  rw [UInt64.le_iff_toNat_le, added, thresholdEq] at within
  -- after the first chunk that passed the threshold every nonzero chunk passes it too
  have zeroAfter : parts ≠ [] → amount / 10 ^ digits % 10 = 0 := by
    intro started
    have := (invariant.passed started).1
    by_contra digit
    have : 10 ^ digits ≤ amount / 10 ^ digits % 10 * 10 ^ digits :=
      Nat.le_mul_of_pos_left _ (Nat.pos_of_ne_zero digit)
    omega
  have unchanged : parts ≠ [] → dust + left % 10 * order = dust := by
    intro started
    apply UInt64.toNat_inj.mp
    rw [added, zeroAfter started, Nat.zero_mul, Nat.add_zero]
  have handledStarted : isDustHandled = true → parts ≠ [] := by
    intro handled
    rw [invariant.parts_eq, handled, if_pos rfl]
    simp
  refine ⟨leftNext, order_step fits leftNext (invariant.order_eq nonzero), by omega, by omega, ?_, ?_,
    invariant.increasing, ?_, ?_⟩
  · cases handled : isDustHandled
    · simpa [handled] using invariant.parts_eq
    · rw [unchanged (handledStarted handled)]
      simpa [handled] using invariant.parts_eq
  · intro chunk member
    have := invariant.digit_mem chunk member
    omega
  · intro started
    have := (invariant.passed started).1
    have grows : 10 ^ digits ≤ 10 ^ (digits + 1) := Nat.pow_le_pow_right (by norm_num) (by omega)
    rw [unchanged started]
    exact ⟨by omega, (invariant.passed started).2⟩
  · intro handled
    rw [unchanged (handledStarted handled)]
    exact invariant.handled_nonzero handled

/-- The first chunk that passes the threshold hands out the dust, if any; every such chunk is
handed out as the next digit. -/
theorem LoopInvariant.passes (passes : ¬ dust + left % 10 * order ≤ threshold) :
    LoopInvariant amount dustThreshold (digits + 1) (left / 10) (order * 10) dust
      (isDustHandled || !isDustHandled && dust != 0)
      (if (left % 10 * order != 0) = true then
        (if (!isDustHandled && dust != 0) = true then parts ++ [.dust dust] else parts) ++ [.chunk (left % 10 * order)]
      else if (!isDustHandled && dust != 0) = true then parts ++ [.dust dust] else parts)
      (chunks ++ [(amount / 10 ^ digits % 10, digits)]) := by
  obtain ⟨chunk, leftNext, modStep, modLe⟩ := digit_step fits invariant.left_eq (invariant.order_eq nonzero)
  have sum := invariant.sum_eq
  have dustLe := invariant.dust_le
  have added : (dust + left % 10 * order).toNat = dust.toNat + amount / 10 ^ digits % 10 * 10 ^ digits := by
    rw [UInt64.toNat_add_of_lt (by omega), chunk]
  rw [UInt64.le_iff_toNat_le, added, thresholdEq] at passes
  have digitPositive : 0 < amount / 10 ^ digits % 10 := by
    by_contra zero
    rw [Nat.eq_zero_of_not_pos zero, Nat.zero_mul] at passes
    omega
  have digitLe : amount / 10 ^ digits % 10 ≤ 9 := by omega
  have chunkNonzero : (left % 10 * order != 0) = true := by
    rw [bne_iff_ne]
    intro zero
    rw [zero, UInt64.toNat_zero] at chunk
    have := Nat.mul_pos digitPositive (Nat.pos_of_ne_zero (by positivity) : 0 < 10 ^ digits)
    omega
  have chunkEq : left % 10 * order = UInt64.ofNat (amount / 10 ^ digits % 10 * 10 ^ digits) := by
    apply UInt64.toNat_inj.mp
    rw [chunk, UInt64.toNat_ofNat',
      Nat.mod_eq_of_lt (show amount / 10 ^ digits % 10 * 10 ^ digits < 2 ^ 64 by omega)]
  -- the dust is handed out only by the first chunk that passes, when nothing was handed out before
  have handOut : (!isDustHandled && dust != 0) = true → parts = [] ∧ chunks = [] ∧ isDustHandled = false := by
    intro handles
    simp only [Bool.and_eq_true, Bool.not_eq_true', bne_iff_ne] at handles
    have empty : parts = [] := by
      by_contra started
      rcases (invariant.passed started).2 with handled | zero
      · rw [handled] at handles
        exact Bool.noConfusion handles.1
      · exact handles.2 zero
    refine ⟨empty, ?_, handles.1⟩
    have := invariant.parts_eq
    rw [empty, handles.1] at this
    simpa using this.symm
  have grows : 10 ^ (digits + 1) = 10 ^ digits * 10 := Nat.pow_succ 10 digits
  refine ⟨leftNext, order_step fits leftNext (invariant.order_eq nonzero), dustLe, ?_, ?_, ?_, ?_, ?_, ?_⟩
  · simp only [List.map_append, List.sum_append, List.map_cons, List.map_nil, List.sum_cons, List.sum_nil]
    omega
  · rw [if_pos chunkNonzero, chunkEq]
    by_cases handles : (!isDustHandled && dust != 0) = true
    · obtain ⟨empty, noChunks, notHandled⟩ := handOut handles
      simp [empty, noChunks, notHandled, chunkPart]
    · have keeps : (isDustHandled || !isDustHandled && dust != 0) = isDustHandled := by
        simp only [Bool.eq_false_iff.mpr handles, Bool.or_false]
      rw [if_neg handles, keeps, invariant.parts_eq]
      simp [chunkPart]
  · intro chunk member
    rcases List.mem_append.mp member with old | new
    · have := invariant.digit_mem chunk old
      omega
    · rw [List.mem_singleton.mp new]
      exact ⟨digitPositive, digitLe, Nat.lt_succ_self digits⟩
  · rw [List.map_append, List.pairwise_append]
    refine ⟨invariant.increasing, List.pairwise_singleton _ _, ?_⟩
    intro exponent member next nextMember
    rw [List.mem_singleton.mp nextMember]
    obtain ⟨chunk, chunkMember, rfl⟩ := List.mem_map.mp member
    exact (invariant.digit_mem chunk chunkMember).2.2
  · intro _
    refine ⟨by nlinarith, ?_⟩
    by_cases zero : dust = 0
    · exact Or.inr zero
    · left
      simp [zero]
  · intro handled
    by_cases zero : dust = 0
    · rcases Bool.or_eq_true _ _ |>.mp handled with old | handles
      · exact invariant.handled_nonzero old
      · simp [zero] at handles
    · exact zero

end Step

/-- Once no digit is left the invariant holds with nothing left to read. -/
theorem LoopInvariant.stopped {amount dustThreshold digits : ℕ} {left order dust : UInt64} {isDustHandled : Bool}
    {parts : List AmountPart} {chunks : List (ℕ × ℕ)}
    (invariant : LoopInvariant amount dustThreshold digits left order dust isDustHandled parts chunks)
    (below : amount < 10 ^ digits) :
    LoopInvariant amount dustThreshold digits 0 0 dust isDustHandled parts chunks :=
  { invariant with
    left_eq := by rw [UInt64.toNat_zero, Nat.div_eq_of_lt below]
    order_eq := fun nonzero => absurd rfl nonzero }

/-- The loop with enough fuel reads every digit and keeps the invariant. -/
theorem LoopInvariant.run {amount dustThreshold : ℕ} {threshold : UInt64} (fits : amount < 2 ^ 64)
    (thresholdEq : threshold.toNat = dustThreshold) (fuel : ℕ) :
    ∀ {digits : ℕ} {left order dust : UInt64} {isDustHandled : Bool} {parts : List AmountPart}
      {chunks : List (ℕ × ℕ)},
      LoopInvariant amount dustThreshold digits left order dust isDustHandled parts chunks →
      amount < 10 ^ (digits + fuel) →
      ∃ digits' chunks', amount < 10 ^ digits' ∧
        LoopInvariant amount dustThreshold digits' 0 0
          (decomposeAmountIntoDigitsLoopWith (fun parts chunk => parts ++ [AmountPart.chunk chunk])
            (fun parts dust => parts ++ [AmountPart.dust dust]) threshold fuel left order dust isDustHandled parts).2.1
          (decomposeAmountIntoDigitsLoopWith (fun parts chunk => parts ++ [AmountPart.chunk chunk])
            (fun parts dust => parts ++ [AmountPart.dust dust]) threshold fuel left order dust isDustHandled parts).2.2
          (decomposeAmountIntoDigitsLoopWith (fun parts chunk => parts ++ [AmountPart.chunk chunk])
            (fun parts dust => parts ++ [AmountPart.dust dust]) threshold fuel left order dust isDustHandled parts).1
          chunks' := by
  induction fuel with
  | zero =>
    intro digits left order dust isDustHandled parts chunks invariant enough
    exact ⟨digits, chunks, enough, invariant.stopped enough⟩
  | succ fuel ih =>
    intro digits left order dust isDustHandled parts chunks invariant enough
    have later : amount < 10 ^ (digits + 1 + fuel) := by
      rw [show digits + 1 + fuel = digits + (fuel + 1) by omega]
      exact enough
    simp only [decomposeAmountIntoDigitsLoopWith]
    by_cases finished : left = 0
    · rw [if_pos finished]
      have below : amount < 10 ^ digits := by
        have zero := invariant.left_eq
        rw [finished, UInt64.toNat_zero, eq_comm, Nat.div_eq_zero_iff] at zero
        rcases zero with zero | below
        · exact absurd zero (by positivity)
        · exact below
      exact ⟨digits, chunks, below, invariant.stopped below⟩
    · rw [if_neg finished]
      by_cases within : dust + left % 10 * order ≤ threshold
      · rw [if_pos within]
        exact ih (invariant.within fits thresholdEq finished within) later
      · rw [if_neg within]
        exact ih (invariant.passes fits thresholdEq finished within) later

/-- The handler calls: the dust, if any, and the chunks, whose values add up to the amount. -/
theorem decomposeAmountIntoParts_eq (amount dustThreshold : UInt64) :
    ∃ (dust : UInt64) (chunks : List (ℕ × ℕ)),
      decomposeAmountIntoParts amount dustThreshold = (if dust = 0 then [] else [.dust dust]) ++ chunks.map chunkPart ∧
      dust.toNat + (chunks.map fun chunk => chunk.1 * 10 ^ chunk.2).sum = amount.toNat ∧
      dust ≤ dustThreshold ∧ (∀ chunk ∈ chunks, 1 ≤ chunk.1 ∧ chunk.1 ≤ 9) ∧
      (chunks.map Prod.snd).Pairwise (· < ·) := by
  have fits := amount.toNat_lt
  have enough : amount.toNat < 10 ^ (0 + 20) := by omega
  obtain ⟨digits, chunks, below, invariant⟩ :=
    LoopInvariant.run fits rfl 20 (LoopInvariant.start amount dustThreshold) enough
  have sum := invariant.sum_eq
  rw [Nat.mod_eq_of_lt below] at sum
  have digitsIn (chunk : ℕ × ℕ) (member : chunk ∈ chunks) : 1 ≤ chunk.1 ∧ chunk.1 ≤ 9 :=
    ⟨(invariant.digit_mem chunk member).1, (invariant.digit_mem chunk member).2.1⟩
  have dustLe : _ ≤ dustThreshold := UInt64.le_iff_toNat_le.mpr invariant.dust_le
  unfold decomposeAmountIntoParts decomposeAmountIntoDigitsWith
  split_ifs with zero
  · refine ⟨0, [], by simp, by simp [zero], UInt64.zero_le, by simp, List.Pairwise.nil⟩
  · generalize decomposeAmountIntoDigitsLoopWith _ _ dustThreshold 20 amount 1 0 false [] = result at invariant dustLe sum ⊢
    obtain ⟨parts, dust, isDustHandled⟩ := result
    have partsEq := invariant.parts_eq
    dsimp only at invariant dustLe sum partsEq ⊢
    -- the dust was handed out by the first passing chunk, at the end, or never
    cases isDustHandled
    · by_cases noDust : dust = 0
      · refine ⟨dust, chunks, ?_, sum, dustLe, digitsIn, invariant.increasing⟩
        simp [partsEq, noDust]
      · have empty : parts = [] := by
          by_contra started
          rcases (invariant.passed started).2 with handled | zero
          · exact Bool.noConfusion handled
          · exact noDust zero
        have noChunks : chunks = [] := by simpa [empty] using partsEq
        refine ⟨dust, chunks, ?_, sum, dustLe, digitsIn, invariant.increasing⟩
        simp [empty, noChunks, noDust]
    · refine ⟨dust, chunks, ?_, sum, dustLe, digitsIn, invariant.increasing⟩
      simp [partsEq, invariant.handled_nonzero rfl]

/-! ## Thresholds that never join two chunks

The wallet decomposes the sum of a fusion transaction with no dust threshold, and the daemon
decomposes it again with the fusion dust threshold. When no two nonzero chunks of the amount fit
under the threshold together, the dust holds at most one nonzero chunk, and it is handed out where
the loop without a threshold hands out that chunk: the two loops run in step, the pending dust
making up the difference, and end with the same amounts. -/

/-- No two nonzero chunks of the amount fit under the threshold together. -/
def ChunksSeparated (amount dustThreshold : ℕ) : Prop :=
  ∀ i j, i < j → amount / 10 ^ i % 10 ≠ 0 → amount / 10 ^ j % 10 ≠ 0 →
    dustThreshold < amount / 10 ^ i % 10 * 10 ^ i + amount / 10 ^ j % 10 * 10 ^ j

/-- The dust a loop holds and has not handed out. -/
def pendingDust (dust : UInt64) (isDustHandled : Bool) : List UInt64 :=
  if !isDustHandled && dust != 0 then [dust] else []

/-- A step of the loop without a threshold hands out the chunk when it is not zero, and holds no
dust. -/
theorem decomposeAmountLoop_zero_succ (fuel : ℕ) {left : UInt64} (order : UInt64) (amounts : List UInt64)
    (nonzero : left ≠ 0) :
    decomposeAmountIntoDigitsLoopWith (fun amounts chunk => amounts ++ [chunk]) (fun amounts dust => amounts ++ [dust])
        0 (fuel + 1) left order 0 false amounts =
      decomposeAmountIntoDigitsLoopWith (fun amounts chunk => amounts ++ [chunk]) (fun amounts dust => amounts ++ [dust])
        0 fuel (left / 10) (order * 10) 0 false
        (if left % 10 * order = 0 then amounts else amounts ++ [left % 10 * order]) := by
  rw [decomposeAmountIntoDigitsLoopWith, if_neg nonzero]
  by_cases zero : left % 10 * order = 0
  · rw [if_pos (by rw [zero, UInt64.add_zero]; decide), zero, UInt64.add_zero, if_pos rfl]
  · have passes : ¬ 0 + left % 10 * order ≤ 0 := by
      rw [UInt64.zero_add, UInt64.le_iff_toNat_le, UInt64.toNat_zero, Nat.le_zero]
      exact fun zeroNat => zero (UInt64.toNat_inj.mp zeroNat)
    rw [if_neg passes, if_neg zero]
    simp [zero]

/-- Without a threshold the loop ends with no dust, never handled. -/
theorem decomposeAmountLoop_zero_dust (fuel : ℕ) :
    ∀ (left order : UInt64) (amounts : List UInt64),
      (decomposeAmountIntoDigitsLoopWith (fun amounts chunk => amounts ++ [chunk]) (fun amounts dust => amounts ++ [dust])
        0 fuel left order 0 false amounts).2 = (0, false) := by
  induction fuel with
  | zero => intro _ _ _; rfl
  | succ fuel ih =>
    intro left order amounts
    by_cases finished : left = 0
    · simp [decomposeAmountIntoDigitsLoopWith, finished]
    · rw [decomposeAmountLoop_zero_succ fuel order amounts finished]
      exact ih _ _ _

/-- A chunk that passes the threshold leaves no dust pending: the dust is handed out if it was. -/
theorem pendingDust_handOut (dust : UInt64) (isDustHandled : Bool) :
    pendingDust dust (isDustHandled || !isDustHandled && dust != 0) = [] := by
  cases isDustHandled <;> by_cases zero : dust = 0 <;> simp [pendingDust, zero]

/-- How the loop with a threshold stands to the loop without after the same `digits` steps: what
it handed out and its pending dust are what the other handed out, and its dust is one nonzero chunk
read so far or none. -/
structure Simulates (amount digits : ℕ) (left order dust : UInt64) (isDustHandled : Bool)
    (amounts zeroAmounts : List UInt64) : Prop where
  left_eq : left.toNat = amount / 10 ^ digits
  order_eq : left ≠ 0 → order.toNat = 10 ^ digits
  amounts_eq : zeroAmounts = amounts ++ pendingDust dust isDustHandled
  dust_le : dust.toNat ≤ amount % 10 ^ digits
  dust_chunk : dust ≠ 0 → ∃ i < digits, amount / 10 ^ i % 10 ≠ 0 ∧ dust.toNat = amount / 10 ^ i % 10 * 10 ^ i
  handled_nonzero : isDustHandled = true → dust ≠ 0

theorem Simulates.start (amount : UInt64) : Simulates amount.toNat 0 amount 1 0 false [] [] where
  left_eq := by simp
  order_eq _ := rfl
  amounts_eq := rfl
  dust_le := Nat.zero_le _
  dust_chunk zero := absurd rfl zero
  handled_nonzero handled := Bool.noConfusion handled

section SimulationStep

variable {amount dustThreshold digits : ℕ} {left order dust threshold : UInt64} {isDustHandled : Bool}
  {amounts zeroAmounts : List UInt64}
  (simulates : Simulates amount digits left order dust isDustHandled amounts zeroAmounts)
  (fits : amount < 2 ^ 64) (thresholdEq : threshold.toNat = dustThreshold)
  (separated : ChunksSeparated amount dustThreshold) (nonzero : left ≠ 0)
include simulates fits thresholdEq separated nonzero

/-- A chunk within the threshold joins the dust: a zero chunk changes nothing, and a nonzero one
finds the dust empty, since the two would fit under the threshold together. -/
theorem Simulates.within (within : dust + left % 10 * order ≤ threshold) :
    Simulates amount (digits + 1) (left / 10) (order * 10) (dust + left % 10 * order) isDustHandled amounts
      (if left % 10 * order = 0 then zeroAmounts else zeroAmounts ++ [left % 10 * order]) := by
  obtain ⟨chunk, leftNext, modStep, modLe⟩ := digit_step fits simulates.left_eq (simulates.order_eq nonzero)
  have dustLe := simulates.dust_le
  have added : (dust + left % 10 * order).toNat = dust.toNat + amount / 10 ^ digits % 10 * 10 ^ digits := by
    rw [UInt64.toNat_add_of_lt (by omega), chunk]
  have orderNext : left / 10 ≠ 0 → (order * 10).toNat = 10 ^ (digits + 1) :=
    order_step fits leftNext (simulates.order_eq nonzero)
  by_cases zero : left % 10 * order = 0
  · rw [zero, UInt64.add_zero, if_pos rfl]
    refine ⟨leftNext, orderNext, simulates.amounts_eq, by omega, fun held => ?_, simulates.handled_nonzero⟩
    obtain ⟨i, below, digit, value⟩ := simulates.dust_chunk held
    exact ⟨i, by omega, digit, value⟩
  · have digitNonzero : amount / 10 ^ digits % 10 ≠ 0 := by
      intro digit
      rw [digit, Nat.zero_mul] at chunk
      exact zero (UInt64.toNat_inj.mp chunk)
    have empty : dust = 0 := by
      by_contra held
      obtain ⟨i, below, digit, value⟩ := simulates.dust_chunk held
      have := separated i digits below digit digitNonzero
      rw [UInt64.le_iff_toNat_le, added, thresholdEq] at within
      omega
    have notHandled : isDustHandled = false := by
      cases handled : isDustHandled
      · rfl
      · exact absurd empty (simulates.handled_nonzero handled)
    have amountsEq := simulates.amounts_eq
    subst empty notHandled
    rw [if_neg zero, UInt64.zero_add]
    refine ⟨leftNext, orderNext, ?_, by omega, fun _ => ⟨digits, Nat.lt_succ_self digits, digitNonzero, chunk⟩,
      fun handled => Bool.noConfusion handled⟩
    simp [amountsEq, pendingDust, zero]

omit thresholdEq separated in
/-- A chunk that passes the threshold hands out the pending dust and then itself, as the loop
without a threshold hands out the chunk. The update keeps the relation whatever the chunk. -/
theorem Simulates.passes :
    Simulates amount (digits + 1) (left / 10) (order * 10) dust (isDustHandled || !isDustHandled && dust != 0)
      (if (left % 10 * order != 0) = true then
        (if (!isDustHandled && dust != 0) = true then amounts ++ [dust] else amounts) ++ [left % 10 * order]
      else if (!isDustHandled && dust != 0) = true then amounts ++ [dust] else amounts)
      (if left % 10 * order = 0 then zeroAmounts else zeroAmounts ++ [left % 10 * order]) := by
  obtain ⟨_, leftNext, modStep, _⟩ := digit_step fits simulates.left_eq (simulates.order_eq nonzero)
  have dustLe := simulates.dust_le
  refine ⟨leftNext, order_step fits leftNext (simulates.order_eq nonzero), ?_, by omega, fun held => ?_, ?_⟩
  · -- the dust is handed out now if it was pending, so nothing is pending after the step
    rw [simulates.amounts_eq, pendingDust_handOut, pendingDust]
    by_cases handles : (!isDustHandled && dust != 0) = true <;>
      by_cases zero : left % 10 * order = 0 <;>
      simp only [handles, zero, if_true, if_false, bne_self_eq_false, Bool.false_eq_true, List.append_nil,
        List.append_assoc, bne_iff_ne, ne_eq, not_false_eq_true]
  · obtain ⟨i, below, digit, value⟩ := simulates.dust_chunk held
    exact ⟨i, by omega, digit, value⟩
  · intro handled
    rcases Bool.or_eq_true _ _ |>.mp handled with old | handles
    · exact simulates.handled_nonzero old
    · simp only [Bool.and_eq_true, bne_iff_ne] at handles
      exact handles.2

end SimulationStep

/-- The loops with and without the threshold, run in step from related states, end related. -/
theorem Simulates.run {amount dustThreshold : ℕ} {threshold : UInt64} (fits : amount < 2 ^ 64)
    (thresholdEq : threshold.toNat = dustThreshold) (separated : ChunksSeparated amount dustThreshold) (fuel : ℕ) :
    ∀ {digits : ℕ} {left order dust : UInt64} {isDustHandled : Bool} {amounts zeroAmounts : List UInt64},
      Simulates amount digits left order dust isDustHandled amounts zeroAmounts →
      (decomposeAmountIntoDigitsLoopWith (fun amounts chunk => amounts ++ [chunk]) (fun amounts dust => amounts ++ [dust])
          0 fuel left order 0 false zeroAmounts).1 =
        (decomposeAmountIntoDigitsLoopWith (fun amounts chunk => amounts ++ [chunk])
            (fun amounts dust => amounts ++ [dust]) threshold fuel left order dust isDustHandled amounts).1 ++
          pendingDust
            (decomposeAmountIntoDigitsLoopWith (fun amounts chunk => amounts ++ [chunk])
              (fun amounts dust => amounts ++ [dust]) threshold fuel left order dust isDustHandled amounts).2.1
            (decomposeAmountIntoDigitsLoopWith (fun amounts chunk => amounts ++ [chunk])
              (fun amounts dust => amounts ++ [dust]) threshold fuel left order dust isDustHandled amounts).2.2 := by
  induction fuel with
  | zero => exact fun simulates => simulates.amounts_eq
  | succ fuel ih =>
    intro digits left order dust isDustHandled amounts zeroAmounts simulates
    by_cases finished : left = 0
    · simpa [decomposeAmountIntoDigitsLoopWith, finished] using simulates.amounts_eq
    · rw [decomposeAmountLoop_zero_succ fuel order zeroAmounts finished, decomposeAmountIntoDigitsLoopWith,
        if_neg finished]
      by_cases within : dust + left % 10 * order ≤ threshold
      · rw [if_pos within]
        exact ih (simulates.within fits thresholdEq separated finished within)
      · rw [if_neg within]
        exact ih (simulates.passes fits finished)

/-- Under a threshold that never joins two chunks of the amount, `decomposeAmount` hands out what
it hands out with no threshold. -/
theorem decomposeAmount_eq_of_separated (amount dustThreshold : UInt64)
    (separated : ChunksSeparated amount.toNat dustThreshold.toNat) :
    decomposeAmount amount dustThreshold [] = decomposeAmount amount 0 [] := by
  have run := Simulates.run amount.toNat_lt rfl separated 20 (Simulates.start amount)
  have zeroDust := decomposeAmountLoop_zero_dust 20 amount 1 []
  unfold decomposeAmount decomposeAmountIntoDigitsWith
  split_ifs
  · rfl
  · generalize decomposeAmountIntoDigitsLoopWith _ _ dustThreshold 20 amount 1 0 false [] = result at run ⊢
    generalize decomposeAmountIntoDigitsLoopWith _ _ 0 20 amount 1 0 false [] = zeroResult at run zeroDust ⊢
    obtain ⟨amounts, dust, isDustHandled⟩ := result
    obtain ⟨zeroAmounts, zeroDustLeft, zeroHandled⟩ := zeroResult
    simp only [Prod.mk.injEq] at zeroDust
    obtain ⟨rfl, rfl⟩ := zeroDust
    simp only at run ⊢
    rw [run, pendingDust]
    split_ifs <;> simp_all

/-- A multiple of `10 ^ b` has no nonzero digit below place `b`. -/
theorem digit_eq_zero_of_dvd {amount b i : ℕ} (divides : 10 ^ b ∣ amount) (below : i < b) :
    amount / 10 ^ i % 10 = 0 := by
  obtain ⟨q, rfl⟩ := divides
  have split : 10 ^ b = 10 ^ i * (10 * 10 ^ (b - i - 1)) := by
    rw [← Nat.pow_succ', ← Nat.pow_add]
    congr 1
    omega
  rw [split, Nat.mul_assoc, Nat.mul_div_cancel_left _ (Nat.pow_pos (by norm_num)), Nat.mul_assoc, Nat.mul_mod_right]

/-- A multiple of `10 ^ b` with a threshold below `10 ^ (b + 1)`: its nonzero chunks lie from place
`b` on, so of any two the higher is worth more than the threshold. -/
theorem chunksSeparated_of_dvd {amount dustThreshold b : ℕ} (divides : 10 ^ b ∣ amount)
    (small : dustThreshold < 10 ^ (b + 1)) : ChunksSeparated amount dustThreshold := by
  intro i j lower lowerDigit higherDigit
  have lowerPlace : b ≤ i := by
    by_contra below
    exact lowerDigit (digit_eq_zero_of_dvd divides (by omega))
  have higher : 10 ^ (b + 1) ≤ amount / 10 ^ j % 10 * 10 ^ j :=
    (Nat.pow_le_pow_right (by norm_num) (by omega)).trans
      (Nat.le_mul_of_pos_left _ (Nat.pos_of_ne_zero higherDigit))
  omega

end Nox.CryptoNote
