import Mathlib.Tactic.Ring
import Nox.Model.CryptoNoteCore.Difficulty

/-! # When `nextDifficultyV5` is defined

The loop is described by the solve times it meets: when every `ST` is defined, `L` and `sum_3_ST`
are their weighted and their last sums. Timestamps below `2 ^ 63` make every `ST` defined, and
cumulative difficulties below `2 ^ 63 / (T (N + 1) 99)` every product; the one undefined step left
is then the division by `200 L`, exactly when `L` is zero, which a window of equal timestamps gives.
-/

namespace Nox.CryptoNote

/-- The loop over any indexes whose solve times are all defined. -/
theorem foldlM_solveTimeStep (timestamps : List UInt64) (solveTime : ℕ → ℤ) :
    ∀ (indexes : List ℕ) (sums : ℤ × ℤ), (∀ i ∈ indexes, clampedSolveTime timestamps i = some (solveTime i)) →
      indexes.foldlM (solveTimeStep timestamps) sums =
        some (sums.1 + (indexes.map fun i => solveTime i * i).sum,
          sums.2 + ((indexes.filter fun i => i > DIFFICULTY_WINDOW_V3 - 3).map solveTime).sum) := by
  intro indexes
  induction indexes with
  | nil => simp
  | cons i indexes ih =>
    intro sums defined
    have step : solveTimeStep timestamps sums i = some (sums.1 + solveTime i * i,
        if i > DIFFICULTY_WINDOW_V3 - 3 then sums.2 + solveTime i else sums.2) := by
      simp [solveTimeStep, defined i List.mem_cons_self]
    rw [List.foldlM_cons, step, Option.bind_eq_bind, Option.bind_some,
      ih _ fun j member => defined j (List.mem_cons_of_mem _ member)]
    by_cases late : i > DIFFICULTY_WINDOW_V3 - 3
    · simp only [late, if_true, decide_true, List.map_cons, List.sum_cons, List.filter_cons, Option.some.injEq,
        Prod.mk.injEq]
      constructor <;> ring
    · simp only [late, if_false, decide_false, Bool.false_eq_true, List.map_cons, List.sum_cons, List.filter_cons,
        Option.some.injEq, Prod.mk.injEq]
      exact ⟨by ring, trivial⟩

theorem checkedInt64_of_inInt64 {value : ℤ} (fits : InInt64 value) : checkedInt64 value = some value := by
  rw [checkedInt64, if_pos fits]

/-- Below `2 ^ 63` a timestamp is its own `int64_t`. -/
theorem int64OfUInt64_of_lt {value : UInt64} (small : value.toNat < 2 ^ 63) : int64OfUInt64 value = value.toNat := by
  rw [int64OfUInt64, if_pos small]

theorem clampedSolveTime_of_small {timestamps : List UInt64} (i : ℕ)
    (small : ∀ timestamp ∈ timestamps, timestamp.toNat < 2 ^ 63) :
    clampedSolveTime timestamps i = some (max (-4 * (DIFFICULTY_TARGET : ℤ))
      (min ((timestamps.getD i 0).toNat - (timestamps.getD (i - 1) 0).toNat : ℤ) (6 * DIFFICULTY_TARGET))) := by
  have getD_small : ∀ j, (timestamps.getD j 0).toNat < 2 ^ 63 := by
    intro j
    rw [List.getD_eq_getElem?_getD]
    cases found : timestamps[j]? with
    | none => simp
    | some timestamp => exact small timestamp (List.mem_of_getElem? found)
  have later := getD_small i
  have earlier := getD_small (i - 1)
  have fits : InInt64 (((timestamps.getD i 0).toNat : ℤ) - (timestamps.getD (i - 1) 0).toNat) := by
    unfold InInt64
    omega
  simp only [clampedSolveTime, int64OfUInt64_of_lt later, int64OfUInt64_of_lt earlier, checkedInt64, if_pos fits,
    Option.bind_eq_bind, Option.bind_some, Option.pure_def]

/-- A window of one timestamp repeated has no solve time at all. -/
theorem solveTimeSums_replicate (timestamp : UInt64) :
    solveTimeSums (List.replicate (DIFFICULTY_WINDOW_V3 + 1) timestamp) = some (0, 0) := by
  have zero : ∀ i ∈ List.range' 1 DIFFICULTY_WINDOW_V3,
      clampedSolveTime (List.replicate (DIFFICULTY_WINDOW_V3 + 1) timestamp) i = some ((fun _ => 0) i) := by
    intro i member
    have within : i < DIFFICULTY_WINDOW_V3 + 1 := by
      rw [List.mem_range'_1] at member
      omega
    simp only [clampedSolveTime, List.getD_eq_getElem?_getD, List.getElem?_replicate, if_pos within,
      if_pos (show i - 1 < DIFFICULTY_WINDOW_V3 + 1 by omega), Option.getD_some, sub_self, checkedInt64,
      Option.bind_eq_bind, Option.pure_def]
    rw [if_pos (by decide)]
    rfl
  rw [solveTimeSums, foldlM_solveTimeStep _ _ _ _ zero]
  simp [List.map_const']

/-- With `L` zero the division by `200 L` is reached, whatever the difficulties. -/
theorem nextDifficultyV5_replicate (timestamp : UInt64) {cumulativeDifficulties : List UInt64}
    (enough : DIFFICULTY_WINDOW_V3 + 1 ≤ cumulativeDifficulties.length) :
    nextDifficultyV5 (List.replicate (DIFFICULTY_WINDOW_V3 + 1) timestamp) cumulativeDifficulties = none := by
  have last := List.getElem?_eq_getElem (show DIFFICULTY_WINDOW_V3 < cumulativeDifficulties.length by omega)
  have first := List.getElem?_eq_getElem (show 0 < cumulativeDifficulties.length by omega)
  have previous := List.getElem?_eq_getElem (show DIFFICULTY_WINDOW_V3 - 1 < cumulativeDifficulties.length by omega)
  simp only [nextDifficultyV5, List.length_replicate, lt_self_iff_false, if_false, solveTimeSums_replicate,
    last, first, previous, Option.bind_eq_bind, Option.bind_some]
  cases checkedInt64 _ <;> simp

/-- Timestamps below `2 ^ 63` and difficulties in order below `2 ^ 63 / (T (N + 1) 99)` leave only the
division by `200 L` undefined: with `L` nonzero the difficulty is computed. -/
theorem nextDifficultyV5_isSome {timestamps cumulativeDifficulties : List UInt64} {first previous last : UInt64}
    (small : ∀ timestamp ∈ timestamps, timestamp.toNat < 2 ^ 63)
    (firstAt : cumulativeDifficulties[0]? = some first)
    (previousAt : cumulativeDifficulties[DIFFICULTY_WINDOW_V3 - 1]? = some previous)
    (lastAt : cumulativeDifficulties[DIFFICULTY_WINDOW_V3]? = some last)
    (ordered : first ≤ previous ∧ previous ≤ last)
    (bounded : last.toNat * (DIFFICULTY_TARGET * (DIFFICULTY_WINDOW_V3 + 1) * 99) < 2 ^ 63)
    (moving : ∀ sums, solveTimeSums timestamps = some sums → sums.1 ≠ 0) :
    (nextDifficultyV5 timestamps cumulativeDifficulties).isSome := by
  obtain ⟨sums, summed⟩ : ∃ sums, solveTimeSums timestamps = some sums :=
    ⟨_, foldlM_solveTimeStep timestamps _ _ _ fun i _ => clampedSolveTime_of_small i small⟩
  have nonzero : ¬ 100 * 2 * sums.1 = 0 := by
    have := moving sums summed
    omega
  unfold DIFFICULTY_TARGET DIFFICULTY_WINDOW_V3 at bounded
  have firstLe := UInt64.le_iff_toNat_le.mp ordered.1
  have previousLe := UInt64.le_iff_toNat_le.mp ordered.2
  have work : (last - first).toNat = last.toNat - first.toNat :=
    UInt64.toNat_sub_of_le _ _ (UInt64.le_trans ordered.1 ordered.2)
  have delta : (last - previous).toNat = last.toNat - previous.toNat := UInt64.toNat_sub_of_le _ _ ordered.2
  dsimp only [nextDifficultyV5]
  split_ifs with short
  · rfl
  · have workInt : int64OfUInt64 (last - first) = ((last.toNat - first.toNat : ℕ) : ℤ) := by
      rw [int64OfUInt64_of_lt (by omega), work]
    have deltaInt : int64OfUInt64 (last - previous) = ((last.toNat - previous.toNat : ℕ) : ℤ) := by
      rw [int64OfUInt64_of_lt (by omega), delta]
    -- every product is at most `last * T (N + 1) 99`
    have fits : ∀ factor : ℤ, 0 ≤ factor → factor ≤ 150 →
        InInt64 (((last.toNat - previous.toNat : ℕ) : ℤ) * factor) := by
      intro factor nonnegative atMost
      have below : ((last.toNat - previous.toNat : ℕ) : ℤ) * factor ≤ ((last.toNat - previous.toNat : ℕ) : ℤ) * 150 :=
        Int.mul_le_mul_of_nonneg_left atMost (by omega)
      have above : 0 ≤ ((last.toNat - previous.toNat : ℕ) : ℤ) * factor := Int.mul_nonneg (by omega) nonnegative
      unfold InInt64
      omega
    have workFits : InInt64 (((last.toNat - first.toNat : ℕ) : ℤ) * ↑DIFFICULTY_TARGET * (↑DIFFICULTY_WINDOW_V3 + 1) * 99) := by
      unfold InInt64 DIFFICULTY_TARGET DIFFICULTY_WINDOW_V3
      push_cast
      omega
    simp only [summed, firstAt, previousAt, lastAt, workInt, deltaInt, checkedInt64_of_inInt64 workFits,
      if_neg nonzero, checkedInt64_of_inInt64 (fits 67 (by decide) (by decide)),
      checkedInt64_of_inInt64 (fits 150 (by decide) (by decide)), Option.bind_eq_bind, Option.bind_some]
    split_ifs
    · rw [checkedInt64_of_inInt64 (fits 108 (by decide) (by decide))]
      rfl
    · rfl

end Nox.CryptoNote
