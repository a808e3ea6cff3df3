import Mathlib.Data.Int.Notation
import Mathlib.Data.Nat.Notation
import Mathlib.Order.Defs.LinearOrder
import Nox.Library.BoundedQuantifiers

/-! # LWMA-2: `nextDifficultyV5` of `Difficulty.cpp`

The difficulty of the next block from the last `DIFFICULTY_WINDOW_V3 + 1` timestamps and
cumulative difficulties. The solve times, clamped to `[-4T, 6T]`, are weighted by their position in
the window and summed to `L`; the work of the window, scaled by `T (N + 1) 99`, is divided by
`200 L`, and the result is kept within `67%` and `150%` of the last block's difficulty, and raised to
`108%` of it after three fast blocks.

The `int64_t` arithmetic is exact integer arithmetic, and an operation that can overflow gives
`none`, as does the division by `200 L` when `L` is zero: both are undefined behaviour. The other
operations stay far inside the range. `static_cast` between `uint64_t` and `int64_t` is two's
complement.
-/

namespace Nox.CryptoNote

def DIFFICULTY_TARGET : ℕ := 30
def DIFFICULTY_WINDOW_V3 : ℕ := 60

/-- A value of `int64_t`. -/
def InInt64 (value : ℤ) : Prop := -2 ^ 63 ≤ value ∧ value < 2 ^ 63

instance : DecidablePred InInt64 := fun _ => by unfold InInt64; infer_instance

/-- An `int64_t` operation with exact result `value`; `none` is a signed overflow. -/
def checkedInt64 (value : ℤ) : Option ℤ := if InInt64 value then some value else none

/-- `static_cast<int64_t>` of a `uint64_t`. -/
def int64OfUInt64 (value : UInt64) : ℤ :=
  if value.toNat < 2 ^ 63 then value.toNat else (value.toNat : ℤ) - 2 ^ 64

/-- `ST` of the loop at `i`: the difference of two timestamps, clamped to `[-4T, 6T]`. -/
def clampedSolveTime (timestamps : List UInt64) (i : ℕ) : Option ℤ := do
  let ST ← checkedInt64 (int64OfUInt64 (timestamps.getD i 0) - int64OfUInt64 (timestamps.getD (i - 1) 0))
  pure (max (-4 * DIFFICULTY_TARGET) (min ST (6 * DIFFICULTY_TARGET)))

/-- One iteration of the loop: `L += ST * i`, and `sum_3_ST += ST` for the last three. -/
def solveTimeStep (timestamps : List UInt64) (sums : ℤ × ℤ) (i : ℕ) : Option (ℤ × ℤ) := do
  let ST ← clampedSolveTime timestamps i
  pure (sums.1 + ST * i, if i > DIFFICULTY_WINDOW_V3 - 3 then sums.2 + ST else sums.2)

/-- The `for` loop over `i = 1..N`: `L`, the solve times weighted by `i`, and `sum_3_ST`, the sum
of the last three. -/
def solveTimeSums (timestamps : List UInt64) : Option (ℤ × ℤ) :=
  (List.range' 1 DIFFICULTY_WINDOW_V3).foldlM (solveTimeStep timestamps) (0, 0)

/-- `nextDifficultyV5(timestamps, cumulativeDifficulties)`; `none` is undefined behaviour: a signed
overflow, an index past the difficulties, or the division by a zero `L`. -/
def nextDifficultyV5 (timestamps cumulativeDifficulties : List UInt64) : Option UInt64 :=
  let T : ℤ := DIFFICULTY_TARGET
  let N := DIFFICULTY_WINDOW_V3
  if timestamps.length < N + 1 then some 10000
  else do
    let (L, sum_3_ST) ← solveTimeSums timestamps
    let last ← cumulativeDifficulties[N]?
    let first ← cumulativeDifficulties[0]?
    let previous ← cumulativeDifficulties[N - 1]?
    let work ← checkedInt64 (int64OfUInt64 (last - first) * T * (N + 1) * 99)
    if 100 * 2 * L = 0 then none
    else
      let prev_D := int64OfUInt64 (last - previous)
      let low ← checkedInt64 (prev_D * 67)
      let high ← checkedInt64 (prev_D * 150)
      let next_D := max (low.tdiv 100) (min (work.tdiv (100 * 2 * L)) (high.tdiv 100))
      if sum_3_ST < (8 * T).tdiv 10 then do
        let raised ← checkedInt64 (prev_D * 108)
        pure (UInt64.ofInt (max next_D (raised.tdiv 100)))
      else pure (UInt64.ofInt next_D)

end Nox.CryptoNote
