import Mathlib.Logic.Function.Basic
import Mathlib.Data.Nat.Notation
import Nox.Library.BoundedQuantifiers

/-! # `ShuffleGenerator` of `ShuffleGenerator.h`

The generator hands out the indexes below `N` in a random order, one per call, by a Fisher–Yates
shuffle whose swaps it keeps in a sparse map: the array it shuffles is the identity except where
`selected` says otherwise. Each call draws a position below the count of indexes left, returns what
the array holds there, and moves the array's last live entry into that position.

The map is its lookup function. The engine and the `uniform_int_distribution` over it are the
stream of values `generator`: the call that draws from `0 .. count` takes the next value of the
stream modulo `count + 1`, so that every sequence of draws in range is some stream.
-/

namespace Nox.Common

/-- `ShuffleGenerator<size_t, Gen>`: the swaps made so far, the count of indexes not yet handed
out, and the draws still to come. -/
structure ShuffleGenerator where
  selected : ℕ → Option ℕ
  count : ℕ
  generator : ℕ → ℕ

/-- `ShuffleGenerator(n, gen)`. -/
def ShuffleGenerator.new (n : ℕ) (generator : ℕ → ℕ) : ShuffleGenerator := ⟨fun _ => none, n, generator⟩

/-- `empty()`. -/
def ShuffleGenerator.empty (shuffle : ShuffleGenerator) : Bool := shuffle.count == 0

/-- `operator()()`: `none` where it throws `SequenceEnded`. -/
def ShuffleGenerator.next (shuffle : ShuffleGenerator) : Option (ℕ × ShuffleGenerator) :=
  if shuffle.count = 0 then none
  else
    let count := shuffle.count - 1
    let value := shuffle.generator 0 % (count + 1)
    let rval := (shuffle.selected count).getD count
    let generator := fun k => shuffle.generator (k + 1)
    match shuffle.selected value with
    | some lval => some (lval, ⟨Function.update shuffle.selected value (some rval), count, generator⟩)
    | none => some (value, ⟨Function.update shuffle.selected value (some rval), count, generator⟩)

/-- A call retires one index. -/
theorem ShuffleGenerator.count_lt_of_next {shuffle shuffle' : ShuffleGenerator} {value : ℕ}
    (drawn : shuffle.next = some (value, shuffle')) : shuffle'.count < shuffle.count := by
  rw [ShuffleGenerator.next] at drawn
  split at drawn
  · cases drawn
  · dsimp only at drawn
    split at drawn <;>
    · cases drawn
      dsimp only
      omega

end Nox.Common
