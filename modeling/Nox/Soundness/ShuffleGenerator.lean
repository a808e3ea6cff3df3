import Nox.Proofs.Common.ShuffleUniform

/-! # The sparse Fisher–Yates shuffle is uniform

`ShuffleGenerator(n)` hands out the indexes below `n`, each once, in its first `n` calls, and throws
`SequenceEnded` at the next, whatever its engine draws. The draws in range, the `k`-th below
`n - k`, are in bijection with the orders of the indexes: every order comes from exactly one
sequence of draws. Hence each `m` distinct indexes, in each order, start the output of the same
number `(n - m)!` of sequences of draws, and under uniform draws every prefix is equally likely.
-/

namespace Nox.Common

open Nox.CryptoNote.ShuffleGenerator ShuffleGenerator

/-- The generator hands out a permutation of the indexes and then throws, the map from draws in
range to its outputs is a bijection onto the permutations, and every prefix of distinct indexes
starts the output of `(n - m)!` sequences of draws. -/
theorem shuffleGenerator_uniform_permutation :
    (∀ (n : ℕ) (generator : ℕ → ℕ), ∃ values after,
      drawMany (ShuffleGenerator.new n generator) n = some (values, after) ∧
        values.Perm (List.range n) ∧ after.next = none) ∧
      (∀ n : ℕ, Function.Injective (shuffleOrder n) ∧
        ∀ order : List ℕ, order.Perm (List.range n) ↔ ∃ draws, shuffleOrder n draws = some order) ∧
      ∀ (n : ℕ) (pre : List ℕ), pre.Nodup → (∀ value ∈ pre, value < n) →
        Nat.card {draws : DrawSequence n // ∃ order, shuffleOrder n draws = some order ∧ pre <+: order} =
          (n - pre.length).factorial :=
  ⟨drawMany_new, fun n => ⟨shuffleOrder_injective n, perm_range_iff_shuffleOrder n⟩,
    fun n _ distinct below => card_shuffleOrder_prefix n distinct below⟩

namespace Scenario

/-- The draws `1, 0` for a generator of two indexes. -/
def reversingDraws : DrawSequence 2 := fun k => ⟨1 - k, by have := k.isLt; omega⟩

/-- Drawing `1` and then `0` hands out `1, 0`; and the index `2` starts the output of two of the
six sequences of draws for three indexes. -/
theorem shuffleGenerator_uniform_permutation_reversed :
    shuffleOrder 2 reversingDraws = some [1, 0] ∧
      ([2].Nodup ∧ ∀ value ∈ [2], value < 3) ∧
      Nat.card {draws : DrawSequence 3 // ∃ order, shuffleOrder 3 draws = some order ∧ [2] <+: order} = 2 := by
  have prefixed : [2].Nodup ∧ ∀ value ∈ [2], value < 3 := by decide
  refine ⟨by decide, prefixed, ?_⟩
  rw [shuffleGenerator_uniform_permutation.2.2 3 [2] prefixed.1 prefixed.2]
  rfl

end Scenario

end Nox.Common
