import Mathlib.Data.List.Basic
import Nox.Library.BoundedQuantifiers

/-! # Sums in 64-bit words

A `uint64_t` accumulator adds modulo `2 ^ 64`. While the true value stays below `2 ^ 64` the word
holds it: these lemmas say so for a list summed into a word, for a plain sum, and for an increment
that is itself a wrapped difference `increase - decrease`, as a signed change kept in a word is.
-/

namespace UInt64

theorem toNat_add_of_lt {a b : UInt64} (small : a.toNat + b.toNat < 2 ^ 64) :
    (a + b).toNat = a.toNat + b.toNat := by
  rw [UInt64.toNat_add, Nat.mod_eq_of_lt small]

/-- A sum of words is the sum of their values while that stays below `2 ^ 64`. -/
theorem toNat_sum_of_lt (words : List UInt64) (small : (words.map toNat).sum < 2 ^ 64) :
    words.sum.toNat = (words.map toNat).sum := by
  induction words with
  | nil => rfl
  | cons word words ih =>
    simp only [List.map_cons, List.sum_cons] at small ⊢
    rw [toNat_add_of_lt (by rw [ih (by omega)]; exact small), ih (by omega)]

/-- Adding a wrapped difference gives the true value when that is neither negative nor past the
word. -/
theorem toNat_add_sub_of_le (base increase decrease : UInt64)
    (nonnegative : decrease.toNat ≤ base.toNat + increase.toNat)
    (small : base.toNat + increase.toNat - decrease.toNat < 2 ^ 64) :
    (base + (increase - decrease)).toNat = base.toNat + increase.toNat - decrease.toNat := by
  have bounded := decrease.toNat_lt
  rw [UInt64.toNat_add, UInt64.toNat_sub]
  omega

theorem toNat_shiftRight_le (a b : UInt64) : (a >>> b).toNat ≤ a.toNat := by
  rw [UInt64.toNat_shiftRight]
  exact Nat.shiftRight_le _ _

end UInt64
