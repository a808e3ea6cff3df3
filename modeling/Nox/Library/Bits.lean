import Mathlib.Data.Nat.Bits
import Nox.Library.BoundedQuantifiers

/-! # The highest set bit of a word

C code finds the greatest power of two up to a number in two ways. Or-ing the number with itself
shifted right by `1, 2, 4, …` sets every bit below its highest, which leaves one less than a power
of two, and masking that with the complement of its own half keeps the highest bit alone. Or a
binary search shifts by `2 ^ (k - 1), …, 2, 1` and keeps each shift that stays within the number.
These lemmas say what the first computes and give `Nat.log2` of a shift, which the second needs.
-/

namespace Nat

/-- After or-ing with the shifts `1, 2, …, 2 ^ (k - 1)`, bit `b` is set exactly when one of the
`2 ^ k` bits from `b` up was. -/
theorem testBit_foldl_or_shiftRight (x b : ℕ) : ∀ k,
    (((List.range k).map (2 ^ ·)).foldl (fun y s => y ||| y >>> s) x).testBit b = true ↔
      ∃ t < 2 ^ k, x.testBit (b + t) = true
  | 0 => by
    constructor
    · intro set
      exact ⟨0, by decide, set⟩
    · rintro ⟨t, below, set⟩
      rwa [show t = 0 by omega] at set
  | k + 1 => by
    rw [List.range_succ, List.map_append, List.foldl_append, List.map_singleton, List.foldl_cons, List.foldl_nil,
      testBit_or, testBit_shiftRight, Bool.or_eq_true, testBit_foldl_or_shiftRight x b k,
      testBit_foldl_or_shiftRight x (2 ^ k + b) k, Nat.pow_succ]
    constructor
    · rintro (⟨t, below, set⟩ | ⟨t, below, set⟩)
      · exact ⟨t, by omega, set⟩
      · refine ⟨2 ^ k + t, by omega, ?_⟩
        rwa [show b + (2 ^ k + t) = 2 ^ k + b + t by omega]
    · rintro ⟨t, below, set⟩
      by_cases low : t < 2 ^ k
      · exact .inl ⟨t, low, set⟩
      · refine .inr ⟨t - 2 ^ k, by omega, ?_⟩
        rwa [show 2 ^ k + b + (t - 2 ^ k) = b + t by omega]

/-- A positive number below `2 ^ 2 ^ k` or-ed with its shifts `1, 2, …, 2 ^ (k - 1)` has every bit up
to its highest set. -/
theorem foldl_or_shiftRight_eq {x : ℕ} (k : ℕ) (positive : 0 < x) (small : x < 2 ^ 2 ^ k) :
    ((List.range k).map (2 ^ ·)).foldl (fun y s => y ||| y >>> s) x = 2 ^ (x.log2 + 1) - 1 := by
  have nonzero : x ≠ 0 := Nat.pos_iff_ne_zero.mp positive
  have depth : x.log2 < 2 ^ k := (Nat.log2_lt nonzero).mpr small
  have above : ∀ c, x.log2 < c → x.testBit c = false := fun c above =>
    Nat.testBit_lt_two_pow (Nat.lt_of_lt_of_le Nat.lt_log2_self (Nat.pow_le_pow_right (by decide) above))
  apply Nat.eq_of_testBit_eq
  intro b
  rw [testBit_two_pow_sub_one, Bool.eq_iff_iff, testBit_foldl_or_shiftRight, decide_eq_true_iff]
  constructor
  · rintro ⟨t, -, set⟩
    apply Nat.lt_of_not_le
    intro beyond
    rw [above (b + t) (by omega)] at set
    exact Bool.false_ne_true set
  · intro below
    refine ⟨x.log2 - b, by omega, ?_⟩
    rw [show b + (x.log2 - b) = x.log2 by omega]
    exact Nat.testBit_log2 nonzero

/-- Masking the ones up to bit `L` of a word of `w` bits with the complement of their half keeps
bit `L` alone. -/
theorem and_xor_shiftRight_eq {L w : ℕ} (within : L < w) :
    (2 ^ (L + 1) - 1) &&& ((2 ^ w - 1) ^^^ ((2 ^ (L + 1) - 1) >>> 1)) = 2 ^ L := by
  apply Nat.eq_of_testBit_eq
  intro b
  simp only [testBit_and, testBit_xor, testBit_shiftRight, testBit_two_pow_sub_one, testBit_two_pow]
  rcases Nat.lt_trichotomy b L with below | rfl | above
  · simp [show b < L + 1 by omega, show b < w by omega, show 1 + b < L + 1 by omega, show L ≠ b by omega]
  · simp [within, show ¬ 1 + b < b + 1 by omega]
  · simp [show ¬ b < L + 1 by omega, show L ≠ b by omega]

/-- A shift that keeps a number positive lowers its highest bit by the shift. -/
theorem log2_shiftRight {x s : ℕ} (positive : 0 < x >>> s) : (x >>> s).log2 = x.log2 - s := by
  rw [shiftRight_eq_div_pow] at positive ⊢
  have shifted : 2 ^ s ≤ x := (Nat.one_le_div_iff (Nat.two_pow_pos s)).mp positive
  have nonzero : x ≠ 0 := Nat.ne_of_gt (Nat.lt_of_lt_of_le (Nat.two_pow_pos s) shifted)
  have bounds := (Nat.log2_eq_iff nonzero).mp rfl
  have within : s ≤ x.log2 := (Nat.le_log2 nonzero).mpr shifted
  have split : 2 ^ x.log2 = 2 ^ (x.log2 - s) * 2 ^ s := by rw [← Nat.pow_add, Nat.sub_add_cancel within]
  have splitSucc : 2 ^ (x.log2 + 1) = 2 ^ (x.log2 - s + 1) * 2 ^ s := by
    rw [← Nat.pow_add, show x.log2 - s + 1 + s = x.log2 + 1 by omega]
  rw [Nat.log2_eq_iff (by omega)]
  constructor
  · exact (Nat.le_div_iff_mul_le (Nat.two_pow_pos s)).mpr (split ▸ bounds.1)
  · exact (Nat.div_lt_iff_lt_mul (Nat.two_pow_pos s)).mpr (splitSucc ▸ bounds.2)

end Nat
