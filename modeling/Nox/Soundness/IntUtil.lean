import Nox.Proofs.Common.IntUtil

/-! # The 128-bit helpers are exact

`mul128` returns the low word of the product and writes its high word; `div128_32` returns the
remainder of a two-word dividend by a nonzero 32-bit divisor and writes the two words of the
quotient. Both hold for every input, the carries of `mul128` and the digit remainders of
`div128_32` included.
-/

namespace Nox.IntUtil

/-- `mul128` and `div128_32` compute the exact product, quotient and remainder. -/
theorem mul128_div128_32_exact :
    (∀ a b : UInt64, (mul128 a b).1.toNat = a.toNat * b.toNat % 2 ^ 64 ∧
        (mul128 a b).2.toNat = a.toNat * b.toNat / 2 ^ 64) ∧
      ∀ (dividendHi dividendLo : UInt64) (divisor : UInt32), 0 < divisor.toNat →
        (div128_32 dividendHi dividendLo divisor).1.toNat =
            (dividendHi.toNat * 2 ^ 64 + dividendLo.toNat) % divisor.toNat ∧
          (div128_32 dividendHi dividendLo divisor).2.1.toNat * 2 ^ 64 +
              (div128_32 dividendHi dividendLo divisor).2.2.toNat =
            (dividendHi.toNat * 2 ^ 64 + dividendLo.toNat) / divisor.toNat := by
  refine ⟨fun a b => ?_, fun dividendHi dividendLo divisor positive => ?_⟩
  · have value := mul128_value a b
    have low := (mul128 a b).1.toNat_lt
    constructor <;> omega
  · obtain ⟨quotient, remainder⟩ := div128_32_value dividendHi dividendLo positive
    exact ⟨remainder, quotient⟩

namespace Scenario

/-- The largest square of a word, and the largest two-word number divided by the largest 32-bit
divisor. -/
theorem mul128_div128_32_exact_at_extremes :
    (mul128 0xFFFFFFFFFFFFFFFF 0xFFFFFFFFFFFFFFFF).1.toNat = 1 ∧
      (mul128 0xFFFFFFFFFFFFFFFF 0xFFFFFFFFFFFFFFFF).2.toNat = 2 ^ 64 - 2 ∧
      0 < (0xFFFFFFFF : UInt32).toNat ∧
      (div128_32 0xFFFFFFFFFFFFFFFF 0xFFFFFFFFFFFFFFFF 0xFFFFFFFF).1.toNat = 0 := by
  obtain ⟨product, quotient⟩ := mul128_div128_32_exact
  have positive : 0 < (0xFFFFFFFF : UInt32).toNat := by decide
  obtain ⟨low, high⟩ := product 0xFFFFFFFFFFFFFFFF 0xFFFFFFFFFFFFFFFF
  obtain ⟨remainder, -⟩ := quotient 0xFFFFFFFFFFFFFFFF 0xFFFFFFFFFFFFFFFF 0xFFFFFFFF positive
  refine ⟨?_, ?_, positive, ?_⟩
  · rw [low]
    decide
  · rw [high]
    decide
  · rw [remainder]
    decide

end Scenario

end Nox.IntUtil
