import Nox.Model.Common.StreamTools

/-! # The varint codec is a canonical bijection

For each of the four unsigned widths the reader gives back every value of the type from the bytes
the writer emits, reading exactly those bytes, and accepts nothing else: every input it accepts
starts with the writer's encoding of the value it returns. Every other input throws, at the end of
the input, on a piece that overflows the type, or on a final zero piece after the first.
-/

namespace Nox.Common

/-- The loop throws only at the end of the input, on an overflow or on a final zero piece. -/
theorem readVarintLoop_error {bits : ℕ} :
    ∀ (input : List UInt8) (shift temp : ℕ) (message : String),
      readVarintLoop bits shift temp input = .error message →
      message = readFailure ∨ message = "readVarint, value overflow" ∨
        message = "readVarint, invalid value representation"
  | [], _, _, message, failed => by
    cases failed
    exact .inl rfl
  | piece :: rest, shift, temp, message, failed => by
    rw [readVarintLoop] at failed
    split_ifs at failed with overflow final zero
    · cases failed
      exact .inr (.inl rfl)
    · cases failed
      exact .inr (.inr rfl)
    · exact readVarintLoop_error rest _ _ message failed

/-- `readVarint` for `uint8_t`, `uint16_t`, `uint32_t` and `uint64_t` reads back exactly the bytes
`writeVarint` writes for every value of the type, accepts only such bytes, and throws otherwise. -/
theorem readVarint_canonical_bijection (bits : ℕ) (width : bits = 8 ∨ bits = 16 ∨ bits = 32 ∨ bits = 64) :
    (∀ value < 2 ^ bits, ∀ rest, readVarint bits (writeVarint value ++ rest) = .ok (value, rest)) ∧
      (∀ input value rest, readVarint bits input = .ok (value, rest) →
        input = writeVarint value ++ rest ∧ value < 2 ^ bits) ∧
      ∀ input message, readVarint bits input = .error message →
        message = readFailure ∨ message = "readVarint, value overflow" ∨
          message = "readVarint, invalid value representation" := by
  have narrow : bits ≤ 64 := by omega
  refine ⟨fun value fits rest => readVarint_writeVarint fits narrow rest,
    fun input value rest accepted => readVarint_canonical narrow accepted,
    fun input message failed => readVarintLoop_error input 0 0 message failed⟩

namespace Scenario

/-- A byte of 200 takes two bytes, `0xc8 0x01`, and is read back from them. -/
theorem readVarint_canonical_bijection_byte :
    (8 = 8 ∨ 8 = 16 ∨ 8 = 32 ∨ 8 = 64) ∧ writeVarint 200 = [0xc8, 0x01] ∧
      readVarint 8 [0xc8, 0x01] = .ok (200, []) := by
  have written : writeVarint 200 = [0xc8, 0x01] := by decide
  have read := (readVarint_canonical_bijection 8 (.inl rfl)).1 200 (by norm_num) []
  rw [written, List.append_nil] at read
  exact ⟨.inl rfl, written, read⟩

end Scenario

end Nox.Common
