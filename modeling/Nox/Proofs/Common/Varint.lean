import Nox.Model.Common.Base58

/-! # The varint reader of addresses

`Tools::read_varint` makes the tests of `Common::readVarint` on each piece, the overflow test and
the zero-piece test, and returns the count of bytes read where the latter returns the rest of the
input. On every input the latter accepts the two agree, the count being the length of what was
read; the one other input with a positive count is one that ends inside its varint, every byte of
it a continuation byte.
-/

namespace Nox.Tools

private theorem or_mod_word (i piece : ℕ) : (i % 2 ^ 64 ||| piece) % 2 ^ 64 = (i ||| piece) % 2 ^ 64 := by
  rw [Nat.or_mod_two_pow, Nat.or_mod_two_pow, Nat.mod_mod]

/-- The continuation test on the byte and on its value. -/
theorem high_bit_toNat (byte : UInt8) : byte &&& 0x80 = 0 ↔ byte.toNat &&& 0x80 = 0 := by
  rw [← UInt8.toNat_inj, UInt8.toNat_and]
  rfl

/-- Where `Common::readVarint` reads a varint, `read_varint` reads the same value and counts the
bytes it read. The accumulated value matters only modulo `2 ^ 64`. -/
theorem readVarintLoop_of_ok : ∀ (input : List UInt8) (shift read i v : ℕ) (rest : List UInt8),
    Nox.Common.readVarintLoop 64 shift (i % 2 ^ 64) input = .ok (v, rest) →
    rest.length < input.length ∧ (readVarintLoop 64 shift read i input).1 = read + (input.length - rest.length) ∧
      (readVarintLoop 64 shift read i input).2 % 2 ^ 64 = v := by
  intro input
  induction input with
  | nil =>
    intro shift read i v rest accepted
    cases accepted
  | cons piece tail ih =>
    intro shift read i v rest accepted
    have notOverflow : ¬ (64 - 7 ≤ shift ∧ 2 ^ (64 - shift) ≤ piece.toNat) := by
      intro large
      rw [Nox.Common.readVarintLoop, if_pos large] at accepted
      cases accepted
    have toolsNotOverflow : ¬ (shift + 7 ≥ 64 ∧ piece.toNat ≥ 2 ^ (64 - shift)) :=
      fun large => notOverflow ⟨by omega, large.2⟩
    rw [Nox.Common.readVarintLoop, if_neg notOverflow] at accepted
    dsimp only at accepted
    split_ifs at accepted with final zero
    · have notZero : ¬ (piece = 0 ∧ shift ≠ 0) := fun isZero => zero ⟨by simp [isZero.1], isZero.2⟩
      cases accepted
      rw [readVarintLoop, if_neg toolsNotOverflow, if_neg notZero]
      dsimp only
      rw [if_pos ((high_bit_toNat piece).mpr final), or_mod_word]
      simp
    · have notZero : ¬ (piece = 0 ∧ shift ≠ 0) := fun isZero => final (by simp [isZero.1])
      rw [or_mod_word] at accepted
      obtain ⟨shorter, count, value⟩ := ih _ (read + 1) _ v rest accepted
      rw [readVarintLoop, if_neg toolsNotOverflow, if_neg notZero]
      dsimp only
      rw [if_neg (fun clear => final ((high_bit_toNat piece).mp clear))]
      refine ⟨by simp only [List.length_cons]; omega, ?_, value⟩
      rw [count, List.length_cons]
      omega

/-- A positive count is a varint `Common::readVarint` accepts, or the whole input, every byte of
which is a continuation byte. -/
theorem readVarintLoop_pos : ∀ (input : List UInt8) (shift read i : ℕ),
    0 < (readVarintLoop 64 shift read i input).1 →
    (∃ v rest, Nox.Common.readVarintLoop 64 shift (i % 2 ^ 64) input = .ok (v, rest)) ∨
      ((readVarintLoop 64 shift read i input).1 = read + input.length ∧ ∀ piece ∈ input, 128 ≤ piece.toNat) := by
  intro input
  induction input with
  | nil =>
    intro shift read i _
    exact .inr ⟨rfl, fun _ absent => absurd absent List.not_mem_nil⟩
  | cons piece tail ih =>
    intro shift read i positive
    -- the overflow and zero-piece exits return a negative count
    have toolsNotOverflow : ¬ (shift + 7 ≥ 64 ∧ piece.toNat ≥ 2 ^ (64 - shift)) := by
      intro large
      rw [readVarintLoop, if_pos large] at positive
      simp at positive
    have notZero : ¬ (piece = 0 ∧ shift ≠ 0) := by
      intro isZero
      rw [readVarintLoop, if_neg toolsNotOverflow, if_pos isZero] at positive
      simp at positive
    have notOverflow : ¬ (64 - 7 ≤ shift ∧ 2 ^ (64 - shift) ≤ piece.toNat) :=
      fun large => toolsNotOverflow ⟨by omega, large.2⟩
    rw [readVarintLoop, if_neg toolsNotOverflow, if_neg notZero] at positive ⊢
    rw [Nox.Common.readVarintLoop, if_neg notOverflow]
    dsimp only at positive ⊢
    by_cases final : piece &&& 0x80 = 0
    · have notZeroValue : ¬ (piece.toNat = 0 ∧ shift ≠ 0) :=
        fun isZero => notZero ⟨UInt8.toNat_inj.mp isZero.1, isZero.2⟩
      rw [if_pos final, if_pos ((high_bit_toNat piece).mp final), if_neg notZeroValue]
      exact .inl ⟨_, _, rfl⟩
    · rw [if_neg final] at positive ⊢
      rw [if_neg (fun clear => final ((high_bit_toNat piece).mpr clear)), or_mod_word]
      rcases ih _ _ _ positive with accepted | ⟨count, continued⟩
      · exact .inl accepted
      · have continuation : 128 ≤ piece.toNat := by
          have bit := Nox.Common.high_bit_iff piece.toNat piece.toNat_lt
          rw [← high_bit_toNat] at bit
          exact not_lt.mp fun small => final (bit.mpr small)
        refine .inr ⟨by rw [count, List.length_cons]; omega, ?_⟩
        intro other member
        rcases List.mem_cons.mp member with rfl | inTail
        · exact continuation
        · exact continued other inTail

theorem readVarint_eq (input : List UInt8) :
    readVarint input = ((readVarintLoop 64 0 0 0 input).1, UInt64.ofNat (readVarintLoop 64 0 0 0 input).2) := rfl

/-- The writer's varint of a word, followed by anything, is read back with its length. -/
theorem readVarint_getVarintData (tag : UInt64) (rest : List UInt8) :
    readVarint (getVarintData tag ++ rest) = (((getVarintData tag).length : ℤ), tag) := by
  have accepted := Nox.Common.readVarint_writeVarint tag.toNat_lt (le_refl 64) rest
  obtain ⟨-, count, value⟩ := readVarintLoop_of_ok _ 0 0 0 _ _ accepted
  rw [readVarint_eq, getVarintData, count, List.length_append]
  push_cast
  rw [Int.add_sub_cancel, Int.zero_add]
  congr 1
  apply UInt64.toNat_inj.mp
  rw [UInt64.toNat_ofNat', value]

/-- A positive count is either the writer's varint of the word read, followed by the rest, or the
whole input, which ends inside its varint. -/
theorem readVarint_cases {payload : List UInt8} (positive : 0 < (readVarint payload).1) :
    (∃ tag rest, payload = getVarintData tag ++ rest) ∨
      ((readVarint payload).1 = payload.length ∧ ∀ piece ∈ payload, 128 ≤ piece.toNat) := by
  rw [readVarint_eq] at positive ⊢
  rcases readVarintLoop_pos payload 0 0 0 positive with ⟨v, rest, accepted⟩ | ⟨count, continued⟩
  · obtain ⟨written, fits⟩ := Nox.Common.readVarint_canonical (le_refl 64) accepted
    refine .inl ⟨UInt64.ofNat v, rest, ?_⟩
    rw [getVarintData, UInt64.toNat_ofNat', Nat.mod_eq_of_lt fits]
    exact written
  · exact .inr ⟨by rw [count]; simp, continued⟩

end Nox.Tools
