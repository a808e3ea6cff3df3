import Nox.Proofs.CryptoNoteCore.AmountFormat

/-! # `parseAmount` accepts decimal numerals and inverts `formatAmount`

`parseAmount` reads back every amount `formatAmount` writes, for any number of places. With at
least one place it accepts exactly the trimmed decimal numerals `AmountNumeral` describes, with
their value. With no places the stripping loop can leave nothing of a numeral such as `".0"`: the
fraction's zeros are stripped down to none, the point is erased, and the empty text is refused.
-/

namespace Nox.CryptoNote

open Nox.Common

/-- A decimal numeral of `amount` with `numberOfDecimalPlaces` places: digits around at most one
point, at least one digit, no nonzero digit past the places, and `amount` the numeral's value
times `10 ^ numberOfDecimalPlaces`. -/
def AmountNumeral (numberOfDecimalPlaces : ℕ) (text : List UInt8) (amount : ℕ) : Prop :=
  ∃ integer fraction, ((text = integer ∧ fraction = []) ∨ text = integer ++ 0x2e :: fraction) ∧
    integer ++ fraction ≠ [] ∧ (∀ c ∈ integer ++ fraction, isDigit c = true) ∧
    (∀ c ∈ fraction.drop numberOfDecimalPlaces, c = 0x30) ∧
    amount * 10 ^ fraction.length = decimalValue (integer ++ fraction) * 10 ^ numberOfDecimalPlaces

theorem point_not_mem_of_digits {text : List UInt8} (digits : ∀ c ∈ text, isDigit c = true) :
    0x2e ∉ text := fun member => absurd (digits _ member) (by decide)

section Stripped

variable {integer fraction : List UInt8} {k : ℕ} (zeros : ∀ c ∈ fraction.drop k, c = 0x30)
include zeros

theorem decimalValue_of_stripped :
    decimalValue (integer ++ fraction) = decimalValue (integer ++ fraction.take k) * 10 ^ (fraction.length - k) := by
  conv_lhs => rw [← List.take_append_drop k fraction, ← List.append_assoc]
  rw [decimalValue_append, decimalValue_zeros zeros, List.length_drop, Nat.add_zero]

theorem digits_of_stripped :
    (∀ c ∈ integer ++ fraction, isDigit c = true) ↔ ∀ c ∈ integer ++ fraction.take k, isDigit c = true := by
  conv_lhs => rw [← List.take_append_drop k fraction, ← List.append_assoc]
  constructor
  · intro digits c member
    exact digits c (List.mem_append_left _ member)
  · intro digits c member
    rcases List.mem_append.mp member with kept | dropped
    · exact digits c kept
    · rw [zeros c dropped]
      rfl

end Stripped

/-- The value of the stripped numeral, scaled by the missing places, is the value of the whole. -/
theorem scaled_value_iff {amount value fractionSize numberOfDecimalPlaces k : ℕ}
    (places : k ≤ numberOfDecimalPlaces) (within : k ≤ fractionSize) :
    amount * 10 ^ fractionSize = value * 10 ^ (fractionSize - k) * 10 ^ numberOfDecimalPlaces ↔
      amount = value * 10 ^ (numberOfDecimalPlaces - k) := by
  have exponents : 10 ^ (fractionSize - k) * 10 ^ numberOfDecimalPlaces =
      10 ^ (numberOfDecimalPlaces - k) * 10 ^ fractionSize := by
    rw [← pow_add, ← pow_add]
    congr 1
    omega
  rw [Nat.mul_assoc, exponents, ← Nat.mul_assoc]
  exact Nat.mul_left_inj (by positivity)

/-- An accepted text is a numeral of the amount read, for any number of places. -/
theorem amountNumeral_of_parseAmount {numberOfDecimalPlaces : ℕ} {str : List UInt8} {amount : UInt64}
    (read : parseAmount numberOfDecimalPlaces str = some amount) :
    AmountNumeral numberOfDecimalPlaces (trim str) amount.toNat := by
  by_cases point : 0x2e ∈ trim str
  · obtain ⟨integer, fraction, split, noPoint⟩ := List.eq_append_cons_of_mem point
    obtain ⟨k, strip, parsed⟩ := parseAmount_of_point numberOfDecimalPlaces split noPoint
    rw [parsed] at read
    split_ifs at read with above
    have places : k ≤ numberOfDecimalPlaces := by omega
    obtain ⟨nonempty, digits, value⟩ := (parseAmountDigits_eq_some places _ _).mp read
    refine ⟨integer, fraction, Or.inr split, ?_, (digits_of_stripped strip.dropped_zeros).mpr digits, ?_, ?_⟩
    · intro empty
      obtain ⟨rfl, rfl⟩ := List.append_eq_nil_iff.mp empty
      exact nonempty (by simp)
    · intro c member
      apply strip.dropped_zeros
      rw [← Nat.add_sub_cancel' places, ← List.drop_drop] at member
      exact List.mem_of_mem_drop member
    · rw [decimalValue_of_stripped strip.dropped_zeros]
      exact (scaled_value_iff places strip.le_length).mpr value
  · rw [parseAmount_of_no_point numberOfDecimalPlaces point] at read
    obtain ⟨nonempty, digits, value⟩ := (parseAmountDigits_eq_some (Nat.zero_le _) _ _).mp read
    refine ⟨trim str, [], Or.inl ⟨rfl, rfl⟩, by simpa using nonempty, by simpa using digits, by simp, ?_⟩
    simpa using value

/-- With at least one place every numeral is accepted: the loop keeps a digit of a non-empty
fraction. -/
theorem parseAmount_of_amountNumeral {numberOfDecimalPlaces : ℕ} (positive : 1 ≤ numberOfDecimalPlaces)
    {str : List UInt8} {amount : UInt64} (numeral : AmountNumeral numberOfDecimalPlaces (trim str) amount.toNat) :
    parseAmount numberOfDecimalPlaces str = some amount := by
  obtain ⟨integer, fraction, shape, nonempty, digits, zeros, value⟩ := numeral
  rcases shape with ⟨whole, rfl⟩ | split
  · rw [List.append_nil] at nonempty digits
    rw [parseAmount_of_no_point numberOfDecimalPlaces (whole ▸ point_not_mem_of_digits digits)]
    apply (parseAmountDigits_eq_some (Nat.zero_le _) _ _).mpr
    rw [whole]
    refine ⟨nonempty, digits, ?_⟩
    simpa using value
  · have noPoint := point_not_mem_of_digits fun c member => digits c (List.mem_append_left _ member)
    obtain ⟨k, strip, parsed⟩ := parseAmount_of_point numberOfDecimalPlaces split noPoint
    -- above the places the loop stopped on a digit past the places, which the numeral has as zero
    have places : k ≤ numberOfDecimalPlaces := by
      by_contra above
      have within := strip.le_length
      have inside : k - 1 < fraction.length := by omega
      have zero : fraction[k - 1] = 0x30 := by
        apply zeros
        rw [List.mem_iff_getElem]
        refine ⟨k - 1 - numberOfDecimalPlaces, by simp only [List.length_drop]; omega, ?_⟩
        rw [List.getElem_drop]
        congr 1
        omega
      have last : (fraction.take k).getLast? = some fraction[k - 1] := by
        rw [List.getLast?_eq_getElem?, List.length_take, Nat.min_eq_left within,
          List.getElem?_take_of_lt (by omega), List.getElem?_eq_getElem inside]
      exact strip.stopped (by omega) (by rw [last, zero])
    rw [parsed, if_neg (by omega)]
    apply (parseAmountDigits_eq_some places _ _).mpr
    refine ⟨?_, (digits_of_stripped strip.dropped_zeros).mp digits, ?_⟩
    · intro empty
      obtain ⟨rfl, taken⟩ := List.append_eq_nil_iff.mp empty
      have short : k = 0 ∨ fraction = [] := by simpa using taken
      have atLeast := strip.min_le
      apply nonempty
      rw [List.nil_append, ← List.length_eq_zero_iff]
      rcases short with rfl | rfl
      · simp only [Nat.le_zero, Nat.min_eq_zero_iff] at atLeast
        omega
      · rfl
    · rw [decimalValue_of_stripped strip.dropped_zeros] at value
      exact (scaled_value_iff places strip.le_length).mp value

theorem trim_of_no_space {text : List UInt8} (noSpace : ∀ c ∈ text, isSpace c = false) : trim text = text :=
  trim_eq_self (fun c first => noSpace c (List.mem_of_mem_head? first))
    (fun c last => noSpace c (List.mem_of_mem_getLast? last))

/-- `formatAmount` writes every amount as a numeral `parseAmount` reads back, for any places. -/
theorem parseAmount_formatAmount (numberOfDecimalPlaces : ℕ) (amount : UInt64) :
    parseAmount numberOfDecimalPlaces (formatAmount numberOfDecimalPlaces amount) = some amount := by
  have padding : ∀ padded, padded = (if (toDecimalString amount).length < numberOfDecimalPlaces + 1 then
        List.replicate (numberOfDecimalPlaces + 1 - (toDecimalString amount).length) 0x30 ++ toDecimalString amount
      else toDecimalString amount) →
      (∀ c ∈ padded, isDigit c = true) ∧ decimalValue padded = amount.toNat ∧
        numberOfDecimalPlaces + 1 ≤ padded.length := by
    rintro padded rfl
    have digits := toDecimalString_digits amount
    split_ifs with short
    · refine ⟨?_, ?_, by simp only [List.length_append, List.length_replicate]; omega⟩
      · intro c member
        rcases List.mem_append.mp member with zero | digit
        · rw [List.eq_of_mem_replicate zero]
          rfl
        · exact digits c digit
      · rw [decimalValue_append, decimalValue_zeros (fun c member => List.eq_of_mem_replicate member),
          Nat.zero_mul, Nat.zero_add, decimalValue_toDecimalString]
    · exact ⟨digits, decimalValue_toDecimalString amount, by omega⟩
  dsimp only [formatAmount]
  generalize isPadded : (if (toDecimalString amount).length < numberOfDecimalPlaces + 1 then
      List.replicate (numberOfDecimalPlaces + 1 - (toDecimalString amount).length) 0x30 ++ toDecimalString amount
    else toDecimalString amount) = padded
  obtain ⟨digits, value, long⟩ := padding padded isPadded.symm
  have noSpace : ∀ c ∈ padded.take (padded.length - numberOfDecimalPlaces) ++
      0x2e :: padded.drop (padded.length - numberOfDecimalPlaces), isSpace c = false := by
    intro c member
    rcases List.mem_append.mp member with early | rest
    · exact isSpace_of_isDigit (digits c (List.mem_of_mem_take early))
    · rcases List.mem_cons.mp rest with rfl | late
      · rfl
      · exact isSpace_of_isDigit (digits c (List.mem_of_mem_drop late))
  obtain ⟨k, strip, parsed⟩ := parseAmount_of_point numberOfDecimalPlaces (trim_of_no_space noSpace)
    (point_not_mem_of_digits fun c member => digits c (List.mem_of_mem_take member))
  have fractionLength : (padded.drop (padded.length - numberOfDecimalPlaces)).length = numberOfDecimalPlaces := by
    rw [List.length_drop]
    omega
  have allPlaces : k = numberOfDecimalPlaces := by
    have within := strip.le_length
    have atLeast := strip.min_le
    rw [fractionLength] at within atLeast
    omega
  rw [parsed, if_neg (by omega), allPlaces, List.take_of_length_le fractionLength.le, List.take_append_drop]
  apply (parseAmountDigits_eq_some le_rfl padded amount).mpr
  refine ⟨fun empty => by simp [empty] at long, digits, ?_⟩
  rw [value, Nat.sub_self, Nat.pow_zero, Nat.mul_one]

theorem parseAmount_accepts_numerals :
    (∀ (numberOfDecimalPlaces : ℕ) (amount : UInt64),
      parseAmount numberOfDecimalPlaces (formatAmount numberOfDecimalPlaces amount) = some amount) ∧
    ∀ numberOfDecimalPlaces : ℕ, 1 ≤ numberOfDecimalPlaces → ∀ (str : List UInt8) (amount : UInt64),
      parseAmount numberOfDecimalPlaces str = some amount ↔
        AmountNumeral numberOfDecimalPlaces (trim str) amount.toNat :=
  ⟨parseAmount_formatAmount, fun _ positive _ _ =>
    ⟨amountNumeral_of_parseAmount, parseAmount_of_amountNumeral positive⟩⟩

/-- The text of 123.45 with two trailing zeros, a space before and a line feed after, with the
default two places. -/
theorem parseAmount_accepts_numerals_default :
    1 ≤ CRYPTONOTE_DISPLAY_DECIMAL_POINT ∧
      (parseAmount CRYPTONOTE_DISPLAY_DECIMAL_POINT [0x20, 0x31, 0x32, 0x33, 0x2e, 0x34, 0x35, 0x30, 0x30, 0x0a] =
          some 12345 ↔
        AmountNumeral CRYPTONOTE_DISPLAY_DECIMAL_POINT
          (trim [0x20, 0x31, 0x32, 0x33, 0x2e, 0x34, 0x35, 0x30, 0x30, 0x0a]) 12345) :=
  ⟨by decide, parseAmount_accepts_numerals.2 _ (by decide) _ _⟩

/-- Without places, `".0"` is a numeral of zero that `parseAmount` refuses. -/
theorem parseAmount_refuses_point_zero_without_places :
    parseAmount 0 [0x2e, 0x30] = none ∧ AmountNumeral 0 (trim [0x2e, 0x30]) 0 :=
  ⟨by decide, [], [0x30], Or.inr (by decide), by decide, by decide, by decide, by decide⟩

end Nox.CryptoNote
