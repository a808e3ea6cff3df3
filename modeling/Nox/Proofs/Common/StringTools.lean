import Mathlib.Tactic.IntervalCases
import Nox.Model.Common.StringTools

/-! # Decimal and hexadecimal text

A decimal digit is no white space, and the character of each digit value reads back as it. A text
of hexadecimal digits, of either case, is read by `fromHex` into half as many bytes, and so a text
of exactly twice a value's size fills it with `podFromHex`.
-/

namespace Nox.Common

/-- `'0'`..`'9'`, `'A'`..`'F'` or `'a'`..`'f'`. -/
def IsHexDigit (character : UInt8) : Prop :=
  (0x30 ≤ character ∧ character ≤ 0x39) ∨ (0x41 ≤ character ∧ character ≤ 0x46) ∨
    (0x61 ≤ character ∧ character ≤ 0x66)

instance : DecidablePred IsHexDigit := fun _ => by unfold IsHexDigit; infer_instance

theorem isSpace_of_isDigit {c : UInt8} (digit : isDigit c = true) : isSpace c = false := by
  simp only [isDigit, Bool.and_eq_true, decide_eq_true_eq] at digit
  simp only [isSpace, Bool.or_eq_false_iff, beq_eq_false_iff_ne, Bool.and_eq_false_iff, decide_eq_false_iff_not]
  grind

theorem digitCharacter (digit : ℕ) (small : digit < 10) :
    isDigit (UInt8.ofNat (0x30 + digit)) = true ∧ digitValue (UInt8.ofNat (0x30 + digit)) = digit := by
  interval_cases digit <;> decide

theorem characterValue_le {character : UInt8} (digit : IsHexDigit character) :
    characterValue character ≤ 0x0f := by
  unfold IsHexDigit at digit
  unfold characterValue
  split_ifs <;> grind

theorem fromHexCharacter_eq {character : UInt8} (digit : IsHexDigit character) :
    fromHexCharacter character = some (characterValue character) := by
  have within : ¬ characterValue character > 0x0f :=
    UInt8.not_lt.mpr (characterValue_le digit)
  rw [fromHexCharacter, if_neg within]

/-- A text of digits is read into one byte for each two digits. -/
theorem fromHexLoop_digits {text : List UInt8} (digits : ∀ character ∈ text, IsHexDigit character) :
    ∃ data, fromHexLoop text = some data ∧ data.length = text.length / 2 := by
  induction text using fromHexLoop.induct with
  | case1 high low rest ih =>
    obtain ⟨data, read, length⟩ := ih fun character member => digits character (by simp [member])
    refine ⟨(characterValue high <<< 4 ||| characterValue low) :: data, ?_, ?_⟩
    · simp only [fromHexLoop, fromHexCharacter_eq (digits high (by simp)),
        fromHexCharacter_eq (digits low (by simp)), read, Option.bind_eq_bind, Option.bind_some,
        Option.pure_def]
    · simp only [List.length_cons, length]
      omega
  | case2 text short =>
    refine ⟨[], ?_, ?_⟩
    · rw [fromHexLoop]
      exact short
    · match text, short with
      | [], _ => rfl
      | [_], _ => simp
      | _ :: _ :: _, short => exact absurd rfl (short _ _ _)

theorem podFromHex_digits {size : ℕ} {text : List UInt8}
    (digits : ∀ character ∈ text, IsHexDigit character) (length : text.length = 2 * size) :
    ∃ value, podFromHex size text = some value := by
  obtain ⟨data, read, dataLength⟩ := fromHexLoop_digits digits
  have filled : data.length = size := by omega
  refine ⟨⟨data.toArray, by simpa using filled⟩, ?_⟩
  have even : ¬ text.length % 2 ≠ 0 := by omega
  have fits : ¬ text.length / 2 > size := by omega
  simp only [podFromHex, fromHex, if_neg even, if_neg fits, read, filled, Option.bind_eq_bind,
    Option.bind_some, dite_true]

end Nox.Common
