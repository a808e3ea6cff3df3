import Mathlib.Tactic.Ring
import Nox.Model.CryptoNoteCore.AmountFormat
import Nox.Proofs.Common.StringTools

/-! # What `parseAmount` accepts

`parseAmount` is described branch by branch: without a point in the trimmed text the digits are
read padded with the places; with one, at the first point, the stripping loop leaves a fraction of
`k` digits whose dropped tail is zeros, and the text is refused when `k` is still above the places.
`AmountNumeral` states the grammar and the value without the loop: digits around at most one point,
no nonzero digit past the places, and the amount the numeral's value times `10 ^ places`.
-/

namespace Nox.CryptoNote

open Nox.Common

/-! ## Digits -/

theorem decimalValue_append (front back : List UInt8) :
    decimalValue (front ++ back) = decimalValue front * 10 ^ back.length + decimalValue back := by
  simp only [decimalValue, List.reverse_append, List.map_append, Nat.ofDigits_append, List.length_map,
    List.length_reverse]
  ring

theorem decimalValue_zeros {text : List UInt8} (zeros : ∀ c ∈ text, c = 0x30) : decimalValue text = 0 := by
  have each : ∀ d ∈ text.reverse.map digitValue, d = 0 := by
    intro d member
    obtain ⟨c, cMember, rfl⟩ := List.mem_map.mp member
    rw [zeros c (List.mem_reverse.mp cMember)]
    rfl
  rw [decimalValue, List.eq_replicate_of_mem each, Nat.ofDigits_replicate_zero]

/-- On a text of digits the stream reads them all, and fails only on overflow. -/
theorem fromString_digits {text : List UInt8} (nonempty : text ≠ []) (digits : ∀ c ∈ text, isDigit c = true) :
    fromString text = if 2 ^ 64 ≤ decimalValue text then none else some (UInt64.ofNat (decimalValue text)) := by
  obtain ⟨first, rest, rfl⟩ := List.exists_cons_of_ne_nil nonempty
  have firstDigit := digits first List.mem_cons_self
  have notSpace : ¬ isSpace first = true := by
    rw [isSpace_of_isDigit firstDigit]
    decide
  have notMinus : first ≠ 0x2d := by
    rintro rfl
    exact absurd firstDigit (by decide)
  have notPlus : first ≠ 0x2b := by
    rintro rfl
    exact absurd firstDigit (by decide)
  have whole : (first :: rest).takeWhile isDigit = first :: rest := List.takeWhile_eq_self_iff.mpr digits
  simp only [fromString, List.dropWhile_cons_of_neg notSpace, if_neg notMinus, if_neg notPlus, whole,
    reduceCtorEq, false_or, Bool.false_eq_true, if_false]

theorem toDecimalString_digits (value : UInt64) : ∀ c ∈ toDecimalString value, isDigit c = true := by
  unfold toDecimalString
  split_ifs
  · simp only [List.mem_singleton, forall_eq]
    decide
  · intro c member
    obtain ⟨digit, digitMember, rfl⟩ := List.mem_map.mp member
    exact (digitCharacter digit (Nat.digits_lt_base (by norm_num) (List.mem_reverse.mp digitMember))).1

theorem decimalValue_toDecimalString (value : UInt64) : decimalValue (toDecimalString value) = value.toNat := by
  unfold toDecimalString
  split_ifs with zero
  · rw [zero]
    rfl
  · have digitsBack : (Nat.digits 10 value.toNat).map (digitValue ∘ fun digit => UInt8.ofNat (0x30 + digit)) =
        Nat.digits 10 value.toNat := calc
      _ = (Nat.digits 10 value.toNat).map id := List.map_congr_left fun digit member =>
          (digitCharacter digit (Nat.digits_lt_base (by norm_num) member)).2
      _ = Nat.digits 10 value.toNat := List.map_id _
    rw [decimalValue, ← List.map_reverse, List.reverse_reverse, List.map_map, digitsBack, Nat.ofDigits_digits]

theorem toDecimalString_ne_nil (value : UInt64) : toDecimalString value ≠ [] := by
  unfold toDecimalString
  split_ifs with zero
  · exact List.cons_ne_nil _ _
  · have positive : value.toNat ≠ 0 := fun toNatZero => zero (UInt64.toNat_inj.mp toNatZero)
    simp only [ne_eq, List.map_eq_nil_iff, List.reverse_eq_nil_iff]
    exact Nat.digits_ne_nil_iff_ne_zero.mpr positive

/-! ## Trimming and the point -/

theorem trim_eq_self {text : List UInt8} (first : ∀ c ∈ text.head?, isSpace c = false)
    (last : ∀ c ∈ text.getLast?, isSpace c = false) : trim text = text := by
  cases text with
  | nil => rfl
  | cons c rest =>
    have notSpace : ¬ isSpace c = true := by simp [first c rfl]
    rw [trim, List.dropWhile_cons_of_neg notSpace, List.rdropWhile_eq_self_iff]
    intro nonempty
    simp [last _ (List.getLast?_eq_some_getLast nonempty)]

theorem idxOf?_append_cons {α : Type} [BEq α] [LawfulBEq α] {a : α} {front : List α} (absent : a ∉ front)
    (back : List α) : (front ++ a :: back).idxOf? a = some front.length := by
  induction front with
  | nil => simp [List.idxOf?_cons]
  | cons b front ih =>
    have differ : b ≠ a := fun same => absent (same ▸ List.mem_cons_self)
    rw [List.cons_append, List.idxOf?_cons, ih fun member => absent (List.mem_cons_of_mem _ member)]
    simp [differ]

/-- What the stripping loop leaves of a fraction: its first `k` digits, the rest zeros, at least the
places unless the fraction is shorter, and, above the places, a last digit that is not zero. -/
structure FractionStrip (numberOfDecimalPlaces : ℕ) (fraction : List UInt8) (k : ℕ) : Prop where
  le_length : k ≤ fraction.length
  min_le : min numberOfDecimalPlaces fraction.length ≤ k
  dropped_zeros : ∀ c ∈ fraction.drop k, c = 0x30
  stopped : numberOfDecimalPlaces < k → (fraction.take k).getLast? ≠ some 0x30

/-- The loop, by induction on the fraction from its last digit. -/
theorem stripFractionZeros_spec (numberOfDecimalPlaces : ℕ) (front fraction : List UInt8) :
    ∃ k, stripFractionZeros numberOfDecimalPlaces fraction.length (front ++ fraction) =
      (k, front ++ fraction.take k) ∧ FractionStrip numberOfDecimalPlaces fraction k := by
  induction fraction using List.reverseRecOn with
  | nil => exact ⟨0, rfl, ⟨le_rfl, by simp, by simp, by simp⟩⟩
  | append_singleton fraction c ih =>
    rw [List.length_append, List.length_singleton, stripFractionZeros, ← List.append_assoc,
      List.getLast?_append_of_ne_nil _ (List.cons_ne_nil _ _), List.getLast?_singleton]
    by_cases strip : numberOfDecimalPlaces < fraction.length + 1 ∧ some c = some 0x30
    · obtain ⟨places, zero⟩ := strip
      obtain rfl := Option.some.inj zero
      obtain ⟨k, stripped, within, atLeast, zeros, stopped⟩ := ih
      rw [if_pos ⟨places, zero⟩, List.dropLast_concat, stripped]
      have taken : (fraction ++ [0x30]).take k = fraction.take k := List.take_append_of_le_length within
      refine ⟨k, by rw [taken], ⟨by simp; omega, by simp; omega, ?_, ?_⟩⟩
      · rw [List.drop_append_of_le_length within]
        intro d member
        rcases List.mem_append.mp member with early | last
        · exact zeros d early
        · exact List.mem_singleton.mp last
      · rw [taken]
        exact stopped
    · rw [if_neg strip]
      refine ⟨fraction.length + 1, by simp, ⟨by simp, by simp, by simp, ?_⟩⟩
      intro places
      have notZero : c ≠ 0x30 := fun zero => strip ⟨places, by rw [zero]⟩
      have whole : (fraction ++ [c]).take (fraction.length + 1) = fraction ++ [c] :=
        List.take_of_length_le (by simp)
      rw [whole, List.getLast?_concat]
      exact fun same => notZero (Option.some.inj same)

/-- The text has no point: the digits are read with the places as zeros. -/
theorem parseAmount_of_no_point {str : List UInt8} (numberOfDecimalPlaces : ℕ) (noPoint : 0x2e ∉ trim str) :
    parseAmount numberOfDecimalPlaces str = parseAmountDigits numberOfDecimalPlaces 0 (trim str) := by
  rw [parseAmount, List.idxOf?_eq_none_iff.mpr noPoint]

/-- The text splits at its first point: the loop leaves `k` digits of the fraction, and the text is
refused above the places or read as the integer and those digits. -/
theorem parseAmount_of_point {str integer fraction : List UInt8} (numberOfDecimalPlaces : ℕ)
    (split : trim str = integer ++ 0x2e :: fraction) (noPoint : 0x2e ∉ integer) :
    ∃ k, FractionStrip numberOfDecimalPlaces fraction k ∧
      parseAmount numberOfDecimalPlaces str = if numberOfDecimalPlaces < k then none
        else parseAmountDigits numberOfDecimalPlaces k (integer ++ fraction.take k) := by
  obtain ⟨k, stripped, strip⟩ := stripFractionZeros_spec numberOfDecimalPlaces (integer ++ [0x2e]) fraction
  refine ⟨k, strip, ?_⟩
  have joined : integer ++ [0x2e] ++ fraction = integer ++ 0x2e :: fraction := by simp
  have size : (integer ++ 0x2e :: fraction).length - integer.length - 1 = fraction.length := by
    simp only [List.length_append, List.length_cons]
    omega
  have erased : (integer ++ [0x2e] ++ fraction.take k).eraseIdx integer.length = integer ++ fraction.take k := by
    rw [List.append_assoc, List.eraseIdx_append_of_length_le le_rfl]
    simp
  rw [parseAmount]
  simp only [split, idxOf?_append_cons noPoint fraction, size]
  rw [← joined, stripped]
  dsimp only
  rw [erased]

/-- Once the point is gone, the text must be non-empty digits, read with the missing places. -/
theorem parseAmountDigits_eq_some {numberOfDecimalPlaces k : ℕ} (within : k ≤ numberOfDecimalPlaces)
    (text : List UInt8) (amount : UInt64) :
    parseAmountDigits numberOfDecimalPlaces k text = some amount ↔
      text ≠ [] ∧ (∀ c ∈ text, isDigit c = true) ∧
        amount.toNat = decimalValue text * 10 ^ (numberOfDecimalPlaces - k) := by
  have padded : (if k < numberOfDecimalPlaces then text ++ List.replicate (numberOfDecimalPlaces - k) 0x30
      else text) = text ++ List.replicate (numberOfDecimalPlaces - k) 0x30 := by
    split_ifs with fewer
    · rfl
    · rw [show numberOfDecimalPlaces - k = 0 by omega, List.replicate_zero, List.append_nil]
  have value : decimalValue (text ++ List.replicate (numberOfDecimalPlaces - k) 0x30) =
      decimalValue text * 10 ^ (numberOfDecimalPlaces - k) := by
    rw [decimalValue_append, decimalValue_zeros (fun c member => List.eq_of_mem_replicate member),
      List.length_replicate, Nat.add_zero]
  unfold parseAmountDigits
  rw [padded]
  by_cases empty : text = []
  · simp [empty]
  by_cases digits : ∀ c ∈ text, isDigit c = true
  · have paddedDigits : ∀ c ∈ text ++ List.replicate (numberOfDecimalPlaces - k) 0x30, isDigit c = true := by
      intro c member
      rcases List.mem_append.mp member with early | zero
      · exact digits c early
      · rw [List.eq_of_mem_replicate zero]
        rfl
    rw [if_neg empty, List.all_eq_true.mpr digits, Bool.not_true, if_neg Bool.false_ne_true,
      fromString_digits (by simp [empty]) paddedDigits, value]
    constructor
    · intro read
      split_ifs at read with overflow
      obtain rfl := Option.some.inj read
      refine ⟨empty, digits, ?_⟩
      rw [UInt64.toNat_ofNat', Nat.mod_eq_of_lt (by omega)]
    · rintro ⟨-, -, eq⟩
      have fits := amount.toNat_lt
      rw [← eq, if_neg (by omega), UInt64.ofNat_toNat]
  · have notAll : text.all isDigit = false := by
      rw [Bool.eq_false_iff]
      intro all
      exact digits (List.all_eq_true.mp all)
    simp [empty, notAll, digits]

end Nox.CryptoNote
