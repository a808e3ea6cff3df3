import Mathlib.Data.Nat.Digits.Lemmas
import Nox.Model.Common.JsonValue
import Nox.Proofs.Common.StringTools

/-! # What `fromString` reads back from `toString`

The writer puts no white space between tokens, so every token is read where it was written. A
string or key written between quotes is read back up to the closing quote, provided it has no
quote and no backslash, but `readChar` skips the white space in it: the reader returns each
string and key with its white space removed. An integer is written in decimal without a leading
zero and read back by `std::istringstream`. Each member of an object is assigned into the
object read so far, under its key without white space.

So `fromString (toString v)` is `readBack v` for every value whose strings and keys have no
quote or backslash and which holds no `REAL`. For a value whose objects have their keys in
order, as a `std::map` keeps them, this is `v` itself when no string or key has white space.
-/

namespace Nox.Common

namespace JsonValue

/-! ## The values the writer and the reader agree on -/

/-- A text the reader takes back up to its closing quote: no quote and no backslash. -/
def unquoted (text : List UInt8) : Bool := text.all fun c => c != '"'.toUInt8 && c != '\\'.toUInt8

/-- A text without white space. -/
def solid (text : List UInt8) : Bool := text.all fun c => !isSpace c

/-- The text without its white space, as `readStringToken` returns it. -/
def withoutSpaces (text : List UInt8) : List UInt8 := text.filter fun c => !isSpace c

mutual

/-- Strings and keys unquoted, and no `REAL`. -/
def printable : JsonValue → Bool
  | array values => printableValues values
  | object members => printableMembers members
  | real _ => false
  | string value => unquoted value
  | _ => true

def printableValues : List JsonValue → Bool
  | [] => true
  | value :: values => printable value && printableValues values

def printableMembers : List (List UInt8 × JsonValue) → Bool
  | [] => true
  | (key, value) :: members => unquoted key && printable value && printableMembers members

end

mutual

/-- What the reader makes of the text of a value: strings without white space, and each object
rebuilt by assigning its members in turn under their keys without white space. -/
def readBack : JsonValue → JsonValue
  | array values => array (readBackValues values)
  | object members => object (readBackMembers members [])
  | string value => string (withoutSpaces value)
  | value => value

def readBackValues : List JsonValue → List JsonValue
  | [] => []
  | value :: values => readBack value :: readBackValues values

/-- The members assigned, in order, into the object read so far. -/
def readBackMembers : List (List UInt8 × JsonValue) → List (List UInt8 × JsonValue) →
    List (List UInt8 × JsonValue)
  | [], read => read
  | (key, value) :: members, read =>
    readBackMembers members (assignMember (withoutSpaces key) (readBack value) read)

end

mutual

/-- The keys of every object strictly increasing, as in a `std::map`. -/
def wellFormed : JsonValue → Bool
  | array values => wellFormedValues values
  | object members => decide ((members.map Prod.fst).Pairwise (· < ·)) && wellFormedMembers members
  | _ => true

def wellFormedValues : List JsonValue → Bool
  | [] => true
  | value :: values => wellFormed value && wellFormedValues values

def wellFormedMembers : List (List UInt8 × JsonValue) → Bool
  | [] => true
  | (_, value) :: members => wellFormed value && wellFormedMembers members

end

mutual

/-- No string and no key of the value has white space. -/
def spaceless : JsonValue → Bool
  | array values => spacelessValues values
  | object members => spacelessMembers members
  | string value => solid value
  | _ => true

def spacelessValues : List JsonValue → Bool
  | [] => true
  | value :: values => spaceless value && spacelessValues values

def spacelessMembers : List (List UInt8 × JsonValue) → Bool
  | [] => true
  | (key, value) :: members => solid key && spaceless value && spacelessMembers members

end

/-! ## Characters -/

theorem readChar_cons {c : UInt8} (notSpace : isSpace c = false) (rest : List UInt8) :
    readChar (c :: rest) = .ok (c, rest) := by
  simp [readChar, List.dropWhile, notSpace]

theorem readChar_space {c : UInt8} (space : isSpace c = true) (rest : List UInt8) :
    readChar (c :: rest) = readChar rest := by
  simp [readChar, List.dropWhile, space]

/-- `readNonWsChar` with the match on `readChar` no longer naming its equation. -/
theorem readNonWsChar_eq (input : List UInt8) :
    readNonWsChar input =
      match readChar input with
      | .ok (c, rest) => if isSpace c then readNonWsChar rest else .ok (c, rest)
      | .error message => .error message := by
  rw [readNonWsChar]
  split <;> next read => rw [read]

theorem readNonWsChar_cons {c : UInt8} (notSpace : isSpace c = false) (rest : List UInt8) :
    readNonWsChar (c :: rest) = .ok (c, rest) := by
  rw [readNonWsChar_eq, readChar_cons notSpace]
  simp [notSpace]

set_option linter.unnecessarySeqFocus false in
/-- `readStringToken` with the matches on `readChar` no longer naming their equations. -/
theorem readStringToken_eq (input : List UInt8) :
    readStringToken input =
      match readChar input with
      | .error message => .error message
      | .ok (c, rest) =>
        if c = '"'.toUInt8 then .ok ([], rest)
        else if c = '\\'.toUInt8 then
          match readChar rest with
          | .error message => .error message
          | .ok (next, afterEscape) =>
            match readStringToken afterEscape with
            | .ok (value, after) => .ok (c :: next :: value, after)
            | .error message => .error message
        else
          match readStringToken rest with
          | .ok (value, after) => .ok (c :: value, after)
          | .error message => .error message := by
  rw [readStringToken]
  split
  · next read => rw [read]
  · next read =>
    rw [read]
    dsimp only
    split_ifs
    · rfl
    · -- the escaped character is read by a second `readChar`
      split
      · next escaped => rw [escaped]
      · -- the two matches differ only in their auxiliary functions: with all of Mathlib imported the
        -- `rfl` that `rw` tries unfolds them, with this module's imports the second `rfl` does
        next escaped => rw [escaped] <;> rfl
    · rfl

theorem readStringToken_space {c : UInt8} (space : isSpace c = true) (input : List UInt8) :
    readStringToken (c :: input) = readStringToken input := by
  rw [readStringToken_eq, readChar_space space, ← readStringToken_eq]

/-- The reader takes an unquoted text back up to its closing quote, without its white space. -/
theorem readStringToken_unquoted {text : List UInt8} (clean : unquoted text = true) (rest : List UInt8) :
    readStringToken (text ++ '"'.toUInt8 :: rest) = .ok (withoutSpaces text, rest) := by
  induction text with
  | nil =>
    rw [List.nil_append, readStringToken_eq, readChar_cons (by decide)]
    rfl
  | cons c text ih =>
    simp only [unquoted, List.all_cons, Bool.and_eq_true, bne_iff_ne, ne_eq] at clean
    obtain ⟨⟨notQuote, notBackslash⟩, cleanRest⟩ := clean
    have restRead := ih cleanRest
    cases space : isSpace c
    · rw [List.cons_append, readStringToken_eq, readChar_cons space]
      simp [notQuote, notBackslash, restRead, space, withoutSpaces]
    · rw [List.cons_append, readStringToken_space space, restRead]
      simp [space, withoutSpaces]

/-! ## Integers -/

/-- What may follow a number: anything but a digit or a dot. -/
def Delimited (rest : List UInt8) : Prop := ∀ c ∈ rest.head?, isDigitOrDot c = false

theorem decimalText_digits (n : ℕ) : ∀ c ∈ decimalText n, isDigit c = true := by
  unfold decimalText
  split_ifs
  · simp only [List.mem_singleton, forall_eq]
    decide
  · intro c member
    obtain ⟨digit, digitMember, rfl⟩ := List.mem_map.mp (List.mem_reverse.mp member)
    exact (digitCharacter digit (Nat.digits_lt_base (by norm_num) digitMember)).1

theorem decimalValue_decimalText (n : ℕ) : decimalValue (decimalText n) = n := by
  unfold decimalText
  split_ifs with zero
  · rw [zero]
    rfl
  · have digitsBack : (Nat.digits 10 n).map (digitValue ∘ fun digit => UInt8.ofNat (0x30 + digit)) =
        Nat.digits 10 n := calc
      _ = (Nat.digits 10 n).map id := List.map_congr_left fun digit member =>
          (digitCharacter digit (Nat.digits_lt_base (by norm_num) member)).2
      _ = Nat.digits 10 n := List.map_id _
    rw [decimalValue, List.reverse_reverse, List.map_map, digitsBack, Nat.ofDigits_digits]

/-- The decimal text of a number other than zero begins with a digit other than zero. -/
theorem decimalText_cons {n : ℕ} (nonzero : n ≠ 0) :
    ∃ first digits, decimalText n = first :: digits ∧ first ≠ '0'.toUInt8 := by
  obtain ⟨top, low, split⟩ : ∃ top low, Nat.digits 10 n = low ++ [top] :=
    ⟨_, _, (List.dropLast_append_getLast (Nat.digits_ne_nil_iff_ne_zero.mpr nonzero)).symm⟩
  have topNonzero : top ≠ 0 := by
    have := Nat.getLast_digit_ne_zero 10 nonzero
    simp only [split, List.getLast_append_singleton] at this
    exact this
  have small : top < 10 := Nat.digits_lt_base (by norm_num) (show top ∈ Nat.digits 10 n by simp [split])
  refine ⟨UInt8.ofNat (0x30 + top), (low.map fun digit => UInt8.ofNat (0x30 + digit)).reverse, ?_, ?_⟩
  · simp [decimalText, nonzero, split]
  · intro isZero
    have value := (digitCharacter top small).2
    rw [isZero] at value
    exact topNonzero (value.symm.trans (by decide))


theorem takeWhile_delimited {after : List UInt8} (delimited : Delimited after) :
    after.takeWhile isDigitOrDot = [] := by
  cases after with
  | nil => rfl
  | cons c rest => simp [delimited c rfl]

theorem dropWhile_delimited {after : List UInt8} (delimited : Delimited after) :
    after.dropWhile isDigitOrDot = after := by
  cases after with
  | nil => rfl
  | cons c rest => simp [delimited c rfl]

/-- A sign or a digit followed by digits, without a leading zero, is read as an `INTEGER`. -/
theorem readNumber_digits {c : UInt8} {digits after : List UInt8} (notDot : c ≠ '.'.toUInt8)
    (allDigits : ∀ d ∈ digits, isDigit d = true)
    (noLeadingZero : digits = [] ∨ c ≠ '0'.toUInt8 ∧ (c = '-'.toUInt8 → digits.head? ≠ some '0'.toUInt8))
    (delimited : Delimited after) :
    readNumber c (digits ++ after) = .ok (integer (integerValue (c :: digits)), after) := by
  have digitOrDot : ∀ d ∈ digits, isDigitOrDot d = true := fun d member => by
    simp [isDigitOrDot, allDigits d member]
  have noDots : (c :: digits).count '.'.toUInt8 = 0 := by
    refine List.count_eq_zero.mpr fun member => ?_
    rcases List.mem_cons.mp member with same | inDigits
    · exact notDot same.symm
    · have := allDigits _ inDigits
      revert this
      decide
  have accepted : ¬ ((c :: digits).length > 1 ∧
      (c = '0'.toUInt8 ∨ c = '-'.toUInt8 ∧ (c :: digits)[1]? = some '0'.toUInt8)) := by
    rintro ⟨long, zero⟩
    rcases noLeadingZero with rfl | ⟨notZero, firstDigit⟩
    · simp at long
    · rcases zero with zero | ⟨minus, second⟩
      · exact notZero zero
      · exact firstDigit minus (by simpa [List.head?_eq_getElem?] using second)
  simp only [readNumber, List.takeWhile_append_of_pos digitOrDot, List.dropWhile_append_of_pos digitOrDot,
    takeWhile_delimited delimited, dropWhile_delimited delimited, List.append_nil, noDots]
  rw [if_neg (by omega), if_neg accepted]


/-- After a minus sign, digits whose value is at most `2 ^ 63` are read as their negation. -/
theorem integerValue_minus {digits : List UInt8} (nonempty : digits ≠ []) (small : decimalValue digits ≤ 2 ^ 63) :
    integerValue ('-'.toUInt8 :: digits) = Int64.ofInt (-(decimalValue digits : ℤ)) := by
  simp only [integerValue, ↓reduceIte, if_neg nonempty]
  rw [if_neg (by omega), if_neg (by omega)]

/-- Digits without a sign whose value is below `2 ^ 63` are read as their value. -/
theorem integerValue_unsigned {d : UInt8} {digits : List UInt8} (notMinus : d ≠ '-'.toUInt8)
    (small : decimalValue (d :: digits) < 2 ^ 63) :
    integerValue (d :: digits) = Int64.ofInt (decimalValue (d :: digits) : ℤ) := by
  simp only [integerValue, if_neg notMinus, reduceCtorEq, ↓reduceIte, Bool.false_eq_true]
  rw [if_neg (by omega), if_neg (by omega)]


theorem decimalText_zero : decimalText 0 = ['0'.toUInt8] := rfl

/-- The text of an integer: a minus sign or a digit, then digits, with no leading zero. -/
theorem integerText_cons (v : Int64) : ∃ c rest, integerText v = c :: rest ∧ (c = '-'.toUInt8 ∨ isDigit c = true) ∧
    (∀ d ∈ rest, isDigit d = true) ∧
      (rest = [] ∨ c ≠ '0'.toUInt8 ∧ (c = '-'.toUInt8 → rest.head? ≠ some '0'.toUInt8)) := by
  unfold integerText
  split_ifs with negative
  · -- a negative number: the digits of its absolute value after the sign
    obtain ⟨first, digits, decimal, notZero⟩ := decimalText_cons (show v.toInt.natAbs ≠ 0 by omega)
    exact ⟨_, _, rfl, .inl rfl, decimalText_digits _, .inr ⟨by decide, fun _ => by simp [decimal, notZero]⟩⟩
  · by_cases zero : v.toInt.toNat = 0
    · exact ⟨_, [], by rw [zero, decimalText_zero], .inr (by decide), by simp, .inl rfl⟩
    · obtain ⟨first, digits, decimal, notZero⟩ := decimalText_cons zero
      have firstDigit : isDigit first = true := decimalText_digits _ first (by rw [decimal]; exact List.mem_cons_self)
      refine ⟨first, digits, decimal, .inr firstDigit, fun d member => decimalText_digits _ d (by rw [decimal]; exact List.mem_cons_of_mem _ member),
        .inr ⟨notZero, fun minus => ?_⟩⟩
      rw [minus] at firstDigit
      exact absurd firstDigit (by decide)

theorem integerValue_integerText (v : Int64) : integerValue (integerText v) = v := by
  have low := Int64.le_toInt v
  have high := Int64.toInt_lt v
  unfold integerText
  split_ifs with negative
  · have nonempty : decimalText v.toInt.natAbs ≠ [] := by
      obtain ⟨_, _, decimal, _⟩ := decimalText_cons (show v.toInt.natAbs ≠ 0 by omega)
      simp [decimal]
    rw [integerValue_minus nonempty (by rw [decimalValue_decimalText]; omega), decimalValue_decimalText]
    rw [show -(v.toInt.natAbs : ℤ) = v.toInt by omega, Int64.ofInt_toInt]
  · obtain ⟨c, rest, text, sign, -, -⟩ := integerText_cons v
    rw [integerText, if_neg negative] at text
    have notMinus : c ≠ '-'.toUInt8 := by
      rintro rfl
      have := decimalText_digits v.toInt.toNat '-'.toUInt8 (by rw [text]; exact List.mem_cons_self)
      exact absurd this (by decide)
    rw [text, integerValue_unsigned notMinus (by rw [← text, decimalValue_decimalText]; omega), ← text,
      decimalValue_decimalText, show ((v.toInt.toNat : ℕ) : ℤ) = v.toInt by omega, Int64.ofInt_toInt]

/-! ## What `operator>>` dispatches on -/

theorem readValue_array (fuel : ℕ) (rest : List UInt8) :
    readValue (fuel + 1) ('['.toUInt8 :: rest) = readArray fuel rest := by
  rw [readValue, Decoder.bind_ok (readNonWsChar_cons (by decide) rest)]
  rfl

theorem readValue_object (fuel : ℕ) (rest : List UInt8) :
    readValue (fuel + 1) ('{'.toUInt8 :: rest) = readObject fuel rest := by
  rw [readValue, Decoder.bind_ok (readNonWsChar_cons (by decide) rest)]
  rfl

theorem readValue_string (fuel : ℕ) (rest : List UInt8) :
    readValue (fuel + 1) ('"'.toUInt8 :: rest) = readString rest := by
  rw [readValue, Decoder.bind_ok (readNonWsChar_cons (by decide) rest)]
  rfl

theorem readValue_number (fuel : ℕ) {c : UInt8} (sign : c = '-'.toUInt8 ∨ isDigit c = true) (rest : List UInt8) :
    readValue (fuel + 1) (c :: rest) = readNumber c rest := by
  have notSpace : isSpace c = false := by
    rcases sign with rfl | digit
    · decide
    · exact isSpace_of_isDigit digit
  have inRange : c = '-'.toUInt8 ∨ ('0'.toUInt8 ≤ c ∧ c ≤ '9'.toUInt8) := by
    rcases sign with minus | digit
    · exact .inl minus
    · simp only [isDigit, Bool.and_eq_true, decide_eq_true_eq] at digit
      exact .inr digit
  -- a sign or a digit is none of the three characters tested before it
  have : c ≠ '['.toUInt8 ∧ c ≠ 't'.toUInt8 ∧ c ≠ 'f'.toUInt8 := by
    rcases inRange with rfl | ⟨low, high⟩
    · decide
    · refine ⟨?_, ?_, ?_⟩ <;> (rintro rfl; revert high; decide)
  obtain ⟨notOpen, notTrue, notFalse⟩ := this
  rw [readValue, Decoder.bind_ok (readNonWsChar_cons notSpace rest)]
  simp only [if_neg notOpen, if_neg notTrue, if_neg notFalse, if_pos inRange]

theorem readValue_integer (fuel : ℕ) (v : Int64) {after : List UInt8} (delimited : Delimited after) :
    readValue (fuel + 1) (integerText v ++ after) = .ok (integer v, after) := by
  obtain ⟨c, rest, text, sign, digits, noLeadingZero⟩ := integerText_cons v
  have notDot : c ≠ '.'.toUInt8 := by
    rcases sign with rfl | digit
    · decide
    · rintro rfl
      exact absurd digit (by decide)
  rw [text, List.cons_append, readValue_number fuel sign, readNumber_digits notDot digits noLeadingZero delimited,
    ← text, integerValue_integerText]

theorem readLiteral_append (expected : List UInt8) (value : JsonValue) (rest : List UInt8) :
    readLiteral expected value (expected ++ rest) = .ok (value, rest) := by
  simp [readLiteral]

theorem readValue_true (fuel : ℕ) (rest : List UInt8) :
    readValue (fuel + 1) ('t'.toUInt8 :: rest) = readTrue rest := by
  rw [readValue, Decoder.bind_ok (readNonWsChar_cons (by decide) rest)]
  rfl

theorem readValue_false (fuel : ℕ) (rest : List UInt8) :
    readValue (fuel + 1) ('f'.toUInt8 :: rest) = readFalse rest := by
  rw [readValue, Decoder.bind_ok (readNonWsChar_cons (by decide) rest)]
  rfl

theorem readValue_null (fuel : ℕ) (rest : List UInt8) :
    readValue (fuel + 1) ('n'.toUInt8 :: rest) = readNull rest := by
  rw [readValue, Decoder.bind_ok (readNonWsChar_cons (by decide) rest)]
  rfl

theorem readValue_bool (fuel : ℕ) (value : Bool) (after : List UInt8) :
    readValue (fuel + 1) (write (bool value) ++ after) = .ok (bool value, after) := by
  cases value
  · exact (readValue_false fuel _).trans (readLiteral_append _ _ after)
  · exact (readValue_true fuel _).trans (readLiteral_append _ _ after)

theorem readValue_nil (fuel : ℕ) (after : List UInt8) :
    readValue (fuel + 1) (write nil ++ after) = .ok (nil, after) :=
  (readValue_null fuel _).trans (readLiteral_append _ _ after)


theorem readValue_write_string (fuel : ℕ) {value : List UInt8} (clean : unquoted value = true) (after : List UInt8) :
    readValue (fuel + 1) (write (string value) ++ after) = .ok (string (withoutSpaces value), after) := by
  simp only [write, List.cons_append, List.append_assoc, List.nil_append]
  rw [readValue_string, readString, Decoder.bind_ok (readStringToken_unquoted clean after)]
  rfl

theorem readArray_close (fuel : ℕ) (rest : List UInt8) :
    readArray (fuel + 1) (']'.toUInt8 :: rest) = .ok (array [], rest) := by
  rw [readArray, Decoder.bind_ok (readNonWsChar_cons (by decide) rest)]
  rfl

/-- The first character of a nonempty array is put back for the elements. -/
theorem readArray_elements {fuel : ℕ} {input after : List UInt8} {values : List JsonValue}
    (head : ∃ c rest, input = c :: rest ∧ isSpace c = false ∧ c ≠ ']'.toUInt8)
    (elements : readElements fuel input = .ok (values, after)) :
    readArray (fuel + 1) input = .ok (array values, after) := by
  obtain ⟨c, rest, rfl, notSpace, notClose⟩ := head
  rw [readArray, Decoder.bind_ok (readNonWsChar_cons notSpace rest)]
  simp only [if_neg notClose]
  rw [Decoder.bind_ok rfl, Decoder.bind_ok elements]
  rfl

theorem readElements_close {fuel : ℕ} {input rest : List UInt8} {value : JsonValue}
    (read : readValue fuel input = .ok (value, ']'.toUInt8 :: rest)) :
    readElements (fuel + 1) input = .ok ([value], rest) := by
  rw [readElements, Decoder.bind_ok read, Decoder.bind_ok (readNonWsChar_cons (by decide) rest)]
  rfl

theorem readElements_comma {fuel : ℕ} {input rest after : List UInt8} {value : JsonValue} {values : List JsonValue}
    (read : readValue fuel input = .ok (value, ','.toUInt8 :: rest))
    (more : readElements fuel rest = .ok (values, after)) :
    readElements (fuel + 1) input = .ok (value :: values, after) := by
  rw [readElements, Decoder.bind_ok read, Decoder.bind_ok (readNonWsChar_cons (by decide) rest)]
  simp only [show ','.toUInt8 ≠ ']'.toUInt8 by decide, if_false, ne_eq, not_true_eq_false]
  rw [Decoder.bind_ok more]
  rfl

theorem readObject_close (fuel : ℕ) (rest : List UInt8) :
    readObject (fuel + 1) ('}'.toUInt8 :: rest) = .ok (object [], rest) := by
  rw [readObject, Decoder.bind_ok (readNonWsChar_cons (by decide) rest)]
  rfl

theorem readObject_members {fuel : ℕ} {rest after : List UInt8} {members : List (List UInt8 × JsonValue)}
    (read : readMembers fuel '"'.toUInt8 [] rest = .ok (members, after)) :
    readObject (fuel + 1) ('"'.toUInt8 :: rest) = .ok (object members, after) := by
  rw [readObject, Decoder.bind_ok (readNonWsChar_cons (by decide) rest)]
  simp only [show '"'.toUInt8 ≠ '}'.toUInt8 by decide, if_false]
  rw [Decoder.bind_ok read]
  rfl

/-- A member `"name":value` read, then the `}` that ends the object. -/
theorem readMembers_close {fuel : ℕ} {input valueText after : List UInt8} {name : List UInt8} {value : JsonValue}
    {members : List (List UInt8 × JsonValue)}
    (key : readStringToken input = .ok (name, ':'.toUInt8 :: valueText))
    (read : readValue fuel valueText = .ok (value, '}'.toUInt8 :: after)) :
    readMembers (fuel + 1) '"'.toUInt8 members input = .ok (assignMember name value members, after) := by
  rw [readMembers]
  simp only [ne_eq, not_true_eq_false, if_false]
  rw [Decoder.bind_ok key, Decoder.bind_ok (readNonWsChar_cons (by decide) valueText)]
  simp only [not_true_eq_false, if_false]
  rw [Decoder.bind_ok read, Decoder.bind_ok (readNonWsChar_cons (by decide) after)]
  rfl

/-- A member `"name":value` read, then a comma and the next member's quote. -/
theorem readMembers_comma {fuel : ℕ} {input valueText rest after : List UInt8} {name : List UInt8}
    {value : JsonValue} {members result : List (List UInt8 × JsonValue)}
    (key : readStringToken input = .ok (name, ':'.toUInt8 :: valueText))
    (read : readValue fuel valueText = .ok (value, ','.toUInt8 :: '"'.toUInt8 :: rest))
    (more : readMembers fuel '"'.toUInt8 (assignMember name value members) rest = .ok (result, after)) :
    readMembers (fuel + 1) '"'.toUInt8 members input = .ok (result, after) := by
  rw [readMembers]
  simp only [ne_eq, not_true_eq_false, if_false]
  rw [Decoder.bind_ok key, Decoder.bind_ok (readNonWsChar_cons (by decide) valueText)]
  simp only [not_true_eq_false, if_false]
  rw [Decoder.bind_ok read, Decoder.bind_ok (readNonWsChar_cons (by decide) _)]
  simp only [show ','.toUInt8 ≠ '}'.toUInt8 by decide, if_false, not_true_eq_false]
  rw [Decoder.bind_ok (readNonWsChar_cons (by decide) rest)]
  exact more


/-- `value[key] = v` for a key above every key of the object appends the member. -/
theorem assignMember_of_lt {key : List UInt8} (value : JsonValue) {members : List (List UInt8 × JsonValue)}
    (above : ∀ name ∈ members.map Prod.fst, name < key) :
    assignMember key value members = members ++ [(key, value)] := by
  induction members with
  | nil => rfl
  | cons member members ih =>
    obtain ⟨name, old⟩ := member
    have below : name < key := above name (by simp)
    have notBelow : ¬ key < name := List.lt_asymm below
    have other : key ≠ name := fun same => List.lt_irrefl key (same ▸ below)
    rw [assignMember, if_neg notBelow, if_neg other, ih fun n member => above n (by simp [member])]
    rfl

theorem emplace_nil (key : List UInt8) (value : JsonValue) : emplace key value [] = [(key, value)] := rfl

theorem emplace_cons_of_lt {key name : List UInt8} (value old : JsonValue) (members : List (List UInt8 × JsonValue))
    (below : key < name) : emplace key value ((name, old) :: members) = (key, value) :: (name, old) :: members := by
  rw [emplace, if_pos below]

theorem emplace_cons_of_gt {key name : List UInt8} (value old : JsonValue) (members : List (List UInt8 × JsonValue))
    (above : name < key) : emplace key value ((name, old) :: members) = (name, old) :: emplace key value members := by
  rw [emplace, if_neg (List.lt_asymm above), if_neg fun (same : key = name) => List.lt_irrefl key (same ▸ above)]

theorem withoutSpaces_solid {text : List UInt8} (clean : solid text = true) : withoutSpaces text = text :=
  List.filter_eq_self.mpr fun c member => List.all_eq_true.mp clean c member

theorem withoutSpaces_eq_self_iff {text : List UInt8} : withoutSpaces text = text ↔ solid text = true := by
  simp [withoutSpaces, solid, List.filter_eq_self]

/-- The text of a value begins with a character that is not white space and not a `]`. -/
theorem write_cons : ∀ {v : JsonValue}, printable v = true →
    ∃ c rest, write v = c :: rest ∧ isSpace c = false ∧ c ≠ ']'.toUInt8
  | array _, _ => ⟨_, _, rfl, by decide, by decide⟩
  | bool true, _ => ⟨_, _, rfl, by decide, by decide⟩
  | bool false, _ => ⟨_, _, rfl, by decide, by decide⟩
  | integer v, _ => by
    obtain ⟨c, rest, text, sign, -⟩ := integerText_cons v
    refine ⟨c, rest, text, ?_, ?_⟩
    · rcases sign with rfl | digit
      · decide
      · exact isSpace_of_isDigit digit
    · rintro rfl
      rcases sign with minus | digit
      · exact absurd minus (by decide)
      · exact absurd digit (by decide)
  | nil, _ => ⟨_, _, rfl, by decide, by decide⟩
  | object _, _ => ⟨_, _, rfl, by decide, by decide⟩
  | real _, clean => absurd clean (by simp [printable])
  | string _, _ => ⟨_, _, rfl, by decide, by decide⟩


theorem delimited_cons {c : UInt8} (notNumber : isDigitOrDot c = false) (rest : List UInt8) :
    Delimited (c :: rest) := by
  intro d member
  cases Option.mem_some_iff.mp member
  exact notNumber

theorem length_write_pos {v : JsonValue} (clean : printable v = true) : 0 < (write v).length := by
  obtain ⟨c, rest, text, -⟩ := write_cons clean
  simp [text]

mutual

/-- The text of a printable value is read back as `readBack` of it, before anything that cannot
continue a number, with fuel of twice the length of the text. -/
theorem readValue_write : ∀ (v : JsonValue), printable v = true → ∀ (fuel : ℕ) (after : List UInt8),
    2 * (write v).length ≤ fuel → Delimited after → readValue fuel (write v ++ after) = .ok (readBack v, after)
  | array [], _, fuel, after, enough, _ => by
    obtain ⟨f, rfl⟩ : ∃ f, fuel = f + 2 := ⟨fuel - 2, by simp [write, writeElements] at enough; omega⟩
    exact (readValue_array (f + 1) _).trans (readArray_close f after)
  | array (v :: vs), clean, fuel, after, enough, _ => by
    have cleanValues : printableValues (v :: vs) = true := by simpa [printable] using clean
    have lengths : (write (array (v :: vs))).length = (writeElements (v :: vs)).length + 2 := by
      simp [write]
    obtain ⟨f, rfl⟩ : ∃ f, fuel = f + 2 := ⟨fuel - 2, by omega⟩
    have elements := readElements_write (v :: vs) (by simp) cleanValues f after (by omega)
    -- the first character of the first element is what `readArray` puts back
    have head : ∃ c rest, writeElements (v :: vs) ++ ']'.toUInt8 :: after = c :: rest ∧ isSpace c = false ∧
        c ≠ ']'.toUInt8 := by
      obtain ⟨c, rest, first, notSpace, notClose⟩ :=
        write_cons (show printable v = true by simp_all [printableValues])
      exact ⟨c, rest ++ (writeNextElements vs ++ ']'.toUInt8 :: after), by simp [writeElements, first], notSpace,
        notClose⟩
    rw [show write (array (v :: vs)) ++ after = '['.toUInt8 :: (writeElements (v :: vs) ++ ']'.toUInt8 :: after) by
      simp [write], readValue_array, readArray_elements head elements]
    rfl
  | bool value, _, fuel, after, enough, _ => by
    obtain ⟨f, rfl⟩ : ∃ f, fuel = f + 1 :=
      ⟨fuel - 1, by have := length_write_pos (show printable (bool value) = true from rfl); omega⟩
    exact readValue_bool f value after
  | integer value, _, fuel, after, enough, delimited => by
    obtain ⟨f, rfl⟩ : ∃ f, fuel = f + 1 :=
      ⟨fuel - 1, by have := length_write_pos (show printable (integer value) = true from rfl); omega⟩
    exact readValue_integer f value delimited
  | nil, _, fuel, after, enough, _ => by
    obtain ⟨f, rfl⟩ : ∃ f, fuel = f + 1 := ⟨fuel - 1, by simp [write] at enough; omega⟩
    exact readValue_nil f after
  | object [], _, fuel, after, enough, _ => by
    obtain ⟨f, rfl⟩ : ∃ f, fuel = f + 2 := ⟨fuel - 2, by simp [write, writeMembers] at enough; omega⟩
    exact (readValue_object (f + 1) _).trans (readObject_close f after)
  | object ((key, v) :: members), clean, fuel, after, enough, _ => by
    have cleanMembers : printableMembers ((key, v) :: members) = true := by simpa [printable] using clean
    have lengths : (write (object ((key, v) :: members))).length =
        (writeMembers ((key, v) :: members)).length + 2 := by
      simp [write]
    obtain ⟨f, rfl⟩ : ∃ f, fuel = f + 2 := ⟨fuel - 2, by omega⟩
    have read := readMembers_write ((key, v) :: members) (by simp) cleanMembers [] f after (by omega)
    rw [show write (object ((key, v) :: members)) ++ after =
        '{'.toUInt8 :: '"'.toUInt8 :: ((writeMembers ((key, v) :: members)).tail ++ '}'.toUInt8 :: after) by
      simp [write, writeMembers], readValue_object, readObject_members read]
    rfl
  | real _, clean, _, _, _, _ => absurd clean (by simp [printable])
  | string value, clean, fuel, after, enough, _ => by
    obtain ⟨f, rfl⟩ : ∃ f, fuel = f + 1 := ⟨fuel - 1, by simp [write] at enough; omega⟩
    exact readValue_write_string f (by simpa [printable] using clean) after

/-- The elements of an array are read back up to its `]`; each needs two units of fuel for each
character of its text, and the loop one more. -/
theorem readElements_write : ∀ (values : List JsonValue), values ≠ [] → printableValues values = true →
    ∀ (fuel : ℕ) (after : List UInt8), 2 * (writeElements values).length < fuel →
      readElements fuel (writeElements values ++ ']'.toUInt8 :: after) = .ok (readBackValues values, after)
  | [], nonempty, _, _, _, _ => absurd rfl nonempty
  | [v], _, clean, fuel, after, enough => by
    obtain ⟨f, rfl⟩ : ∃ f, fuel = f + 1 := ⟨fuel - 1, by omega⟩
    have cleanValue : printable v = true := by simpa [printableValues] using clean
    have read := readValue_write v cleanValue f (']'.toUInt8 :: after)
      (by simp [writeElements, writeNextElements] at enough; omega) (delimited_cons (by decide) _)
    rw [show writeElements [v] ++ ']'.toUInt8 :: after = write v ++ ']'.toUInt8 :: after by
      simp [writeElements, writeNextElements]]
    exact readElements_close read
  | v :: w :: values, _, clean, fuel, after, enough => by
    simp only [printableValues, Bool.and_eq_true] at clean
    obtain ⟨cleanValue, cleanNext, cleanRest⟩ := clean
    have lengths : (writeElements (v :: w :: values)).length =
        (write v).length + 1 + (writeElements (w :: values)).length := by
      simp [writeElements, writeNextElements]
      omega
    obtain ⟨f, rfl⟩ : ∃ f, fuel = f + 1 := ⟨fuel - 1, by omega⟩
    have read := readValue_write v cleanValue f (','.toUInt8 :: (writeElements (w :: values) ++ ']'.toUInt8 :: after))
      (by omega) (delimited_cons (by decide) _)
    have more := readElements_write (w :: values) (by simp) (by simp [printableValues, cleanNext, cleanRest]) f after
      (by omega)
    rw [show writeElements (v :: w :: values) ++ ']'.toUInt8 :: after =
        write v ++ ','.toUInt8 :: (writeElements (w :: values) ++ ']'.toUInt8 :: after) by
      simp [writeElements, writeNextElements]]
    exact readElements_comma read more

/-- The members of an object are read back after its first quote, up to its `}`, each assigned
into the object read so far. -/
theorem readMembers_write : ∀ (members : List (List UInt8 × JsonValue)), members ≠ [] →
    printableMembers members = true → ∀ (acc : List (List UInt8 × JsonValue)) (fuel : ℕ) (after : List UInt8),
    2 * (writeMembers members).length ≤ fuel →
      readMembers fuel '"'.toUInt8 acc ((writeMembers members).tail ++ '}'.toUInt8 :: after) =
        .ok (readBackMembers members acc, after)
  | [], nonempty, _, _, _, _, _ => absurd rfl nonempty
  | [(key, v)], _, clean, acc, fuel, after, enough => by
    simp only [printableMembers, Bool.and_eq_true, and_true] at clean
    obtain ⟨cleanKey, cleanValue⟩ := clean
    obtain ⟨f, rfl⟩ : ∃ f, fuel = f + 1 := ⟨fuel - 1, by simp [writeMembers] at enough; omega⟩
    have keyRead := readStringToken_unquoted cleanKey (':'.toUInt8 :: (write v ++ '}'.toUInt8 :: after))
    have read := readValue_write v cleanValue f ('}'.toUInt8 :: after)
      (by simp [writeMembers, writeNextMembers] at enough; omega) (delimited_cons (by decide) _)
    rw [show (writeMembers [(key, v)]).tail ++ '}'.toUInt8 :: after =
        key ++ '"'.toUInt8 :: ':'.toUInt8 :: (write v ++ '}'.toUInt8 :: after) by
      simp [writeMembers, writeNextMembers], readMembers_close keyRead read]
    rfl
  | (key, v) :: (next, w) :: members, _, clean, acc, fuel, after, enough => by
    simp only [printableMembers, Bool.and_eq_true] at clean
    obtain ⟨⟨cleanKey, cleanValue⟩, cleanRest⟩ := clean
    have lengths : (writeMembers ((key, v) :: (next, w) :: members)).length =
        key.length + (write v).length + 4 + (writeMembers ((next, w) :: members)).length := by
      simp [writeMembers, writeNextMembers]
      omega
    obtain ⟨f, rfl⟩ : ∃ f, fuel = f + 1 := ⟨fuel - 1, by omega⟩
    -- what follows the value: the comma and the quote of the next member, then its text
    have keyRead := readStringToken_unquoted cleanKey
      (':'.toUInt8 :: (write v ++ ','.toUInt8 :: '"'.toUInt8 ::
        ((writeMembers ((next, w) :: members)).tail ++ '}'.toUInt8 :: after)))
    have read := readValue_write v cleanValue f
      (','.toUInt8 :: '"'.toUInt8 :: ((writeMembers ((next, w) :: members)).tail ++ '}'.toUInt8 :: after))
      (by omega) (delimited_cons (by decide) _)
    have more := readMembers_write ((next, w) :: members) (by simp) (by simpa [printableMembers] using cleanRest)
      (assignMember (withoutSpaces key) (readBack v) acc) f after (by omega)
    rw [show (writeMembers ((key, v) :: (next, w) :: members)).tail ++ '}'.toUInt8 :: after =
        key ++ '"'.toUInt8 :: ':'.toUInt8 :: (write v ++ ','.toUInt8 :: '"'.toUInt8 ::
          ((writeMembers ((next, w) :: members)).tail ++ '}'.toUInt8 :: after)) by
      simp [writeMembers, writeNextMembers], readMembers_comma keyRead read more]
    rfl

end

/-- `JsonValue::fromString(v.toString())` is `readBack v` for every value whose strings and keys
have no quote and no backslash, and which holds no `REAL`. -/
theorem fromString_toString {v : JsonValue} (clean : printable v = true) :
    fromString (toString v) = .ok (readBack v) := by
  have read := readValue_write v clean (2 * (write v).length) [] le_rfl (fun _ member => by cases member)
  rw [List.append_nil] at read
  unfold fromString toString
  simp only [read]

/-! ## When the reader returns the value itself -/

/-- Members whose keys have no white space and are above every key read so far, and in order, are
appended with their values read back. -/
theorem readBackMembers_sorted : ∀ (members acc : List (List UInt8 × JsonValue)),
    ((acc ++ members).map Prod.fst).Pairwise (· < ·) → (∀ key ∈ members.map Prod.fst, solid key = true) →
      readBackMembers members acc = acc ++ members.map fun member => (member.1, readBack member.2)
  | [], acc, _, _ => by rw [readBackMembers, List.map_nil, List.append_nil]
  | (key, v) :: members, acc, sorted, solidKeys => by
    have above : ∀ name ∈ acc.map Prod.fst, name < key := fun name member =>
      (List.pairwise_append.mp (by simpa using sorted)).2.2 name member key (by simp)
    rw [readBackMembers, withoutSpaces_solid (solidKeys key (by simp)), assignMember_of_lt _ above,
      readBackMembers_sorted members (acc ++ [(key, readBack v)]) (by simpa using sorted)
        fun name member => solidKeys name (by simp [member])]
    simp

theorem spacelessMembers_keys : ∀ {members : List (List UInt8 × JsonValue)}, spacelessMembers members = true →
    ∀ key ∈ members.map Prod.fst, solid key = true
  | [], _ => by simp
  | (key, _) :: members, clean => by
    simp only [spacelessMembers, Bool.and_eq_true] at clean
    simp only [List.map_cons, List.mem_cons]
    rintro name (rfl | member)
    · exact clean.1.1
    · exact spacelessMembers_keys clean.2 name member

mutual

theorem readBack_eq_self : ∀ (v : JsonValue), wellFormed v = true → spaceless v = true → readBack v = v
  | array values, formed, clean => by
    rw [readBack, readBackValues_eq_self values (by simpa [wellFormed] using formed)
      (by simpa [spaceless] using clean)]
  | bool _, _, _ => rfl
  | integer _, _, _ => rfl
  | nil, _, _ => rfl
  | object members, formed, clean => by
    simp only [wellFormed, Bool.and_eq_true, decide_eq_true_eq] at formed
    have cleanMembers : spacelessMembers members = true := by simpa [spaceless] using clean
    rw [readBack, readBackMembers_sorted members [] (by simpa using formed.1) (spacelessMembers_keys cleanMembers),
      List.nil_append, readBackMembers_map_eq_self members formed.2 cleanMembers]
  | real _, _, _ => rfl
  | string value, _, clean => by
    rw [readBack, withoutSpaces_solid (by simpa [spaceless] using clean)]

theorem readBackValues_eq_self : ∀ (values : List JsonValue), wellFormedValues values = true →
    spacelessValues values = true → readBackValues values = values
  | [], _, _ => rfl
  | v :: values, formed, clean => by
    simp only [wellFormedValues, spacelessValues, Bool.and_eq_true] at formed clean
    rw [readBackValues, readBack_eq_self v formed.1 clean.1, readBackValues_eq_self values formed.2 clean.2]

theorem readBackMembers_map_eq_self : ∀ (members : List (List UInt8 × JsonValue)),
    wellFormedMembers members = true → spacelessMembers members = true →
      (members.map fun member => (member.1, readBack member.2)) = members
  | [], _, _ => rfl
  | (key, v) :: members, formed, clean => by
    simp only [wellFormedMembers, spacelessMembers, Bool.and_eq_true] at formed clean
    rw [List.map_cons, readBack_eq_self v formed.1 clean.1.2, readBackMembers_map_eq_self members formed.2 clean.2]

end

end JsonValue

end Nox.Common
