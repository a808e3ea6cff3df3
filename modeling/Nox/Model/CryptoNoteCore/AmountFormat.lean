import Mathlib.Data.List.DropRight
import Nox.Model.Common.StringTools

/-! # Amounts as text: `Currency::formatAmount` and `Currency::parseAmount`

An amount is a count of atomic units; its text has `numberOfDecimalPlaces` digits after the point.
`formatAmount` pads the decimal digits with zeros to one more than the places and puts the point
before the last `numberOfDecimalPlaces`. `parseAmount` trims white space, drops trailing zeros of
the fraction while it is longer than the places, refuses a fraction still too long, removes the
point, requires digits only, pads the fraction with zeros and reads the digits with `fromString`.
-/

namespace Nox.CryptoNote

open Nox.Common

/-- The places of the default currency, `CurrencyBuilder::numberOfDecimalPlaces`. -/
def CRYPTONOTE_DISPLAY_DECIMAL_POINT : ℕ := 2

/-- `boost::algorithm::trim`: white space off both ends. -/
def trim (text : List UInt8) : List UInt8 := (text.dropWhile isSpace).rdropWhile isSpace

/-- `std::to_string` of a `uint64_t`: its decimal digits, `"0"` for zero. -/
def toDecimalString (value : UInt64) : List UInt8 :=
  if value = 0 then [0x30]
  else (Nat.digits 10 value.toNat).reverse.map fun digit => UInt8.ofNat (0x30 + digit)

/-- `Currency::formatAmount(uint64_t)`. -/
def formatAmount (numberOfDecimalPlaces : ℕ) (amount : UInt64) : List UInt8 :=
  let s := toDecimalString amount
  let s := if s.length < numberOfDecimalPlaces + 1 then
      List.replicate (numberOfDecimalPlaces + 1 - s.length) 0x30 ++ s
    else s
  s.take (s.length - numberOfDecimalPlaces) ++ 0x2e :: s.drop (s.length - numberOfDecimalPlaces)

/-- The `while` loop of `parseAmount`: trailing zeros come off while the fraction is longer than
the places. -/
def stripFractionZeros (numberOfDecimalPlaces : ℕ) : ℕ → List UInt8 → ℕ × List UInt8
  | 0, strAmount => (0, strAmount)
  | fractionSize + 1, strAmount =>
    if numberOfDecimalPlaces < fractionSize + 1 ∧ strAmount.getLast? = some 0x30 then
      stripFractionZeros numberOfDecimalPlaces fractionSize strAmount.dropLast
    else (fractionSize + 1, strAmount)

/-- The end of `parseAmount`, once the point is erased: a non-empty text of digits, the fraction
padded with zeros to the places. -/
def parseAmountDigits (numberOfDecimalPlaces fractionSize : ℕ) (strAmount : List UInt8) : Option UInt64 :=
  if strAmount = [] then none
  else if !strAmount.all isDigit then none
  else fromString (if fractionSize < numberOfDecimalPlaces then
      strAmount ++ List.replicate (numberOfDecimalPlaces - fractionSize) 0x30
    else strAmount)

/-- `Currency::parseAmount(str, amount)`. -/
def parseAmount (numberOfDecimalPlaces : ℕ) (str : List UInt8) : Option UInt64 :=
  let strAmount := trim str
  match strAmount.idxOf? 0x2e with
  | some pointIndex =>
    let (fractionSize, strAmount) :=
      stripFractionZeros numberOfDecimalPlaces (strAmount.length - pointIndex - 1) strAmount
    if numberOfDecimalPlaces < fractionSize then none
    else parseAmountDigits numberOfDecimalPlaces fractionSize (strAmount.eraseIdx pointIndex)
  | none => parseAmountDigits numberOfDecimalPlaces 0 strAmount

example : formatAmount CRYPTONOTE_DISPLAY_DECIMAL_POINT 12345 = [0x31, 0x32, 0x33, 0x2e, 0x34, 0x35] := by decide
example : formatAmount 2 5 = [0x30, 0x2e, 0x30, 0x35] := by decide
example : parseAmount 2 [0x20, 0x31, 0x32, 0x33, 0x2e, 0x34, 0x35, 0x30, 0x30, 0x0a] = some 12345 := by decide

end Nox.CryptoNote
