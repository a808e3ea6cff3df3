import Mathlib.Data.Nat.Digits.Defs
import Mathlib.Data.Vector.Basic
import Nox.Library.BoundedQuantifiers

/-! # Text conversions of `Common/StringTools`

A `std::string` is its bytes. `fromHex` reads pairs of hexadecimal digits, either case, high digit
first, through the table `characterValues`, which holds `0xff` for every byte that is not a digit.
`podFromHex` fills a value of fixed size and succeeds only when the text has exactly twice as many
digits as the value has bytes. `fromString` reads a `uint64_t` as `std::istringstream` does.
-/

namespace Nox.Common

/-- `characterValues[character]`: the value of a hexadecimal digit, `0xff` for any other byte. -/
def characterValue (character : UInt8) : UInt8 :=
  if 0x30 ≤ character ∧ character ≤ 0x39 then character - 0x30
  else if 0x41 ≤ character ∧ character ≤ 0x46 then character - 0x41 + 0x0a
  else if 0x61 ≤ character ∧ character ≤ 0x66 then character - 0x61 + 0x0a
  else 0xff

/-- `fromHex(character, value)`. -/
def fromHexCharacter (character : UInt8) : Option UInt8 :=
  if characterValue character > 0x0f then none else some (characterValue character)

/-- The loop of `fromHex(text, data, bufferSize, size)` over the pairs of digits. -/
def fromHexLoop : List UInt8 → Option (List UInt8)
  | high :: low :: rest => do
    let value1 ← fromHexCharacter high
    let value2 ← fromHexCharacter low
    let data ← fromHexLoop rest
    pure ((value1 <<< 4 ||| value2) :: data)
  | _ => some []

/-- `fromHex(text, data, bufferSize, size)`: the bytes of an even-length text that fits the buffer. -/
def fromHex (text : List UInt8) (bufferSize : ℕ) : Option (List UInt8) :=
  if text.length % 2 ≠ 0 then none
  else if text.length / 2 > bufferSize then none
  else fromHexLoop text

/-- `podFromHex(text, value)` for a value of `size` bytes. -/
def podFromHex (size : ℕ) (text : List UInt8) : Option (Vector UInt8 size) := do
  let data ← fromHex text size
  if filled : data.length = size then some ⟨data.toArray, by simpa using filled⟩ else none

/-- `std::isspace` in the C locale: space, tab, line feed, vertical tab, form feed, return. -/
def isSpace (character : UInt8) : Bool := character == 0x20 || (0x09 ≤ character && character ≤ 0x0d)

/-- `std::isdigit`. -/
def isDigit (character : UInt8) : Bool := 0x30 ≤ character && character ≤ 0x39

def digitValue (character : UInt8) : ℕ := character.toNat - 0x30

/-- The value of a text of decimal digits, the most significant first. -/
def decimalValue (digits : List UInt8) : ℕ := Nat.ofDigits 10 (digits.reverse.map digitValue)

/-- `fromString(text, value)` for a `uint64_t`: `stream >> value` skips white space, takes a sign
and the longest run of digits after it, and fails without a digit or when the digits overflow; a
minus sign negates modulo `2 ^ 64`. -/
def fromString (text : List UInt8) : Option UInt64 :=
  let text := text.dropWhile isSpace
  let (negative, text) := match text with
    | character :: rest =>
      if character = 0x2d then (true, rest) else if character = 0x2b then (false, rest) else (false, text)
    | [] => (false, [])
  let digits := text.takeWhile isDigit
  if digits = [] ∨ 2 ^ 64 ≤ decimalValue digits then none
  else if negative then some (0 - UInt64.ofNat (decimalValue digits))
  else some (UInt64.ofNat (decimalValue digits))

end Nox.Common
