import Mathlib.Data.Nat.Notation
import Nox.Library.BoundedQuantifiers

/-! # The 128-bit helpers of `Common/int-util.h`

Without a 128-bit type the code multiplies two words through their 32-bit halves (`mul128`) and
divides a two-word number by a 32-bit divisor digit by digit in base `2 ^ 32` (`div128_32`). Each
function is written as the header writes it, with `uint64_t` as `UInt64`, the wrapping operations
of the word, and the carries detected by comparison.
-/

namespace Nox.IntUtil

/-- `hi_dword(val)`. -/
def hiDword (val : UInt64) : UInt64 := val >>> 32

/-- `lo_dword(val)`. -/
def loDword (val : UInt64) : UInt64 := val &&& 0xFFFFFFFF

/-- `mul128(multiplier, multiplicand, &product_hi)`: the low word of the product and the high
word it writes through `product_hi`. -/
def mul128 (multiplier multiplicand : UInt64) : UInt64 × UInt64 :=
  let a := hiDword multiplier
  let b := loDword multiplier
  let c := hiDword multiplicand
  let d := loDword multiplicand
  let ac := a * c
  let ad := a * d
  let bc := b * c
  let bd := b * d
  let adbc := ad + bc
  let adbcCarry : UInt64 := if adbc < ad then 1 else 0
  let productLo := bd + (adbc <<< 32)
  let productLoCarry : UInt64 := if productLo < bd then 1 else 0
  (productLo, ac + (adbc >>> 32) + (adbcCarry <<< 32) + productLoCarry)

/-- `div_with_reminder(dividend, divisor, &remainder)`: the remainder of the previous digit is
placed above the dividend, and the quotient and the new remainder are returned. -/
def divWithReminder (dividend : UInt64) (divisor remainder : UInt32) : UInt64 × UInt32 :=
  let dividend := dividend ||| (remainder.toUInt64 <<< 32)
  (dividend / divisor.toUInt64, (dividend % divisor.toUInt64).toUInt32)

/-- `div128_32(dividend_hi, dividend_lo, divisor, &quotient_hi, &quotient_lo)`: long division of
the four 32-bit digits, highest first; the remainder it returns and the two quotient words it
writes. -/
def div128_32 (dividendHi dividendLo : UInt64) (divisor : UInt32) : UInt32 × UInt64 × UInt64 :=
  let (quotient3, remainder) := divWithReminder (hiDword dividendHi) divisor 0
  let (quotient2, remainder) := divWithReminder (loDword dividendHi) divisor remainder
  let (quotient1, remainder) := divWithReminder (hiDword dividendLo) divisor remainder
  let (quotient0, remainder) := divWithReminder (loDword dividendLo) divisor remainder
  (remainder, (quotient3 <<< 32) ||| quotient2, (quotient1 <<< 32) ||| quotient0)

end Nox.IntUtil
