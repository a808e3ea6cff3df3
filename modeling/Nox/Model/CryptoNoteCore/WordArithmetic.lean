import Mathlib.Data.Nat.Digits.Defs
import Nox.Model.Common.IntUtil
import Nox.Model.CryptoNote

/-! # The word arithmetic of the block penalty and the proof-of-work check

`getPenalizedAmount` of `CryptoNoteBasicImpl.cpp` multiplies the amount by
`size * (2 * median - size)` with `mul128` and divides the 128-bit product twice by the median with
`div128_32`; `Currency.getPenalizedAmount` of the currency model states the result as one division
of numbers, and the word-level function here is the one the other is proved against.

`check_hash` of `CheckDifficulty.cpp` multiplies the four words of the hash by the difficulty and
adds the partial products with a carry chain, to tell whether the 320-bit product stays below
`2 ^ 256`. Its `mul` is the `unsigned __int128` product where the compiler has one and `mul128`
otherwise; both are kept, and `check_hash` is written over the multiplication it uses.
-/

namespace Nox.CryptoNote

open Nox.Crypto

namespace WordLevel

/-- The two quotient words of `getPenalizedAmount` for a block larger than the median: the amount
times `size * (2 * median - size)` in `size_t` arithmetic, divided twice by the median cast to
`uint32_t`. -/
def penalizedAmountWords (amount : UInt64) (medianSize currentBlockSize : ℕ) : UInt64 × UInt64 :=
  let (productLo, productHi) := IntUtil.mul128 amount
    (UInt64.ofNat currentBlockSize * (2 * UInt64.ofNat medianSize - UInt64.ofNat currentBlockSize))
  let (_, penalizedAmountHi, penalizedAmountLo) :=
    IntUtil.div128_32 productHi productLo (UInt32.ofNat medianSize)
  let (_, penalizedAmountHi, penalizedAmountLo) :=
    IntUtil.div128_32 penalizedAmountHi penalizedAmountLo (UInt32.ofNat medianSize)
  (penalizedAmountHi, penalizedAmountLo)

/-- `getPenalizedAmount(amount, medianSize, currentBlockSize)` as `CryptoNoteBasicImpl.cpp`
computes it: the low quotient word, whose high word the source asserts to be 0. -/
def getPenalizedAmount (amount : UInt64) (medianSize currentBlockSize : ℕ) : UInt64 :=
  if amount = 0 then 0
  else if currentBlockSize ≤ medianSize then amount
  else (penalizedAmountWords amount medianSize currentBlockSize).2

end WordLevel

/-- The `mul` of `CheckDifficulty.cpp` over `unsigned __int128`: the low and the high word of the
product. -/
def mulInt128 (a b : UInt64) : UInt64 × UInt64 :=
  let res := a.toNat * b.toNat
  (UInt64.ofNat res, UInt64.ofNat (res >>> 64))

/-- The `mul` of `CheckDifficulty.cpp` without `unsigned __int128`: `low = mul128(a, b, &high)`. -/
def mulFallback (a b : UInt64) : UInt64 × UInt64 := IntUtil.mul128 a b

/-- `cadd(a, b)`: the carry out of `a + b`. -/
def cadd (a b : UInt64) : Bool := a + b < a

/-- `cadc(a, b, c)`: the carry out of `a + b + c`. -/
def cadc (a b : UInt64) (c : Bool) : Bool := a + b < a || (c && a + b == -1)

/-- `swap64le(((const uint64_t *) &hash)[index])`: bytes `8 * index` to `8 * index + 7` of the hash
as a little-endian word, on a host of either byte order. -/
def hashWord (hash : Hash) (index : ℕ) : UInt64 :=
  UInt64.ofNat (Nat.ofDigits 256 (((hash.data.toList.drop (8 * index)).take 8).map UInt8.toNat))

/-- `check_hash(hash, difficulty)` over the multiplication `mul`: the top word's product first,
then the carry chain of the partial products' middle words. -/
def checkHashWith (mul : UInt64 → UInt64 → UInt64 × UInt64) (hash : Hash) (difficulty : UInt64) : Bool :=
  let (top, high) := mul (hashWord hash 3) difficulty
  if high ≠ 0 then false
  else
    let (_, cur) := mul (hashWord hash 0) difficulty
    let (low, high) := mul (hashWord hash 1) difficulty
    let carry := cadd cur low
    let cur := high
    let (low, high) := mul (hashWord hash 2) difficulty
    let carry := cadc cur low carry
    let carry := cadc high top carry
    !carry

/-- `check_hash` where `unsigned __int128` exists. -/
def checkHash (hash : Hash) (difficulty : UInt64) : Bool := checkHashWith mulInt128 hash difficulty

/-- `check_hash` on the `mul128` fallback. -/
def checkHashFallback (hash : Hash) (difficulty : UInt64) : Bool := checkHashWith mulFallback hash difficulty

end Nox.CryptoNote
