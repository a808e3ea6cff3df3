import Mathlib.Data.Nat.Notation
import Nox.Library.BoundedQuantifiers

/-! # `decompose_amount_into_digits` of `CryptoNoteFormatUtils.h`

The template walks the decimal digits of an amount from the lowest, each digit times its order of
magnitude a chunk. While the chunks so far stay within the dust threshold they are summed into the
dust; the first chunk that would pass it hands the dust to the dust handler, once, and every
nonzero chunk from then on goes to the chunk handler. The handlers are the template's parameters;
here they act on a state of any type, so that the callers' handlers are instances of one function.
-/

namespace Nox.CryptoNote

section Handlers

variable {σ : Type} (chunkHandler dustHandler : σ → UInt64 → σ) (dustThreshold : UInt64)

/-- The `while (0 != amount)` loop: the amount left, the order of its lowest digit, the dust so far
and whether it has been handled. A `uint64_t` has at most 20 digits, the fuel. -/
def decomposeAmountIntoDigitsLoopWith :
    ℕ → UInt64 → UInt64 → UInt64 → Bool → σ → σ × UInt64 × Bool
  | 0, _, _, dust, isDustHandled, state => (state, dust, isDustHandled)
  | fuel + 1, amount, order, dust, isDustHandled, state =>
    if amount = 0 then (state, dust, isDustHandled)
    else
      let chunk := (amount % 10) * order
      if dust + chunk ≤ dustThreshold then
        decomposeAmountIntoDigitsLoopWith fuel (amount / 10) (order * 10) (dust + chunk) isDustHandled state
      else
        let handlesDust := !isDustHandled && dust != 0
        let state := if handlesDust then dustHandler state dust else state
        let state := if chunk != 0 then chunkHandler state chunk else state
        decomposeAmountIntoDigitsLoopWith fuel (amount / 10) (order * 10) dust (isDustHandled || handlesDust)
          state

/-- `decompose_amount_into_digits(amount, dust_threshold, chunk_handler, dust_handler)`: the loop,
then the dust if it was never handled. -/
def decomposeAmountIntoDigitsWith (amount : UInt64) (state : σ) : σ :=
  if amount = 0 then state
  else
    let (state, dust, isDustHandled) :=
      decomposeAmountIntoDigitsLoopWith chunkHandler dustHandler dustThreshold 20 amount 1 0 false state
    if !isDustHandled && dust != 0 then dustHandler state dust else state

end Handlers

/-- `decomposeAmount(amount, dustThreshold, decomposedAmounts)` of `CryptoNoteTools.cpp`: both
handlers push to the vector. -/
def decomposeAmount (amount dustThreshold : UInt64) (decomposedAmounts : List UInt64) : List UInt64 :=
  decomposeAmountIntoDigitsWith (fun amounts chunk => amounts ++ [chunk]) (fun amounts dust => amounts ++ [dust])
    dustThreshold amount decomposedAmounts

/-- One call of a handler of `decompose_amount_into_digits`. -/
inductive AmountPart where
  | chunk (value : UInt64)
  | dust (value : UInt64)
deriving DecidableEq, Repr

def AmountPart.value : AmountPart → UInt64
  | .chunk value => value
  | .dust value => value

def AmountPart.isDust : AmountPart → Bool
  | .chunk _ => false
  | .dust _ => true

/-- The handler calls of `decompose_amount_into_digits`, in order. -/
def decomposeAmountIntoParts (amount dustThreshold : UInt64) : List AmountPart :=
  decomposeAmountIntoDigitsWith (fun parts chunk => parts ++ [.chunk chunk]) (fun parts dust => parts ++ [.dust dust])
    dustThreshold amount []

end Nox.CryptoNote
