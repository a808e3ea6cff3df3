import Nox.Model.CryptoNoteCore.Currency

/-! # The mixin rules of `Mixins.h`

The allowed mixin depends on the height: no limit before the first limit height, then the range
of each version. A transaction's mixin is read off its largest ring, the key input with the most
output indexes, less one; a transaction with no key input has mixin zero. `validate` checks every
transaction of a list against the range of one height and stops at the first that falls out of it.

The error is the data the message prints: the transaction's hash, its mixin and the bound it
crosses. The texts around them are left out.
-/

namespace Nox.CryptoNote

open Nox.Crypto

def MINIMUM_MIXIN_V1 : ℕ := 0
def MAXIMUM_MIXIN_V1 : ℕ := 100
def MINIMUM_MIXIN_V2 : ℕ := 7
def MAXIMUM_MIXIN_V2 : ℕ := 7
def MINIMUM_MIXIN_V3 : ℕ := 3
def MAXIMUM_MIXIN_V3 : ℕ := 3

def MIXIN_LIMITS_V1_HEIGHT : ℕ := 440000
def MIXIN_LIMITS_V2_HEIGHT : ℕ := 620000
def MIXIN_LIMITS_V3_HEIGHT : ℕ := 800000

/-- Why `Mixins::validate(transaction, minMixin, maxMixin)` refuses a transaction. -/
inductive MixinError where
  /-- "transaction mixin is too large": the hash, the mixin and `maxMixin`. -/
  | tooLarge (transactionHash : Hash) (mixin maxMixin : ℕ)
  /-- "transaction mixin is too small": the hash, the mixin and `minMixin`. -/
  | tooSmall (transactionHash : Hash) (mixin minMixin : ℕ)
deriving DecidableEq, Repr

namespace Mixins

/-- `Mixins::getMixinAllowableRange(height)`: the least and the greatest mixin allowed. -/
def getMixinAllowableRange (height : ℕ) : ℕ × ℕ :=
  if height ≥ MIXIN_LIMITS_V3_HEIGHT then (MINIMUM_MIXIN_V3, MAXIMUM_MIXIN_V3)
  else if height ≥ MIXIN_LIMITS_V2_HEIGHT then (MINIMUM_MIXIN_V2, MAXIMUM_MIXIN_V2)
  else if height ≥ MIXIN_LIMITS_V1_HEIGHT then (MINIMUM_MIXIN_V1, MAXIMUM_MIXIN_V1)
  else (0, UINT64_MAX.toNat)

/-- The loop of `validate(transaction, minMixin, maxMixin)` over the inputs: the largest ring of a
key input, and 1 when there is none. -/
def ringSize (inputs : List TransactionInput) : ℕ :=
  inputs.foldl
    (fun ringSize input =>
      match input with
      | .key input =>
        let currentRingSize := input.outputIndexes.length
        if currentRingSize > ringSize then currentRingSize else ringSize
      | .base _ => ringSize)
    1

variable (primitives : Primitives)

/-- `Mixins::validate(transaction, minMixin, maxMixin)`. -/
def validateTransaction (transaction : CachedTransaction) (minMixin maxMixin : ℕ) : Except MixinError Unit :=
  let mixin := ringSize transaction.transaction.inputs - 1
  let transactionHash := primitives.getTransactionHash transaction.transaction
  if mixin > maxMixin then .error (.tooLarge transactionHash mixin maxMixin)
  else if mixin < minMixin then .error (.tooSmall transactionHash mixin minMixin)
  else .ok ()

/-- `Mixins::validate(transactions, height)`: the first transaction out of the range of the height
stops the loop. -/
def validate (transactions : List CachedTransaction) (height : ℕ) : Except MixinError Unit :=
  let (minMixin, maxMixin) := getMixinAllowableRange height
  transactions.forM fun transaction => validateTransaction primitives transaction minMixin maxMixin

/-- The `success` flag that `Core::addBlock` and `TransactionPoolCleanWrapper::clean` read from
`validate(transactions, height)`. -/
def success (transactions : List CachedTransaction) (height : ℕ) : Bool :=
  (validate primitives transactions height).isOk

end Mixins

end Nox.CryptoNote
