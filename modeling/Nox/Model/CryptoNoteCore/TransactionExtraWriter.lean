import Nox.Model.Common.StringTools
import Nox.Model.CryptoNoteCore.BlockTemplate

/-! # Writing transaction extra fields: the other half of `TransactionExtra.cpp`

`writeTransactionExtra` appends each field with the `ExtraSerializerVisitor`: a padding of `size`
is `size` zero bytes, the first of which is the padding tag itself, and the other kinds are written
by `addTransactionPublicKeyToExtra`, `addExtraNonceToTransactionExtra` and
`appendMergeMiningTagToExtra`. The payment id of a transfer is a nonce holding the payment-id tag
and the 32 bytes of the id, which is given as 64 hexadecimal digits.
-/

namespace Nox.CryptoNote

open Nox.Common Nox.Crypto

/-- The `ExtraSerializerVisitor` on one field; `none` is its `false`. -/
def writeTransactionExtraField (extra : List UInt8) : TransactionExtraField → Option (List UInt8)
  | .padding field =>
    if field.size > TX_EXTRA_PADDING_MAX_COUNT then none else some (extra ++ List.replicate field.size 0)
  | .publicKey field => some (addTransactionPublicKeyToExtra extra field.publicKey)
  | .nonce field => addExtraNonceToTransactionExtra extra field.nonce
  | .mergeMiningTag field => some (appendMergeMiningTagToExtra extra field)

/-- `writeTransactionExtra(tx_extra, tx_extra_fields)`: the fields in order, up to the first one
the visitor refuses. -/
def writeTransactionExtra (extra : List UInt8) : List TransactionExtraField → Option (List UInt8)
  | [] => some extra
  | field :: fields => do
    let extra ← writeTransactionExtraField extra field
    writeTransactionExtra extra fields

/-- `findTransactionExtraFieldByType<TransactionExtraPublicKey>`: the first key field. -/
def findPublicKey (fields : List TransactionExtraField) : Option TransactionExtraPublicKey :=
  fields.findSome? fun
    | .publicKey field => some field
    | _ => none

/-- `getTransactionPublicKeyFromExtra`: the key of the first key field, the zero key without one;
the parse result is ignored. -/
def getTransactionPublicKeyFromExtra (extra : List UInt8) : PublicKey :=
  match findPublicKey (parseTransactionExtra extra).2 with
  | some field => field.publicKey
  | none => ⟨Vector.replicate 32 0⟩

/-- `setPaymentIdToTransactionExtraNonce`: the payment-id tag, then the id's bytes. -/
def setPaymentIdToTransactionExtraNonce (paymentId : Hash) : List UInt8 :=
  TX_EXTRA_NONCE_PAYMENT_ID :: paymentId.data.toList

/-- `parsePaymentId`: 64 hexadecimal digits. -/
def parsePaymentId (paymentIdString : List UInt8) : Option Hash :=
  (podFromHex 32 paymentIdString).map Hash.mk

/-- `createTxExtraWithPaymentId(paymentIdString, extra)`: the payment id appended as a nonce. -/
def createTxExtraWithPaymentId (paymentIdString extra : List UInt8) : Option (List UInt8) := do
  let paymentIdBin ← parsePaymentId paymentIdString
  addExtraNonceToTransactionExtra extra (setPaymentIdToTransactionExtraNonce paymentIdBin)

end Nox.CryptoNote
