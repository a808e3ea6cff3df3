import Nox.Model.Serialization.BinarySerializer

/-! # Transaction extra fields of `CryptoNoteCore/TransactionExtra.cpp`

The extra of a transaction is a byte string of tagged fields. `parseTransactionExtra` walks it
with the loop of the source: a padding tag consumes zero bytes up to `TX_EXTRA_PADDING_MAX_COUNT`,
a public key is 32 raw bytes, a nonce is a one-byte length and its bytes, and a merge-mining tag is
a string named `"mm_tag"` that holds a varint depth and a hash. A second padding, key or nonce
ends the parse successfully, a second merge-mining tag is skipped over tag byte only, and any
other byte is skipped. A failure returns `false` but keeps the fields parsed before it; the merge
mining lookup of the parent block ignores the result and takes the first tag field found.
-/

namespace Nox.CryptoNote

open Nox.Common Nox.Serialization Nox.Crypto

def TX_EXTRA_PADDING_MAX_COUNT : ℕ := 255
def TX_EXTRA_NONCE_MAX_COUNT : ℕ := 255
def TX_EXTRA_TAG_PADDING : UInt8 := 0x00
def TX_EXTRA_TAG_PUBKEY : UInt8 := 0x01
def TX_EXTRA_NONCE : UInt8 := 0x02
def TX_EXTRA_MERGE_MINING_TAG : UInt8 := 0x03

structure TransactionExtraPadding where
  size : ℕ
deriving DecidableEq, Repr

structure TransactionExtraPublicKey where
  publicKey : PublicKey
deriving DecidableEq, Repr

structure TransactionExtraNonce where
  nonce : List UInt8
deriving DecidableEq, Repr

structure TransactionExtraMergeMiningTag where
  depth : UInt64
  merkleRoot : Hash
deriving DecidableEq, Repr

/-- `boost::variant` of the four extra field kinds. -/
inductive TransactionExtraField where
  | padding (field : TransactionExtraPadding)
  | publicKey (field : TransactionExtraPublicKey)
  | nonce (field : TransactionExtraNonce)
  | mergeMiningTag (field : TransactionExtraMergeMiningTag)
deriving DecidableEq, Repr

/-- `doSerialize(TransactionExtraMergeMiningTag&)` on input: the depth and the merkle root. -/
def inputMergeMiningTagFields : Decoder UInt8 TransactionExtraMergeMiningTag := do
  let depth ← inputUInt64
  let merkleRoot ← inputPod 32
  pure ⟨depth, ⟨merkleRoot⟩⟩

/-- `serialize(TransactionExtraMergeMiningTag&)` on input: the fields are read from the string
named `"mm_tag"`; bytes after them in the string are ignored. -/
def inputMergeMiningTag : Decoder UInt8 TransactionExtraMergeMiningTag := fun input =>
  match inputString "mm_tag" input with
  | .ok (field, rest) =>
    match inputMergeMiningTagFields field with
    | .ok (tag, _) => .ok (tag, rest)
    | .error message => .error message
  | .error message => .error message

/-- The zero run of a padding field: `size` counts the tag byte and every zero read, and the loop
reads while the stream lasts and `size ≤ TX_EXTRA_PADDING_MAX_COUNT`; `none` is a non-zero byte. -/
def readPaddingLoop (size : ℕ) : List UInt8 → Option (ℕ × List UInt8)
  | [] => some (size, [])
  | byte :: rest =>
    if size ≤ TX_EXTRA_PADDING_MAX_COUNT then
      if byte ≠ 0 then none else readPaddingLoop (size + 1) rest
    else some (size, byte :: rest)

/-- Which field kinds the parse has met. -/
structure ExtraSeen where
  padding : Bool := false
  pubkey : Bool := false
  nonce : Bool := false
  mergeMiningTag : Bool := false
deriving DecidableEq, Repr

/-- The `while (!iss.endOfStream())` loop of `parseTransactionExtra`, with the result flag and the
fields pushed so far. Every iteration consumes at least the tag byte, so a `fuel` of the input
length never runs out first. -/
def parseTransactionExtraLoop :
    ℕ → ExtraSeen → List TransactionExtraField → List UInt8 → Bool × List TransactionExtraField
  | _, _, fields, [] => (true, fields)
  | 0, _, fields, _ :: _ => (true, fields)
  | fuel + 1, seen, fields, c :: rest =>
    if c = TX_EXTRA_TAG_PADDING then
      if seen.padding then (true, fields)
      else
        match readPaddingLoop 1 rest with
        | none => (false, fields)
        | some (size, after) =>
          if size > TX_EXTRA_PADDING_MAX_COUNT then (false, fields)
          else parseTransactionExtraLoop fuel { seen with padding := true }
            (fields ++ [.padding ⟨size⟩]) after
    else if c = TX_EXTRA_TAG_PUBKEY then
      if seen.pubkey then (true, fields)
      else
        match inputPod 32 rest with
        | .ok (key, after) => parseTransactionExtraLoop fuel { seen with pubkey := true }
            (fields ++ [.publicKey ⟨⟨key⟩⟩]) after
        | .error _ => (false, fields)
    else if c = TX_EXTRA_NONCE then
      if seen.nonce then (true, fields)
      else
        match readByte rest with
        | .ok (size, afterSize) =>
          match readBytes size.toNat afterSize with
          | .ok (nonce, after) => parseTransactionExtraLoop fuel { seen with nonce := true }
              (fields ++ [.nonce ⟨nonce⟩]) after
          | .error _ => (false, fields)
        | .error _ => (false, fields)
    else if c = TX_EXTRA_MERGE_MINING_TAG then
      -- a repeated tag `break`s out of the switch only: the loop goes on after the tag byte
      if seen.mergeMiningTag then parseTransactionExtraLoop fuel seen fields rest
      else
        match inputMergeMiningTag rest with
        | .ok (tag, after) => parseTransactionExtraLoop fuel { seen with mergeMiningTag := true }
            (fields ++ [.mergeMiningTag tag]) after
        | .error _ => (false, fields)
    else parseTransactionExtraLoop fuel seen fields rest

/-- `parseTransactionExtra`: the result flag and the fields found. -/
def parseTransactionExtra (transactionExtra : List UInt8) : Bool × List TransactionExtraField :=
  parseTransactionExtraLoop transactionExtra.length {} [] transactionExtra

/-- `findTransactionExtraFieldByType<TransactionExtraMergeMiningTag>`: the first such field. -/
def findMergeMiningTag (fields : List TransactionExtraField) : Option TransactionExtraMergeMiningTag :=
  fields.findSome? fun
    | .mergeMiningTag tag => some tag
    | _ => none

/-- `getMergeMiningTagFromExtra`: the parse result flag is ignored. -/
def getMergeMiningTagFromExtra (extra : List UInt8) : Option TransactionExtraMergeMiningTag :=
  findMergeMiningTag (parseTransactionExtra extra).2

def TX_EXTRA_NONCE_PAYMENT_ID : UInt8 := 0x00

/-- `findTransactionExtraFieldByType<TransactionExtraNonce>`: the first nonce field. -/
def findNonce (fields : List TransactionExtraField) : Option TransactionExtraNonce :=
  fields.findSome? fun
    | .nonce nonce => some nonce
    | _ => none

/-- `getPaymentIdFromTransactionExtraNonce`: a nonce of the payment-id tag and 32 bytes. -/
def getPaymentIdFromTransactionExtraNonce (extraNonce : List UInt8) : Option Hash :=
  match extraNonce with
  | tag :: paymentId =>
    if size : paymentId.length = 32 then
      if tag = TX_EXTRA_NONCE_PAYMENT_ID then some ⟨⟨paymentId.toArray, by simpa using size⟩⟩ else none
    else none
  | [] => none

/-- `getPaymentIdFromTxExtra`: the extra must parse and hold a nonce that is a payment id. -/
def getPaymentIdFromTxExtra (extra : List UInt8) : Option Hash :=
  let (parsed, fields) := parseTransactionExtra extra
  if parsed then (findNonce fields).bind fun nonce => getPaymentIdFromTransactionExtraNonce nonce.nonce
  else none

end Nox.CryptoNote
