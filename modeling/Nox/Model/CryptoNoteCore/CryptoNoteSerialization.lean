import Nox.Model.CryptoNoteCore.TransactionExtra

/-! # Binary serialization of transactions and block templates

`CryptoNoteCore/CryptoNoteSerialization.cpp` writes one `serialize` function per type that runs
in both directions; here each direction is its own function, `output…` for the
`BinaryOutputStreamSerializer` and `input…` for the `BinaryInputStreamSerializer`. A variant
is a one-byte tag and its value. Ring signatures carry no size: the input side sizes them from the
inputs, and it leaves a transaction whose only input is a `BaseInput` (or that has no input)
without any signature entry. The parent block of a merge-mined template stores its transaction
count as a varint that is read as `uint64_t` and kept as `uint16_t`, and the lengths of its two
branches follow from that count and from the merge-mining tag of its coinbase extra.

`toBinaryArray` is the output side; `fromBinaryArray` runs the input side and fails unless the
whole array was consumed (`CryptoNoteTools.h`).
-/

namespace Nox.CryptoNote

open Nox.Common Nox.Serialization Nox.Crypto

def CURRENT_TRANSACTION_VERSION : UInt8 := 1
def TRANSACTION_VERSION_2 : UInt8 := 2
def BLOCK_MAJOR_VERSION_1 : UInt8 := 1
def BLOCK_MAJOR_VERSION_2 : UInt8 := 2
def BLOCK_MAJOR_VERSION_4 : UInt8 := 4

/-- `Crypto::tree_depth` of `crypto/tree-hash.c`: a binary search for the highest set bit, over the
shifts `32, 16, 8, 4, 2, 1` of a 64-bit `size_t`. -/
def treeDepthLoop : List ℕ → ℕ → ℕ → ℕ
  | [], _, depth => depth
  | i :: shifts, count, depth =>
    if count >>> i > 0 then treeDepthLoop shifts (count >>> i) (depth + i)
    else treeDepthLoop shifts count depth

def treeDepth (count : ℕ) : ℕ := treeDepthLoop [32, 16, 8, 4, 2, 1] count 0

/-- `getSignaturesCount`: one signature per ring member of a key input, none for a base input. -/
def getSignaturesCount : TransactionInput → ℕ
  | .base _ => 0
  | .key input => input.outputIndexes.length

/-- `typeid(BaseInput)` test on an input. -/
def TransactionInput.isBase : TransactionInput → Bool
  | .base _ => true
  | .key _ => false

/-! ## Output -/

def outputHash (hash : Hash) : List UInt8 := hash.data.toList

def outputSignature (signature : Signature) : List UInt8 := signature.data.toList

def outputBaseInput (input : BaseInput) : List UInt8 := outputVarint input.blockIndex.toNat

/-- `serialize(KeyInput&)`, with `serializeVarintVector` for the ring. -/
def outputKeyInput (input : KeyInput) : List UInt8 :=
  outputVarint input.amount.toNat ++
    (outputVarint input.outputIndexes.length ++
      input.outputIndexes.flatMap (fun index => outputVarint index.toNat)) ++
    input.keyImage.data.toList

/-- `serialize(TransactionInput&)`: the `BinaryVariantTagGetter` tag, then the value. -/
def outputTransactionInput : TransactionInput → List UInt8
  | .base input => 0xff :: outputBaseInput input
  | .key input => 0x02 :: outputKeyInput input

def outputTransactionOutputTarget : TransactionOutputTarget → List UInt8
  | .key output => 0x02 :: output.key.data.toList

def outputTransactionOutput (output : TransactionOutput) : List UInt8 :=
  outputVarint output.amount.toNat ++ outputTransactionOutputTarget output.target

/-- The fields of a transaction prefix after the version, shared by `TransactionPrefix` and
`BaseTransaction`; the vectors go through `serializeContainer` and the extra through
`serializeAsBinary`. -/
def outputPrefixBody (txPrefix : TransactionPrefix) : List UInt8 :=
  outputVarint txPrefix.unlockTime.toNat ++
    (outputVarint txPrefix.inputs.length ++ txPrefix.inputs.flatMap outputTransactionInput) ++
    (outputVarint txPrefix.outputs.length ++ txPrefix.outputs.flatMap outputTransactionOutput) ++
    outputString txPrefix.extra

/-- `serialize(TransactionPrefix&)` on output: the version check applies to input only. -/
def outputTransactionPrefix (txPrefix : TransactionPrefix) : List UInt8 :=
  outputVarint txPrefix.version.toNat ++ outputPrefixBody txPrefix

/-- The signature loop of `serialize(Transaction&)` on output, over the inputs and, when
signatures are expected, the per-input signature lists in step with them. -/
def outputSignaturesLoop (signaturesNotExpected : Bool) :
    List TransactionInput → List (List Signature) → Except String (List UInt8)
  | [], _ => .ok []
  | input :: inputs, signatures =>
    if signaturesNotExpected then
      if getSignaturesCount input = 0 then outputSignaturesLoop true inputs signatures
      else .error "Serialization error: signatures are not expected"
    else
      match signatures with
      | current :: later =>
        if getSignaturesCount input ≠ current.length then
          .error "Serialization error: unexpected signatures size"
        else
          match outputSignaturesLoop false inputs later with
          | .ok bytes => .ok (current.flatMap outputSignature ++ bytes)
          | .error message => .error message
      -- not reached: the sizes were checked equal before the loop
      | [] => .ok []

/-- `serialize(Transaction&)` on output. -/
def outputTransaction (tx : Transaction) : Except String (List UInt8) :=
  let signaturesNotExpected := tx.signatures.isEmpty
  if !signaturesNotExpected && tx.inputs.length != tx.signatures.length then
    .error "Serialization error: unexpected signatures size"
  else
    match outputSignaturesLoop signaturesNotExpected tx.inputs tx.signatures with
    | .ok signatureBytes => .ok (outputTransactionPrefix tx.toTransactionPrefix ++ signatureBytes)
    | .error message => .error message

/-- `serialize(BaseTransaction&)` on output: from version 2 an ignored `size_t`, written as 0. -/
def outputBaseTransaction (tx : BaseTransaction) : List UInt8 :=
  outputTransactionPrefix tx.toTransactionPrefix ++
    if tx.version ≥ TRANSACTION_VERSION_2 then outputVarint 0 else []

/-- `serialize(ParentBlockSerializer&)` on output, without the hashing merkle root and with the
whole body; the template's timestamp and nonce are written here. -/
def outputParentBlock (parentBlock : ParentBlock) (timestamp : UInt64) (nonce : UInt32) :
    Except String (List UInt8) :=
  let header := outputVarint parentBlock.majorVersion.toNat ++
    outputVarint parentBlock.minorVersion.toNat ++ outputVarint timestamp.toNat ++
    outputHash parentBlock.previousBlockHash ++ uint32Bytes nonce ++
    outputVarint parentBlock.transactionCount.toNat
  if parentBlock.transactionCount < 1 then .error "Wrong transactions number"
  else if parentBlock.baseTransactionBranch.length ≠ treeDepth parentBlock.transactionCount.toNat then
    .error "Wrong miner transaction branch size"
  else
    match getMergeMiningTagFromExtra parentBlock.baseTransaction.extra with
    | none => .error "Can't get extra merge mining tag"
    | some mmTag =>
      if mmTag.depth.toNat > 8 * 32 then .error "Wrong merge mining tag depth"
      else if mmTag.depth.toNat ≠ parentBlock.blockchainBranch.length then
        .error "Blockchain branch size must be equal to merge mining tag depth"
      else
        .ok (header ++ parentBlock.baseTransactionBranch.flatMap outputHash ++
          outputBaseTransaction parentBlock.baseTransaction ++
          parentBlock.blockchainBranch.flatMap outputHash)

/-- `serializeBlockHeader` on output. The major version is checked after it is written. -/
def outputBlockHeader (header : BlockHeader) : Except String (List UInt8) :=
  if header.majorVersion > BLOCK_MAJOR_VERSION_4 then .error "Wrong major version"
  else if header.majorVersion = BLOCK_MAJOR_VERSION_1 then
    .ok (outputVarint header.majorVersion.toNat ++ outputVarint header.minorVersion.toNat ++
      outputVarint header.timestamp.toNat ++ outputHash header.previousBlockHash ++
      uint32Bytes header.nonce)
  else if header.majorVersion ≥ BLOCK_MAJOR_VERSION_2 then
    .ok (outputVarint header.majorVersion.toNat ++ outputVarint header.minorVersion.toNat ++
      outputHash header.previousBlockHash)
  else .error "Wrong major version"

/-- `serialize(BlockTemplate&)` on output. -/
def outputBlockTemplate (block : BlockTemplate) : Except String (List UInt8) :=
  match outputBlockHeader block.toBlockHeader with
  | .error message => .error message
  | .ok headerBytes =>
    let parentBytes : Except String (List UInt8) :=
      if block.majorVersion ≥ BLOCK_MAJOR_VERSION_2 then
        outputParentBlock block.parentBlock block.timestamp block.nonce
      else .ok []
    match parentBytes with
    | .error message => .error message
    | .ok parentBytes =>
      match outputTransaction block.baseTransaction with
      | .error message => .error message
      | .ok minerTx =>
        .ok (headerBytes ++ parentBytes ++ minerTx ++
          (outputVarint block.transactionHashes.length ++ block.transactionHashes.flatMap outputHash))

/-! ## Input -/

def inputHash : Decoder UInt8 Hash := do
  let data ← inputPod 32
  pure ⟨data⟩

def inputSignature : Decoder UInt8 Signature := do
  let data ← inputPod 64
  pure ⟨data⟩

def inputBaseInput : Decoder UInt8 BaseInput := do
  let blockIndex ← inputUInt32
  pure ⟨blockIndex⟩

/-- `serialize(KeyInput&)` on input: `serializeVarintVector` sizes the ring, then each index. -/
def inputKeyInput : Decoder UInt8 KeyInput := do
  let amount ← inputUInt64
  let size ← beginArray
  let outputIndexes ← Decoder.replicate inputUInt32 size
  let keyImage ← inputPod 32
  pure ⟨amount, outputIndexes, ⟨keyImage⟩⟩

/-- `serialize(TransactionInput&)` on input: the raw tag byte selects `getVariantValue`. -/
def inputTransactionInput : Decoder UInt8 TransactionInput := do
  let tag ← readByte
  if tag = 0xff then
    let input ← inputBaseInput
    pure (.base input)
  else if tag = 0x02 then
    let input ← inputKeyInput
    pure (.key input)
  else Decoder.fail "Unknown variant tag"

def inputTransactionOutputTarget : Decoder UInt8 TransactionOutputTarget := do
  let tag ← readByte
  if tag = 0x02 then
    let key ← inputPod 32
    pure (.key ⟨⟨key⟩⟩)
  else Decoder.fail "Unknown variant tag"

def inputTransactionOutput : Decoder UInt8 TransactionOutput := do
  let amount ← inputUInt64
  let target ← inputTransactionOutputTarget
  pure ⟨amount, target⟩

/-- The fields of a transaction prefix after the version, shared by `TransactionPrefix` and
`BaseTransaction`. -/
def inputPrefixBody (version : UInt8) : Decoder UInt8 TransactionPrefix := do
  let unlockTime ← inputUInt64
  let inputCount ← beginArray
  let inputs ← Decoder.replicate inputTransactionInput inputCount
  let outputCount ← beginArray
  let outputs ← Decoder.replicate inputTransactionOutput outputCount
  let extra ← inputString "extra"
  pure ⟨version, unlockTime, inputs, outputs, extra⟩

/-- `serialize(TransactionPrefix&)` on input: versions above the current one are refused. -/
def inputTransactionPrefix : Decoder UInt8 TransactionPrefix := do
  let version ← inputUInt8
  if CURRENT_TRANSACTION_VERSION < version then Decoder.fail "Wrong transaction version"
  else inputPrefixBody version

/-- The signature loop of `serialize(Transaction&)` on input: each input's signatures, counted
from the input itself. -/
def inputSignaturesLoop (signaturesNotExpected : Bool) :
    List TransactionInput → Decoder UInt8 (List (List Signature))
  | [] => pure []
  | input :: inputs =>
    if signaturesNotExpected then
      if getSignaturesCount input = 0 then inputSignaturesLoop true inputs
      else Decoder.fail "Serialization error: signatures are not expected"
    else do
      let current ← Decoder.replicate inputSignature (getSignaturesCount input)
      let later ← inputSignaturesLoop false inputs
      pure (current :: later)

/-- Whether the input side resizes the (empty) signature vector: not for a single base input. -/
def resizesSignatures (inputs : List TransactionInput) : Bool :=
  !(inputs.length == 1 && (inputs.head?.map TransactionInput.isBase).getD false)

/-- The signature vector of a freshly read transaction after `tx.signatures.resize(sigSize)`. -/
def resizedSignatures (inputs : List TransactionInput) : List (List Signature) :=
  if resizesSignatures inputs then List.replicate inputs.length [] else []

/-- `serialize(Transaction&)` on input. The vector is resized to one entry per input unless the
only input is a base input; it stays empty, and no signature is read, when it has no entry. -/
def inputTransaction : Decoder UInt8 Transaction := do
  let txPrefix ← inputTransactionPrefix
  let signatures ← inputSignaturesLoop (resizedSignatures txPrefix.inputs).isEmpty txPrefix.inputs
  pure ⟨txPrefix, signatures⟩

/-- `serialize(BaseTransaction&)` on input: no version check, and an ignored `size_t` from version 2. -/
def inputBaseTransaction : Decoder UInt8 BaseTransaction := do
  let version ← inputUInt8
  let txPrefix ← inputPrefixBody version
  if version ≥ TRANSACTION_VERSION_2 then
    let _ignored ← inputUInt64
    pure ⟨txPrefix⟩
  else pure ⟨txPrefix⟩

/-- `serialize(ParentBlockSerializer&)` on input: the parent block with the template's timestamp
and nonce. The transaction count is truncated to `uint16_t` before it is checked and used. -/
def inputParentBlock : Decoder UInt8 (ParentBlock × UInt64 × UInt32) := do
  let majorVersion ← inputUInt8
  let minorVersion ← inputUInt8
  let timestamp ← inputUInt64
  let previousBlockHash ← inputHash
  let nonce ← inputUInt32Raw
  let txNum ← inputUInt64
  let transactionCount := txNum.toUInt16
  if transactionCount < 1 then Decoder.fail "Wrong transactions number"
  else do
    let baseTransactionBranch ← Decoder.replicate inputHash (treeDepth transactionCount.toNat)
    let baseTransaction ← inputBaseTransaction
    match getMergeMiningTagFromExtra baseTransaction.extra with
    | none => Decoder.fail "Can't get extra merge mining tag"
    | some mmTag =>
      if mmTag.depth.toNat > 8 * 32 then Decoder.fail "Wrong merge mining tag depth"
      else do
        let blockchainBranch ← Decoder.replicate inputHash mmTag.depth.toNat
        pure (⟨majorVersion, minorVersion, previousBlockHash, transactionCount,
          baseTransactionBranch, baseTransaction, blockchainBranch⟩, timestamp, nonce)

/-- `serialize(BlockTemplate&)` on input. A template of major version 1 has no parent block on
the wire: its `parentBlock` keeps whatever the object held before, here `unread`. -/
def inputBlockTemplate (unread : ParentBlock) : Decoder UInt8 BlockTemplate := do
  let majorVersion ← inputUInt8
  if majorVersion > BLOCK_MAJOR_VERSION_4 then Decoder.fail "Wrong major version"
  else do
    let minorVersion ← inputUInt8
    if majorVersion = BLOCK_MAJOR_VERSION_1 then do
      let timestamp ← inputUInt64
      let previousBlockHash ← inputHash
      let nonce ← inputUInt32Raw
      let baseTransaction ← inputTransaction
      let count ← beginArray
      let transactionHashes ← Decoder.replicate inputHash count
      pure ⟨⟨majorVersion, minorVersion, nonce, timestamp, previousBlockHash⟩, unread,
        baseTransaction, transactionHashes⟩
    else if majorVersion ≥ BLOCK_MAJOR_VERSION_2 then do
      let previousBlockHash ← inputHash
      let (parentBlock, timestamp, nonce) ← inputParentBlock
      let baseTransaction ← inputTransaction
      let count ← beginArray
      let transactionHashes ← Decoder.replicate inputHash count
      pure ⟨⟨majorVersion, minorVersion, nonce, timestamp, previousBlockHash⟩, parentBlock,
        baseTransaction, transactionHashes⟩
    else Decoder.fail "Wrong major version"

/-! ## `CryptoNoteTools.h` -/

/-- `toBinaryArray<T>`: the output side; an exception is the error. -/
def toBinaryArray {α : Type} (serialize : α → Except String (List UInt8)) (object : α) :
    Except String (List UInt8) :=
  serialize object

/-- `fromBinaryArray<T>`: the input side must consume the whole array. -/
def fromBinaryArray {α : Type} (deserialize : Decoder UInt8 α) (binaryArray : List UInt8) :
    Except String α :=
  match deserialize binaryArray with
  | .ok (object, rest) => if rest.isEmpty then .ok object else .error "failed to unpack type"
  | .error message => .error message

theorem fromBinaryArray_of_read {α : Type} {deserialize : Decoder UInt8 α} {binaryArray : List UInt8}
    {object : α} (read : deserialize binaryArray = .ok (object, [])) :
    fromBinaryArray deserialize binaryArray = .ok object := by
  simp [fromBinaryArray, read]

theorem read_of_fromBinaryArray {α : Type} {deserialize : Decoder UInt8 α} {binaryArray : List UInt8}
    {object : α} (success : fromBinaryArray deserialize binaryArray = .ok object) :
    deserialize binaryArray = .ok (object, []) := by
  unfold fromBinaryArray at success
  split at success
  · rename_i rest read
    by_cases consumed : rest.isEmpty
    · simp only [consumed, if_true, Except.ok.injEq] at success
      rw [read, success, List.isEmpty_iff.mp consumed]
    · simp [consumed] at success
  · cases success

end Nox.CryptoNote
