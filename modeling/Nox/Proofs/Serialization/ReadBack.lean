import Nox.Model.CryptoNoteCore.CryptoNoteSerialization

/-! # The input side reads back what the output side writes

For each serialized type, the input function applied to the output bytes followed by any rest
returns the value and the rest. Three things are needed beyond the plain composition of the
primitive round trips: every size-prefixed vector fits a `size_t` (`SizesFit`), a transaction
carries its signatures in the shape the input side rebuilds from its inputs (`SignatureShape`),
and a parent block satisfies the checks its serializer makes on output (`ParentBlock.Restorable`).
-/

namespace Nox.CryptoNote

open Nox.Common Nox.Serialization Nox.Crypto

/-! ## What a value needs to be read back -/

/-- The ring of a key input is a vector with a `size_t` size. -/
def TransactionInput.SizesFit : TransactionInput → Prop
  | .base _ => True
  | .key input => Fits input.outputIndexes

/-- Every size-prefixed vector of a prefix has a `size_t` size. -/
structure TransactionPrefix.SizesFit (txPrefix : TransactionPrefix) : Prop where
  inputs : Fits txPrefix.inputs
  outputs : Fits txPrefix.outputs
  extra : Fits txPrefix.extra
  rings : ∀ input ∈ txPrefix.inputs, input.SizesFit

/-- One signature list per input, each with the input's signature count. -/
def signaturesMatch : List TransactionInput → List (List Signature) → Bool
  | [], [] => true
  | input :: inputs, current :: later =>
    current.length == getSignaturesCount input && signaturesMatch inputs later
  | _, _ => false

/-- The signature lists `serialize(Transaction&)` rebuilds on input from the inputs: none when the
only input is a base input, one matching list per input otherwise. -/
def SignatureShape (inputs : List TransactionInput) (signatures : List (List Signature)) : Prop :=
  if resizesSignatures inputs then signaturesMatch inputs signatures = true else signatures = []

/-- The bytes of the signatures: each one written as its 64-byte pod, with no size. -/
def signatureBytes (signatures : List (List Signature)) : List UInt8 :=
  signatures.flatMap (fun current => current.flatMap outputSignature)

@[simp] theorem signatureBytes_nil : signatureBytes [] = [] := rfl

@[simp] theorem signatureBytes_cons (current : List Signature) (later : List (List Signature)) :
    signatureBytes (current :: later) = current.flatMap outputSignature ++ signatureBytes later := rfl

/-- A transaction the input side reads back. -/
structure Transaction.Restorable (tx : Transaction) : Prop where
  version : tx.version ≤ CURRENT_TRANSACTION_VERSION
  signatures : SignatureShape tx.inputs tx.signatures
  sizes : tx.toTransactionPrefix.SizesFit

/-- A parent block that passes the output checks of `serialize(ParentBlockSerializer&)`. -/
structure ParentBlock.Restorable (parentBlock : ParentBlock) : Prop where
  transactionCount : 1 ≤ parentBlock.transactionCount
  branch : parentBlock.baseTransactionBranch.length = treeDepth parentBlock.transactionCount.toNat
  mergeMiningTag : ∃ tag, getMergeMiningTagFromExtra parentBlock.baseTransaction.extra = some tag ∧
    tag.depth.toNat ≤ 8 * 32 ∧ tag.depth.toNat = parentBlock.blockchainBranch.length
  sizes : parentBlock.baseTransaction.toTransactionPrefix.SizesFit

/-- A block template the input side reads back, up to the parent block of a version 1 template. -/
structure BlockTemplate.Restorable (block : BlockTemplate) : Prop where
  majorVersion : BLOCK_MAJOR_VERSION_1 ≤ block.majorVersion ∧ block.majorVersion ≤ BLOCK_MAJOR_VERSION_4
  parentBlock : BLOCK_MAJOR_VERSION_2 ≤ block.majorVersion → block.parentBlock.Restorable
  baseTransaction : block.baseTransaction.Restorable
  transactionHashes : Fits block.transactionHashes

/-! ## Signature shapes -/

theorem signaturesMatch_length {inputs : List TransactionInput} {signatures : List (List Signature)}
    (matching : signaturesMatch inputs signatures = true) : inputs.length = signatures.length := by
  induction inputs generalizing signatures with
  | nil => cases signatures <;> simp_all [signaturesMatch]
  | cons input inputs ih =>
    cases signatures with
    | nil => simp [signaturesMatch] at matching
    | cons current later =>
      simp only [signaturesMatch, Bool.and_eq_true, beq_iff_eq] at matching
      simp [ih matching.2]

/-- Only a single base input keeps the signature vector from being resized. -/
theorem resizesSignatures_eq_false {inputs : List TransactionInput} :
    resizesSignatures inputs = false ↔ ∃ input, inputs = [.base input] := by
  constructor
  · intro keeps
    match inputs, keeps with
    | [.base input], _ => exact ⟨input, rfl⟩
    | [], keeps => simp [resizesSignatures] at keeps
    | [.key _], keeps => simp [resizesSignatures, TransactionInput.isBase] at keeps
    | _ :: _ :: _, keeps => simp [resizesSignatures] at keeps
  · rintro ⟨input, rfl⟩
    rfl

/-! ## Round trips of the components -/

variable (rest : List UInt8)

theorem inputHash_output (hash : Hash) : inputHash (outputHash hash ++ rest) = .ok (hash, rest) := by
  simp only [inputHash, outputHash]
  rw [Decoder.bind_ok (inputPod_output rest hash.data)]
  rfl

theorem inputSignature_output (signature : Signature) :
    inputSignature (outputSignature signature ++ rest) = .ok (signature, rest) := by
  simp only [inputSignature, outputSignature]
  rw [Decoder.bind_ok (inputPod_output rest signature.data)]
  rfl

theorem inputHash_readsBack : Decoder.ReadsBack outputHash inputHash (fun _ => True) :=
  fun hash _ rest => inputHash_output rest hash

theorem inputSignature_readsBack : Decoder.ReadsBack outputSignature inputSignature (fun _ => True) :=
  fun signature _ rest => inputSignature_output rest signature

theorem inputUInt32_readsBack :
    Decoder.ReadsBack (fun index : UInt32 => outputVarint index.toNat) inputUInt32 (fun _ => True) :=
  fun index _ rest => inputUInt32_output rest index

theorem inputBaseInput_output (input : BaseInput) :
    inputBaseInput (outputBaseInput input ++ rest) = .ok (input, rest) := by
  simp only [inputBaseInput, outputBaseInput]
  rw [Decoder.bind_ok (inputUInt32_output rest input.blockIndex)]
  rfl

theorem inputKeyInput_output (input : KeyInput) (fits : Fits input.outputIndexes) :
    inputKeyInput (outputKeyInput input ++ rest) = .ok (input, rest) := by
  have ring := inputUInt32_readsBack.replicate input.outputIndexes (fun _ _ => trivial)
    (input.keyImage.data.toList ++ rest)
  simp only [inputKeyInput, outputKeyInput, List.append_assoc]
  rw [Decoder.bind_ok (inputUInt64_output _ _), Decoder.bind_ok (beginArray_output _ fits),
    Decoder.bind_ok ring, Decoder.bind_ok (inputPod_output _ _)]
  rfl

theorem inputTransactionInput_output (input : TransactionInput) (fits : input.SizesFit) :
    inputTransactionInput (outputTransactionInput input ++ rest) = .ok (input, rest) := by
  cases input with
  | base input =>
    simp only [inputTransactionInput, outputTransactionInput, List.cons_append]
    rw [Decoder.bind_ok (readByte_cons _ _), if_pos rfl,
      Decoder.bind_ok (inputBaseInput_output rest input)]
    rfl
  | key input =>
    simp only [inputTransactionInput, outputTransactionInput, List.cons_append]
    rw [Decoder.bind_ok (readByte_cons _ _), if_neg (by decide), if_pos rfl,
      Decoder.bind_ok (inputKeyInput_output rest input fits)]
    rfl

theorem inputTransactionOutputTarget_output (target : TransactionOutputTarget) :
    inputTransactionOutputTarget (outputTransactionOutputTarget target ++ rest) = .ok (target, rest) := by
  obtain ⟨⟨⟨key⟩⟩⟩ := target
  simp only [inputTransactionOutputTarget, outputTransactionOutputTarget, List.cons_append]
  rw [Decoder.bind_ok (readByte_cons _ _), if_pos rfl, Decoder.bind_ok (inputPod_output rest key)]
  rfl

theorem inputTransactionOutput_output (output : TransactionOutput) :
    inputTransactionOutput (outputTransactionOutput output ++ rest) = .ok (output, rest) := by
  simp only [inputTransactionOutput, outputTransactionOutput, List.append_assoc]
  rw [Decoder.bind_ok (inputUInt64_output _ output.amount),
    Decoder.bind_ok (inputTransactionOutputTarget_output rest output.target)]
  rfl

theorem inputTransactionInput_readsBack :
    Decoder.ReadsBack outputTransactionInput inputTransactionInput TransactionInput.SizesFit :=
  fun input fits rest => inputTransactionInput_output rest input fits

theorem inputTransactionOutput_readsBack :
    Decoder.ReadsBack outputTransactionOutput inputTransactionOutput (fun _ => True) :=
  fun output _ rest => inputTransactionOutput_output rest output

theorem inputPrefixBody_output (txPrefix : TransactionPrefix) (fits : txPrefix.SizesFit) :
    inputPrefixBody txPrefix.version (outputPrefixBody txPrefix ++ rest) = .ok (txPrefix, rest) := by
  have extra := inputString_output rest fits.extra (.inr (show "extra" ≠ "mm_tag" by decide))
  have outputs := inputTransactionOutput_readsBack.replicate txPrefix.outputs (fun _ _ => trivial)
    (outputString txPrefix.extra ++ rest)
  have inputs := inputTransactionInput_readsBack.replicate txPrefix.inputs fits.rings
    (outputVarint txPrefix.outputs.length ++
      (txPrefix.outputs.flatMap outputTransactionOutput ++ (outputString txPrefix.extra ++ rest)))
  simp only [inputPrefixBody, outputPrefixBody, List.append_assoc]
  rw [Decoder.bind_ok (inputUInt64_output _ _), Decoder.bind_ok (beginArray_output _ fits.inputs),
    Decoder.bind_ok inputs, Decoder.bind_ok (beginArray_output _ fits.outputs),
    Decoder.bind_ok outputs, Decoder.bind_ok extra]
  rfl

theorem inputTransactionPrefix_output (txPrefix : TransactionPrefix)
    (version : txPrefix.version ≤ CURRENT_TRANSACTION_VERSION) (fits : txPrefix.SizesFit) :
    inputTransactionPrefix (outputTransactionPrefix txPrefix ++ rest) = .ok (txPrefix, rest) := by
  simp only [inputTransactionPrefix, outputTransactionPrefix, List.append_assoc]
  have accepted : ¬ CURRENT_TRANSACTION_VERSION < txPrefix.version := UInt8.not_lt.mpr version
  rw [Decoder.bind_ok (inputUInt8_output _ _)]
  simp only [accepted, if_false]
  exact inputPrefixBody_output rest txPrefix fits

/-! ## Signatures -/

theorem outputSignaturesLoop_notExpected {inputs : List TransactionInput}
    (unsigned : ∀ input ∈ inputs, getSignaturesCount input = 0) (signatures : List (List Signature)) :
    outputSignaturesLoop true inputs signatures = .ok [] := by
  induction inputs with
  | nil => rfl
  | cons input inputs ih =>
    have head := unsigned input List.mem_cons_self
    simp only [outputSignaturesLoop, if_true, head]
    exact ih (fun other member => unsigned other (List.mem_cons_of_mem _ member))

theorem outputSignaturesLoop_expected {inputs : List TransactionInput}
    {signatures : List (List Signature)} (matching : signaturesMatch inputs signatures = true) :
    outputSignaturesLoop false inputs signatures = .ok (signatureBytes signatures) := by
  induction inputs generalizing signatures with
  | nil => cases signatures <;> simp_all [signaturesMatch, outputSignaturesLoop]
  | cons input inputs ih =>
    cases signatures with
    | nil => simp [signaturesMatch] at matching
    | cons current later =>
      simp only [signaturesMatch, Bool.and_eq_true, beq_iff_eq] at matching
      simp only [outputSignaturesLoop, Bool.false_eq_true, if_false, matching.1, ne_eq,
        not_true_eq_false, ih matching.2]
      rfl

theorem inputSignaturesLoop_notExpected {inputs : List TransactionInput}
    (unsigned : ∀ input ∈ inputs, getSignaturesCount input = 0) (input : List UInt8) :
    inputSignaturesLoop true inputs input = .ok ([], input) := by
  induction inputs with
  | nil => rfl
  | cons head inputs ih =>
    have headUnsigned := unsigned head List.mem_cons_self
    simp only [inputSignaturesLoop, if_true, headUnsigned]
    exact ih (fun other member => unsigned other (List.mem_cons_of_mem _ member))

theorem inputSignaturesLoop_output {inputs : List TransactionInput}
    {signatures : List (List Signature)} (matching : signaturesMatch inputs signatures = true) :
    inputSignaturesLoop false inputs (signatureBytes signatures ++ rest) = .ok (signatures, rest) := by
  induction inputs generalizing signatures with
  | nil => cases signatures <;> simp_all [signaturesMatch, inputSignaturesLoop]
  | cons input inputs ih =>
    cases signatures with
    | nil => simp [signaturesMatch] at matching
    | cons current later =>
      simp only [signaturesMatch, Bool.and_eq_true, beq_iff_eq] at matching
      have ring := inputSignature_readsBack.replicate current (fun _ _ => trivial)
        (signatureBytes later ++ rest)
      rw [matching.1] at ring
      simp only [inputSignaturesLoop, Bool.false_eq_true, if_false, signatureBytes_cons,
        List.append_assoc]
      rw [Decoder.bind_ok ring, Decoder.bind_ok (ih matching.2)]
      rfl

/-- Both sides run the signature loop with the same `signaturesNotExpected`. -/
theorem resizedSignatures_isEmpty {inputs : List TransactionInput}
    {signatures : List (List Signature)} (shape : SignatureShape inputs signatures) :
    (resizedSignatures inputs).isEmpty = signatures.isEmpty := by
  unfold SignatureShape at shape
  unfold resizedSignatures
  by_cases resizes : resizesSignatures inputs = true
  · rw [if_pos resizes] at shape ⊢
    have lengths := signaturesMatch_length shape
    cases signatures <;> cases inputs <;> simp_all
  · rw [if_neg resizes] at shape ⊢
    simp [shape]

theorem SignatureShape.unsigned_of_nil {inputs : List TransactionInput}
    (shape : SignatureShape inputs []) : ∀ input ∈ inputs, getSignaturesCount input = 0 := by
  unfold SignatureShape at shape
  by_cases resizes : resizesSignatures inputs = true
  · rw [if_pos resizes] at shape
    have empty : inputs = [] := List.length_eq_zero_iff.mp (signaturesMatch_length shape)
    simp [empty]
  · obtain ⟨base, single⟩ := resizesSignatures_eq_false.mp (by simpa using resizes)
    simp [single, getSignaturesCount]

theorem SignatureShape.matching_of_cons {inputs : List TransactionInput} {current : List Signature}
    {later : List (List Signature)} (shape : SignatureShape inputs (current :: later)) :
    signaturesMatch inputs (current :: later) = true := by
  unfold SignatureShape at shape
  split at shape
  · exact shape
  · cases shape

/-- Under the shape, the output side writes the signatures and nothing else. -/
theorem outputTransaction_shape (tx : Transaction) (shape : SignatureShape tx.inputs tx.signatures) :
    outputTransaction tx =
      .ok (outputTransactionPrefix tx.toTransactionPrefix ++ signatureBytes tx.signatures) := by
  obtain ⟨txPrefix, signatures⟩ := tx
  cases signatures with
  | nil =>
    simp only [outputTransaction, List.isEmpty_nil, Bool.not_true, Bool.false_and, Bool.false_eq_true,
      if_false, outputSignaturesLoop_notExpected shape.unsigned_of_nil, signatureBytes_nil]
  | cons current later =>
    have matching := shape.matching_of_cons
    have lengths := signaturesMatch_length matching
    simp only [outputTransaction, List.isEmpty_cons, Bool.not_false, Bool.true_and, lengths,
      bne_self_eq_false, Bool.false_eq_true, if_false, outputSignaturesLoop_expected matching]

/-- Under the shape, the input side reads the signatures back with the flag its resize gives. -/
theorem inputSignaturesLoop_shape {inputs : List TransactionInput}
    {signatures : List (List Signature)} (shape : SignatureShape inputs signatures) :
    inputSignaturesLoop (resizedSignatures inputs).isEmpty inputs (signatureBytes signatures ++ rest) =
      .ok (signatures, rest) := by
  rw [resizedSignatures_isEmpty shape]
  cases signatures with
  | nil => exact inputSignaturesLoop_notExpected shape.unsigned_of_nil _
  | cons current later => exact inputSignaturesLoop_output rest shape.matching_of_cons

/-! ## Transactions -/

theorem inputTransaction_output (tx : Transaction) (restorable : tx.Restorable) :
    inputTransaction (outputTransactionPrefix tx.toTransactionPrefix ++ signatureBytes tx.signatures ++
      rest) = .ok (tx, rest) := by
  simp only [inputTransaction, List.append_assoc]
  rw [Decoder.bind_ok (inputTransactionPrefix_output _ _ restorable.version restorable.sizes),
    Decoder.bind_ok (inputSignaturesLoop_shape rest restorable.signatures)]
  rfl

/-- `fromBinaryArray<Transaction>(toBinaryArray(tx))` returns every restorable transaction. -/
theorem transaction_round_trip (tx : Transaction) (restorable : tx.Restorable) :
    ∃ bytes, toBinaryArray outputTransaction tx = .ok bytes ∧
      fromBinaryArray inputTransaction bytes = .ok tx := by
  refine ⟨_, outputTransaction_shape tx restorable.signatures, fromBinaryArray_of_read ?_⟩
  simpa using inputTransaction_output [] tx restorable

/-- A coinbase transaction as the node builds it, with no signature entry, is restorable. -/
example : Transaction.Restorable
    { version := 1, unlockTime := 0, inputs := [.base ⟨0⟩], outputs := [], extra := [], signatures := [] } := by
  refine ⟨by decide, by simp [SignatureShape, resizesSignatures, TransactionInput.isBase], ?_⟩
  refine ⟨by simp [Fits], by simp [Fits], by simp [Fits], ?_⟩
  simp [TransactionInput.SizesFit]

theorem inputBaseTransaction_output (tx : BaseTransaction) (fits : tx.toTransactionPrefix.SizesFit) :
    inputBaseTransaction (outputBaseTransaction tx ++ rest) = .ok (tx, rest) := by
  simp only [inputBaseTransaction, outputBaseTransaction, outputTransactionPrefix, List.append_assoc]
  rw [Decoder.bind_ok (inputUInt8_output _ _), Decoder.bind_ok (inputPrefixBody_output _ _ fits)]
  by_cases ignored : tx.version ≥ TRANSACTION_VERSION_2
  · have zero : inputUInt64 (outputVarint 0 ++ rest) = .ok (0, rest) := inputUInt64_output rest 0
    simp only [ignored, if_true]
    rw [Decoder.bind_ok zero]
    rfl
  · simp only [ignored, if_false, List.nil_append]
    rfl

/-! ## Parent blocks and block templates -/

/-- The count is written from its `uint16_t` and read as a `uint64_t`. -/
theorem inputUInt64_transactionCount (count : UInt16) :
    inputUInt64 (outputVarint count.toNat ++ rest) = .ok (count.toUInt64, rest) := by
  have read := inputUInt64_output rest count.toUInt64
  rwa [UInt16.toNat_toUInt64] at read

theorem outputParentBlock_restorable {parentBlock : ParentBlock} (timestamp : UInt64) (nonce : UInt32)
    (restorable : parentBlock.Restorable) :
    outputParentBlock parentBlock timestamp nonce = .ok (outputVarint parentBlock.majorVersion.toNat ++
      outputVarint parentBlock.minorVersion.toNat ++ outputVarint timestamp.toNat ++
      outputHash parentBlock.previousBlockHash ++ uint32Bytes nonce ++
      outputVarint parentBlock.transactionCount.toNat ++
      parentBlock.baseTransactionBranch.flatMap outputHash ++
      outputBaseTransaction parentBlock.baseTransaction ++
      parentBlock.blockchainBranch.flatMap outputHash) := by
  obtain ⟨tag, found, bounded, depth⟩ := restorable.mergeMiningTag
  have counted : ¬ parentBlock.transactionCount < 1 := UInt16.not_lt.mpr restorable.transactionCount
  have within : ¬ 8 * 32 < parentBlock.blockchainBranch.length := by omega
  simp only [outputParentBlock, counted, if_false, restorable.branch, ne_eq, not_true_eq_false, found,
    gt_iff_lt, depth, within]

theorem inputParentBlock_output {parentBlock : ParentBlock} (timestamp : UInt64) (nonce : UInt32)
    (restorable : parentBlock.Restorable) :
    inputParentBlock (outputVarint parentBlock.majorVersion.toNat ++
      outputVarint parentBlock.minorVersion.toNat ++ outputVarint timestamp.toNat ++
      outputHash parentBlock.previousBlockHash ++ uint32Bytes nonce ++
      outputVarint parentBlock.transactionCount.toNat ++
      parentBlock.baseTransactionBranch.flatMap outputHash ++
      outputBaseTransaction parentBlock.baseTransaction ++
      parentBlock.blockchainBranch.flatMap outputHash ++ rest) =
      .ok ((parentBlock, timestamp, nonce), rest) := by
  obtain ⟨tag, found, bounded, depth⟩ := restorable.mergeMiningTag
  have counted : ¬ parentBlock.transactionCount < 1 := UInt16.not_lt.mpr restorable.transactionCount
  have chain := inputHash_readsBack.replicate parentBlock.blockchainBranch (fun _ _ => trivial) rest
  have base := inputBaseTransaction_output (parentBlock.blockchainBranch.flatMap outputHash ++ rest)
    parentBlock.baseTransaction restorable.sizes
  have branch := inputHash_readsBack.replicate parentBlock.baseTransactionBranch (fun _ _ => trivial)
    (outputBaseTransaction parentBlock.baseTransaction ++
      (parentBlock.blockchainBranch.flatMap outputHash ++ rest))
  rw [restorable.branch] at branch
  rw [← depth] at chain
  simp only [inputParentBlock, List.append_assoc]
  rw [Decoder.bind_ok (inputUInt8_output _ _), Decoder.bind_ok (inputUInt8_output _ _),
    Decoder.bind_ok (inputUInt64_output _ _), Decoder.bind_ok (inputHash_output _ _),
    Decoder.bind_ok (inputUInt32Raw_output _ _), Decoder.bind_ok (inputUInt64_transactionCount _ _)]
  simp only [UInt16.toUInt16_toUInt64, counted, if_false]
  rw [Decoder.bind_ok branch, Decoder.bind_ok base]
  simp only [found, gt_iff_lt, not_lt.mpr bounded, if_false]
  rw [Decoder.bind_ok chain]
  rfl

theorem two_le_majorVersion {version : UInt8} (atLeastOne : BLOCK_MAJOR_VERSION_1 ≤ version)
    (other : version ≠ BLOCK_MAJOR_VERSION_1) : BLOCK_MAJOR_VERSION_2 ≤ version := by
  have one : BLOCK_MAJOR_VERSION_1.toNat = 1 := rfl
  have two : BLOCK_MAJOR_VERSION_2.toNat = 2 := rfl
  rw [UInt8.le_iff_toNat_le, one] at atLeastOne
  rw [ne_eq, ← UInt8.toNat_inj, one] at other
  rw [UInt8.le_iff_toNat_le, two]
  omega

/-- The bytes of a version 1 template: the header carries timestamp and nonce, and no parent block
is written. -/
theorem outputBlockTemplate_version1 {block : BlockTemplate} (restorable : block.Restorable)
    (version1 : block.majorVersion = BLOCK_MAJOR_VERSION_1) :
    outputBlockTemplate block = .ok (outputVarint block.majorVersion.toNat ++
      outputVarint block.minorVersion.toNat ++ outputVarint block.timestamp.toNat ++
      outputHash block.previousBlockHash ++ uint32Bytes block.nonce ++
      (outputTransactionPrefix block.baseTransaction.toTransactionPrefix ++
        signatureBytes block.baseTransaction.signatures) ++
      (outputVarint block.transactionHashes.length ++ block.transactionHashes.flatMap outputHash)) := by
  have noParent : ¬ BLOCK_MAJOR_VERSION_2 ≤ block.majorVersion := by
    rw [version1]
    decide
  have known : ¬ BLOCK_MAJOR_VERSION_4 < block.majorVersion := UInt8.not_lt.mpr restorable.majorVersion.2
  simp only [outputBlockTemplate, outputBlockHeader, gt_iff_lt, known, if_false, eq_true version1,
    if_true, ge_iff_le, noParent, outputTransaction_shape _ restorable.baseTransaction.signatures,
    List.append_nil]

/-- The bytes of a merge-mined template: the parent block carries timestamp and nonce. -/
theorem outputBlockTemplate_parent {block : BlockTemplate} (restorable : block.Restorable)
    (merged : BLOCK_MAJOR_VERSION_2 ≤ block.majorVersion) :
    outputBlockTemplate block = .ok (outputVarint block.majorVersion.toNat ++
      outputVarint block.minorVersion.toNat ++ outputHash block.previousBlockHash ++
      (outputVarint block.parentBlock.majorVersion.toNat ++
        outputVarint block.parentBlock.minorVersion.toNat ++ outputVarint block.timestamp.toNat ++
        outputHash block.parentBlock.previousBlockHash ++ uint32Bytes block.nonce ++
        outputVarint block.parentBlock.transactionCount.toNat ++
        block.parentBlock.baseTransactionBranch.flatMap outputHash ++
        outputBaseTransaction block.parentBlock.baseTransaction ++
        block.parentBlock.blockchainBranch.flatMap outputHash) ++
      (outputTransactionPrefix block.baseTransaction.toTransactionPrefix ++
        signatureBytes block.baseTransaction.signatures) ++
      (outputVarint block.transactionHashes.length ++ block.transactionHashes.flatMap outputHash)) := by
  have other : block.majorVersion ≠ BLOCK_MAJOR_VERSION_1 := by
    intro version1
    rw [version1] at merged
    exact absurd merged (by decide)
  have known : ¬ BLOCK_MAJOR_VERSION_4 < block.majorVersion := UInt8.not_lt.mpr restorable.majorVersion.2
  simp only [outputBlockTemplate, outputBlockHeader, gt_iff_lt, known, if_false, other, merged,
    if_true, outputParentBlock_restorable _ _ (restorable.parentBlock merged),
    outputTransaction_shape _ restorable.baseTransaction.signatures]

theorem blockTemplate_readsBack_version1 {block : BlockTemplate} (restorable : block.Restorable)
    (version1 : block.majorVersion = BLOCK_MAJOR_VERSION_1) :
    ∃ bytes, outputBlockTemplate block = .ok bytes ∧ ∀ unread rest,
      inputBlockTemplate unread (bytes ++ rest) = .ok ({ block with parentBlock := unread }, rest) := by
  have known : ¬ BLOCK_MAJOR_VERSION_4 < block.majorVersion := UInt8.not_lt.mpr restorable.majorVersion.2
  refine ⟨_, outputBlockTemplate_version1 restorable version1, fun unread rest => ?_⟩
  have hashes := inputHash_readsBack.replicate block.transactionHashes (fun _ _ => trivial) rest
  have minerTx := inputTransaction_output
    (outputVarint block.transactionHashes.length ++ (block.transactionHashes.flatMap outputHash ++ rest))
    block.baseTransaction restorable.baseTransaction
  simp only [List.append_assoc] at minerTx
  simp only [inputBlockTemplate, List.append_assoc]
  rw [Decoder.bind_ok (inputUInt8_output _ _), if_neg known, Decoder.bind_ok (inputUInt8_output _ _),
    if_pos version1, Decoder.bind_ok (inputUInt64_output _ _), Decoder.bind_ok (inputHash_output _ _),
    Decoder.bind_ok (inputUInt32Raw_output _ _), Decoder.bind_ok minerTx,
    Decoder.bind_ok (beginArray_output _ restorable.transactionHashes), Decoder.bind_ok hashes]
  rfl

theorem blockTemplate_readsBack_parent {block : BlockTemplate} (restorable : block.Restorable)
    (other : block.majorVersion ≠ BLOCK_MAJOR_VERSION_1) :
    ∃ bytes, outputBlockTemplate block = .ok bytes ∧ ∀ unread rest,
      inputBlockTemplate unread (bytes ++ rest) = .ok (block, rest) := by
  have merged := two_le_majorVersion restorable.majorVersion.1 other
  have known : ¬ BLOCK_MAJOR_VERSION_4 < block.majorVersion := UInt8.not_lt.mpr restorable.majorVersion.2
  refine ⟨_, outputBlockTemplate_parent restorable merged, fun unread rest => ?_⟩
  have hashes := inputHash_readsBack.replicate block.transactionHashes (fun _ _ => trivial) rest
  have minerTx := inputTransaction_output
    (outputVarint block.transactionHashes.length ++ (block.transactionHashes.flatMap outputHash ++ rest))
    block.baseTransaction restorable.baseTransaction
  have parentRead := inputParentBlock_output (outputTransactionPrefix block.baseTransaction.toTransactionPrefix ++
    (signatureBytes block.baseTransaction.signatures ++ (outputVarint block.transactionHashes.length ++
      (block.transactionHashes.flatMap outputHash ++ rest)))) block.timestamp block.nonce
    (restorable.parentBlock merged)
  simp only [List.append_assoc] at minerTx parentRead
  simp only [inputBlockTemplate, List.append_assoc]
  rw [Decoder.bind_ok (inputUInt8_output _ _), if_neg known, Decoder.bind_ok (inputUInt8_output _ _),
    if_neg other, if_pos merged, Decoder.bind_ok (inputHash_output _ _), Decoder.bind_ok parentRead]
  rw [Decoder.bind_ok minerTx, Decoder.bind_ok (beginArray_output _ restorable.transactionHashes),
    Decoder.bind_ok hashes]
  rfl

/-- `fromBinaryArray<BlockTemplate>(toBinaryArray(block))` returns every restorable template, except
that a version 1 template keeps the parent block the reading object already held. -/
theorem blockTemplate_round_trip (unread : ParentBlock) (block : BlockTemplate) (restorable : block.Restorable) :
    ∃ bytes, toBinaryArray outputBlockTemplate block = .ok bytes ∧
      fromBinaryArray (inputBlockTemplate unread) bytes =
        .ok (if block.majorVersion = BLOCK_MAJOR_VERSION_1 then { block with parentBlock := unread } else block) := by
  by_cases version1 : block.majorVersion = BLOCK_MAJOR_VERSION_1
  · obtain ⟨bytes, written, readBack⟩ := blockTemplate_readsBack_version1 restorable version1
    refine ⟨bytes, written, ?_⟩
    rw [if_pos version1]
    exact fromBinaryArray_of_read (by simpa using readBack unread [])
  · obtain ⟨bytes, written, readBack⟩ := blockTemplate_readsBack_parent restorable version1
    refine ⟨bytes, written, ?_⟩
    rw [if_neg version1]
    exact fromBinaryArray_of_read (by simpa using readBack unread [])

end Nox.CryptoNote
