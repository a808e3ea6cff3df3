import Nox.Proofs.Serialization.ReadBack

/-! # What the input side accepts

Every successful read of the input side consumed exactly the output side's bytes for the value it
returns, and the value it returns is one the input side reads back. For transactions this makes
the format canonical. For block templates the parent block is the exception: its transaction count
is read as a `uint64_t` and kept modulo `2 ^ 16`, and a version 2 coinbase carries an ignored
`size_t`, so its bytes are determined only up to those two fields; what is shown for it is that the
decoded parent block is one the output side writes and the input side reads back.
-/

namespace Nox.CryptoNote

open Nox.Common Nox.Serialization Nox.Crypto

variable {input rest : List UInt8}

/-! ## Components -/

theorem inputHash_canonical {hash : Hash} (success : inputHash input = .ok (hash, rest)) :
    input = outputHash hash ++ rest := by
  obtain ⟨data, middle, podRead, done⟩ := Decoder.bind_eq_ok success
  cases done
  exact inputPod_canonical podRead

theorem inputSignature_canonical {signature : Signature}
    (success : inputSignature input = .ok (signature, rest)) : input = outputSignature signature ++ rest := by
  obtain ⟨data, middle, podRead, done⟩ := Decoder.bind_eq_ok success
  cases done
  exact inputPod_canonical podRead

theorem inputHash_isCanonical : Decoder.Canonical outputHash inputHash (fun _ => True) :=
  fun _ _ _ success => ⟨inputHash_canonical success, trivial⟩

theorem inputSignature_isCanonical : Decoder.Canonical outputSignature inputSignature (fun _ => True) :=
  fun _ _ _ success => ⟨inputSignature_canonical success, trivial⟩

theorem inputUInt32_isCanonical :
    Decoder.Canonical (fun index : UInt32 => outputVarint index.toNat) inputUInt32 (fun _ => True) :=
  fun _ _ _ success => ⟨inputUInt32_canonical success, trivial⟩

theorem inputKeyInput_canonical {keyInput : KeyInput} (success : inputKeyInput input = .ok (keyInput, rest)) :
    input = outputKeyInput keyInput ++ rest ∧ Fits keyInput.outputIndexes := by
  obtain ⟨amount, afterAmount, amountRead, next⟩ := Decoder.bind_eq_ok success
  obtain ⟨size, afterSize, sizeRead, next⟩ := Decoder.bind_eq_ok next
  obtain ⟨indexes, afterIndexes, indexesRead, next⟩ := Decoder.bind_eq_ok next
  obtain ⟨keyImage, afterKeyImage, keyImageRead, done⟩ := Decoder.bind_eq_ok next
  cases done
  obtain ⟨sized, fits⟩ := beginArray_canonical sizeRead
  obtain ⟨ring, length, -⟩ := inputUInt32_isCanonical.replicate size _ _ _ indexesRead
  have fitsRing : Fits indexes := by
    rw [Fits, length]
    exact fits
  refine ⟨?_, fitsRing⟩
  rw [inputUInt64_canonical amountRead, sized, ring, inputPod_canonical keyImageRead, ← length]
  simp [outputKeyInput]

theorem inputTransactionInput_canonical {transactionInput : TransactionInput}
    (success : inputTransactionInput input = .ok (transactionInput, rest)) :
    input = outputTransactionInput transactionInput ++ rest ∧ transactionInput.SizesFit := by
  obtain ⟨tag, afterTag, tagRead, next⟩ := Decoder.bind_eq_ok success
  rw [readByte_canonical tagRead]
  -- the tag selects the alternative; any other tag fails
  by_cases base : tag = 0xff
  · rw [if_pos base] at next
    obtain ⟨baseInput, after, baseRead, done⟩ := Decoder.bind_eq_ok next
    cases done
    obtain ⟨blockIndex, middle, indexRead, done⟩ := Decoder.bind_eq_ok baseRead
    cases done
    refine ⟨?_, trivial⟩
    rw [base, inputUInt32_canonical indexRead]
    rfl
  · rw [if_neg base] at next
    by_cases key : tag = 0x02
    · rw [if_pos key] at next
      obtain ⟨keyInput, after, keyRead, done⟩ := Decoder.bind_eq_ok next
      cases done
      obtain ⟨written, fits⟩ := inputKeyInput_canonical keyRead
      refine ⟨?_, fits⟩
      rw [key, written]
      rfl
    · rw [if_neg key] at next
      cases next

theorem inputTransactionOutput_canonical {output : TransactionOutput}
    (success : inputTransactionOutput input = .ok (output, rest)) :
    input = outputTransactionOutput output ++ rest := by
  obtain ⟨amount, afterAmount, amountRead, next⟩ := Decoder.bind_eq_ok success
  obtain ⟨target, afterTarget, targetRead, done⟩ := Decoder.bind_eq_ok next
  cases done
  obtain ⟨tag, afterTag, tagRead, next⟩ := Decoder.bind_eq_ok targetRead
  by_cases key : tag = 0x02
  · rw [if_pos key] at next
    obtain ⟨publicKey, after, keyRead, done⟩ := Decoder.bind_eq_ok next
    cases done
    rw [inputUInt64_canonical amountRead, readByte_canonical tagRead, key, inputPod_canonical keyRead]
    simp [outputTransactionOutput, outputTransactionOutputTarget]
  · rw [if_neg key] at next
    cases next

theorem inputTransactionInput_isCanonical :
    Decoder.Canonical outputTransactionInput inputTransactionInput TransactionInput.SizesFit :=
  fun _ _ _ success => inputTransactionInput_canonical success

theorem inputTransactionOutput_isCanonical :
    Decoder.Canonical outputTransactionOutput inputTransactionOutput (fun _ => True) :=
  fun _ _ _ success => ⟨inputTransactionOutput_canonical success, trivial⟩

theorem inputPrefixBody_canonical {version : UInt8} {txPrefix : TransactionPrefix}
    (success : inputPrefixBody version input = .ok (txPrefix, rest)) :
    txPrefix.version = version ∧ txPrefix.SizesFit ∧ input = outputPrefixBody txPrefix ++ rest := by
  obtain ⟨unlockTime, afterTime, timeRead, next⟩ := Decoder.bind_eq_ok success
  obtain ⟨inputCount, afterCount, inputCountRead, next⟩ := Decoder.bind_eq_ok next
  obtain ⟨inputs, afterInputs, inputsRead, next⟩ := Decoder.bind_eq_ok next
  obtain ⟨outputCount, afterOutputCount, outputCountRead, next⟩ := Decoder.bind_eq_ok next
  obtain ⟨outputs, afterOutputs, outputsRead, next⟩ := Decoder.bind_eq_ok next
  obtain ⟨extra, afterExtra, extraRead, done⟩ := Decoder.bind_eq_ok next
  cases done
  obtain ⟨inputsSized, inputsFit⟩ := beginArray_canonical inputCountRead
  obtain ⟨outputsSized, outputsFit⟩ := beginArray_canonical outputCountRead
  obtain ⟨inputsWritten, inputsLength, rings⟩ :=
    inputTransactionInput_isCanonical.replicate inputCount _ _ _ inputsRead
  obtain ⟨outputsWritten, outputsLength, -⟩ :=
    inputTransactionOutput_isCanonical.replicate outputCount _ _ _ outputsRead
  obtain ⟨extraWritten, extraFits⟩ := inputString_canonical (by decide) extraRead
  refine ⟨rfl, ⟨?_, ?_, extraFits, rings⟩, ?_⟩
  · rw [Fits, inputsLength]
    exact inputsFit
  · rw [Fits, outputsLength]
    exact outputsFit
  · rw [inputUInt64_canonical timeRead, inputsSized, inputsWritten, outputsSized, outputsWritten,
      extraWritten, ← inputsLength, ← outputsLength]
    simp [outputPrefixBody]

theorem inputTransactionPrefix_canonical {txPrefix : TransactionPrefix}
    (success : inputTransactionPrefix input = .ok (txPrefix, rest)) :
    txPrefix.version ≤ CURRENT_TRANSACTION_VERSION ∧ txPrefix.SizesFit ∧
      input = outputTransactionPrefix txPrefix ++ rest := by
  obtain ⟨version, middle, versionRead, next⟩ := Decoder.bind_eq_ok success
  by_cases newer : CURRENT_TRANSACTION_VERSION < version
  · simp only [newer, if_true, Decoder.fail_apply] at next
    cases next
  · simp only [newer, if_false] at next
    obtain ⟨sameVersion, fits, written⟩ := inputPrefixBody_canonical next
    refine ⟨?_, fits, ?_⟩
    · rw [sameVersion]
      exact UInt8.not_lt.mp newer
    · rw [inputUInt8_canonical versionRead, written, outputTransactionPrefix, sameVersion,
        List.append_assoc]

/-! ## Signatures -/

theorem inputSignaturesLoop_notExpected_canonical {inputs : List TransactionInput}
    {signatures : List (List Signature)} (success : inputSignaturesLoop true inputs input = .ok (signatures, rest)) :
    signatures = [] ∧ rest = input ∧ ∀ transactionInput ∈ inputs, getSignaturesCount transactionInput = 0 := by
  induction inputs with
  | nil =>
    cases success
    exact ⟨rfl, rfl, fun _ member => by cases member⟩
  | cons head inputs ih =>
    by_cases unsigned : getSignaturesCount head = 0
    · simp only [inputSignaturesLoop, if_true, unsigned] at success
      obtain ⟨empty, same, later⟩ := ih success
      refine ⟨empty, same, ?_⟩
      intro transactionInput member
      rcases List.mem_cons.mp member with rfl | other
      · exact unsigned
      · exact later transactionInput other
    · simp only [inputSignaturesLoop, if_true, unsigned, if_false, Decoder.fail_apply] at success
      cases success

theorem inputSignaturesLoop_expected_canonical {inputs : List TransactionInput}
    {signatures : List (List Signature)} (success : inputSignaturesLoop false inputs input = .ok (signatures, rest)) :
    signaturesMatch inputs signatures = true ∧ input = signatureBytes signatures ++ rest := by
  induction inputs generalizing input signatures with
  | nil =>
    cases success
    exact ⟨rfl, rfl⟩
  | cons head inputs ih =>
    simp only [inputSignaturesLoop, Bool.false_eq_true, if_false] at success
    obtain ⟨current, middle, currentRead, next⟩ := Decoder.bind_eq_ok success
    obtain ⟨later, after, laterRead, done⟩ := Decoder.bind_eq_ok next
    cases done
    obtain ⟨currentWritten, currentLength, -⟩ :=
      inputSignature_isCanonical.replicate _ _ _ _ currentRead
    obtain ⟨laterMatch, laterWritten⟩ := ih laterRead
    refine ⟨?_, ?_⟩
    · simp [signaturesMatch, currentLength, laterMatch]
    · rw [currentWritten, laterWritten, signatureBytes_cons, List.append_assoc]

/-- The signatures the input side reads have the shape it rebuilds. -/
theorem inputSignaturesLoop_canonical {inputs : List TransactionInput} {signatures : List (List Signature)}
    (success : inputSignaturesLoop (resizedSignatures inputs).isEmpty inputs input = .ok (signatures, rest)) :
    SignatureShape inputs signatures ∧ input = signatureBytes signatures ++ rest := by
  unfold SignatureShape
  unfold resizedSignatures at success
  by_cases resizes : resizesSignatures inputs = true
  · rw [if_pos resizes]
    rw [if_pos resizes] at success
    cases inputs with
    | nil =>
      obtain ⟨empty, same, -⟩ := inputSignaturesLoop_notExpected_canonical success
      subst empty
      exact ⟨rfl, same.symm⟩
    | cons head inputs =>
      simp only [List.length_cons, List.replicate_succ, List.isEmpty_cons] at success
      exact inputSignaturesLoop_expected_canonical success
  · rw [if_neg resizes]
    rw [if_neg resizes] at success
    obtain ⟨empty, same, -⟩ := inputSignaturesLoop_notExpected_canonical success
    subst empty
    exact ⟨rfl, same.symm⟩

/-! ## Transactions -/

theorem inputTransaction_canonical {tx : Transaction} (success : inputTransaction input = .ok (tx, rest)) :
    tx.Restorable ∧
      input = outputTransactionPrefix tx.toTransactionPrefix ++ signatureBytes tx.signatures ++ rest := by
  obtain ⟨txPrefix, middle, prefixRead, next⟩ := Decoder.bind_eq_ok success
  obtain ⟨signatures, after, signaturesRead, done⟩ := Decoder.bind_eq_ok next
  cases done
  obtain ⟨version, sizes, prefixWritten⟩ := inputTransactionPrefix_canonical prefixRead
  obtain ⟨shape, signaturesWritten⟩ := inputSignaturesLoop_canonical signaturesRead
  refine ⟨⟨version, shape, sizes⟩, ?_⟩
  rw [prefixWritten, signaturesWritten, List.append_assoc]

/-- Every byte string `fromBinaryArray<Transaction>` accepts is what `toBinaryArray` writes for the
transaction it returns. -/
theorem transaction_canonical {binaryArray : List UInt8} {tx : Transaction}
    (success : fromBinaryArray inputTransaction binaryArray = .ok tx) :
    toBinaryArray outputTransaction tx = .ok binaryArray := by
  obtain ⟨restorable, written⟩ := inputTransaction_canonical (read_of_fromBinaryArray success)
  rw [toBinaryArray, outputTransaction_shape tx restorable.signatures, written, List.append_nil]

/-! ## Parent blocks and block templates -/

theorem inputBaseTransaction_sizes {tx : BaseTransaction}
    (success : inputBaseTransaction input = .ok (tx, rest)) : tx.toTransactionPrefix.SizesFit := by
  obtain ⟨version, afterVersion, versionRead, next⟩ := Decoder.bind_eq_ok success
  obtain ⟨txPrefix, afterPrefix, prefixRead, next⟩ := Decoder.bind_eq_ok next
  obtain ⟨-, fits, -⟩ := inputPrefixBody_canonical prefixRead
  -- both branches return the prefix just read; the newer one reads the ignored field first
  by_cases ignored : version ≥ TRANSACTION_VERSION_2
  · simp only [ignored, if_true] at next
    obtain ⟨_, after, _, done⟩ := Decoder.bind_eq_ok next
    cases done
    exact fits
  · simp only [ignored, if_false, Decoder.pure_apply, Except.ok.injEq, Prod.mk.injEq] at next
    rw [← next.1]
    exact fits

/-- The parent block the input side returns passes the output side's checks. -/
theorem inputParentBlock_restorable {parentBlock : ParentBlock} {timestamp : UInt64} {nonce : UInt32}
    (success : inputParentBlock input = .ok ((parentBlock, timestamp, nonce), rest)) :
    parentBlock.Restorable := by
  obtain ⟨majorVersion, _, _, next⟩ := Decoder.bind_eq_ok success
  obtain ⟨minorVersion, _, _, next⟩ := Decoder.bind_eq_ok next
  obtain ⟨readTimestamp, _, _, next⟩ := Decoder.bind_eq_ok next
  obtain ⟨previousBlockHash, _, _, next⟩ := Decoder.bind_eq_ok next
  obtain ⟨readNonce, _, _, next⟩ := Decoder.bind_eq_ok next
  obtain ⟨txNum, _, _, next⟩ := Decoder.bind_eq_ok next
  by_cases none : txNum.toUInt16 < 1
  · simp only [none, if_true, Decoder.fail_apply] at next
    cases next
  simp only [none, if_false] at next
  obtain ⟨branch, _, branchRead, next⟩ := Decoder.bind_eq_ok next
  obtain ⟨baseTransaction, _, baseRead, next⟩ := Decoder.bind_eq_ok next
  obtain ⟨-, branchLength, -⟩ := inputHash_isCanonical.replicate _ _ _ _ branchRead
  cases found : getMergeMiningTagFromExtra baseTransaction.extra with
  | none =>
    simp only [found, Decoder.fail_apply] at next
    cases next
  | some tag =>
    simp only [found] at next
    by_cases deep : tag.depth.toNat > 8 * 32
    · simp only [deep, if_true, Decoder.fail_apply] at next
      cases next
    simp only [deep, if_false] at next
    obtain ⟨chain, _, chainRead, done⟩ := Decoder.bind_eq_ok next
    cases done
    obtain ⟨-, chainLength, -⟩ := inputHash_isCanonical.replicate _ _ _ _ chainRead
    exact ⟨UInt16.not_lt.mp none, branchLength, ⟨tag, found, by omega, chainLength.symm⟩,
      inputBaseTransaction_sizes baseRead⟩

/-- What the input side returns for a block template passes the output side's checks; a version 1
template keeps the parent block it was read into and is exactly the bytes the output side writes. -/
theorem inputBlockTemplate_canonical {unread : ParentBlock} {block : BlockTemplate}
    (success : inputBlockTemplate unread input = .ok (block, rest)) :
    block.Restorable ∧ (block.majorVersion = BLOCK_MAJOR_VERSION_1 →
      block.parentBlock = unread ∧ ∃ bytes, outputBlockTemplate block = .ok bytes ∧ input = bytes ++ rest) := by
  obtain ⟨majorVersion, afterMajor, majorRead, next⟩ := Decoder.bind_eq_ok success
  by_cases unknown : majorVersion > BLOCK_MAJOR_VERSION_4
  · rw [if_pos unknown] at next
    cases next
  rw [if_neg unknown] at next
  have known : majorVersion ≤ BLOCK_MAJOR_VERSION_4 := UInt8.not_lt.mp unknown
  obtain ⟨minorVersion, afterMinor, minorRead, next⟩ := Decoder.bind_eq_ok next
  by_cases version1 : majorVersion = BLOCK_MAJOR_VERSION_1
  · -- the header carries timestamp and nonce; no parent block is on the wire
    rw [if_pos version1] at next
    obtain ⟨timestamp, afterTimestamp, timestampRead, next⟩ := Decoder.bind_eq_ok next
    obtain ⟨previousBlockHash, afterHash, hashRead, next⟩ := Decoder.bind_eq_ok next
    obtain ⟨nonce, afterNonce, nonceRead, next⟩ := Decoder.bind_eq_ok next
    obtain ⟨baseTransaction, afterTx, txRead, next⟩ := Decoder.bind_eq_ok next
    obtain ⟨count, afterCount, countRead, next⟩ := Decoder.bind_eq_ok next
    obtain ⟨hashes, afterHashes, hashesRead, done⟩ := Decoder.bind_eq_ok next
    cases done
    obtain ⟨minerTx, txWritten⟩ := inputTransaction_canonical txRead
    obtain ⟨counted, fits⟩ := beginArray_canonical countRead
    obtain ⟨hashesWritten, hashesLength, -⟩ := inputHash_isCanonical.replicate _ _ _ _ hashesRead
    have restorable : BlockTemplate.Restorable ⟨⟨majorVersion, minorVersion, nonce, timestamp,
        previousBlockHash⟩, unread, baseTransaction, hashes⟩ := by
      refine ⟨⟨?_, known⟩, ?_, minerTx, by rw [Fits, hashesLength]; exact fits⟩
      · show BLOCK_MAJOR_VERSION_1 ≤ majorVersion
        rw [version1]
        decide
      · intro merged
        change BLOCK_MAJOR_VERSION_2 ≤ majorVersion at merged
        rw [version1] at merged
        exact absurd merged (by decide)
    refine ⟨restorable, fun _ => ⟨rfl, _, outputBlockTemplate_version1 restorable version1, ?_⟩⟩
    rw [inputUInt8_canonical majorRead, inputUInt8_canonical minorRead,
      inputUInt64_canonical timestampRead, inputHash_canonical hashRead, inputUInt32Raw_canonical nonceRead,
      txWritten, counted, hashesWritten, ← hashesLength]
    simp only [List.append_assoc]
  · rw [if_neg version1] at next
    by_cases merged : majorVersion ≥ BLOCK_MAJOR_VERSION_2
    · -- the parent block carries timestamp and nonce
      rw [if_pos merged] at next
      obtain ⟨previousBlockHash, afterHash, hashRead, next⟩ := Decoder.bind_eq_ok next
      obtain ⟨⟨parentBlock, timestamp, nonce⟩, afterParent, parentRead, next⟩ := Decoder.bind_eq_ok next
      obtain ⟨baseTransaction, afterTx, txRead, next⟩ := Decoder.bind_eq_ok next
      obtain ⟨count, afterCount, countRead, next⟩ := Decoder.bind_eq_ok next
      obtain ⟨hashes, afterHashes, hashesRead, done⟩ := Decoder.bind_eq_ok next
      cases done
      obtain ⟨minerTx, -⟩ := inputTransaction_canonical txRead
      obtain ⟨-, fits⟩ := beginArray_canonical countRead
      obtain ⟨-, hashesLength, -⟩ := inputHash_isCanonical.replicate _ _ _ _ hashesRead
      refine ⟨⟨⟨?_, known⟩, fun _ => inputParentBlock_restorable parentRead, minerTx,
        by rw [Fits, hashesLength]; exact fits⟩, fun version1' => absurd version1' version1⟩
      exact UInt8.le_trans (show BLOCK_MAJOR_VERSION_1 ≤ BLOCK_MAJOR_VERSION_2 by decide) merged
    · rw [if_neg merged] at next
      cases next

/-- Re-encoding a decoded template succeeds and decodes to the same template; for version 1 the
bytes are the same as well. -/
theorem blockTemplate_reencodes {unread : ParentBlock} {binaryArray : List UInt8} {block : BlockTemplate}
    (success : fromBinaryArray (inputBlockTemplate unread) binaryArray = .ok block) :
    ∃ reencoded, toBinaryArray outputBlockTemplate block = .ok reencoded ∧
      fromBinaryArray (inputBlockTemplate unread) reencoded = .ok block ∧
      (block.majorVersion = BLOCK_MAJOR_VERSION_1 → reencoded = binaryArray) := by
  obtain ⟨restorable, version1Bytes⟩ := inputBlockTemplate_canonical (read_of_fromBinaryArray success)
  by_cases version1 : block.majorVersion = BLOCK_MAJOR_VERSION_1
  · obtain ⟨kept, bytes, written, same⟩ := version1Bytes version1
    obtain ⟨reencoded, reencodedWritten, readBack⟩ := blockTemplate_readsBack_version1 restorable version1
    have sameBytes : reencoded = binaryArray := by
      rw [reencodedWritten, Except.ok.injEq] at written
      simpa [written] using same.symm
    refine ⟨reencoded, reencodedWritten, fromBinaryArray_of_read ?_, fun _ => sameBytes⟩
    have decoded := readBack unread []
    rw [List.append_nil] at decoded
    rw [decoded, ← kept]
  · obtain ⟨reencoded, reencodedWritten, readBack⟩ := blockTemplate_readsBack_parent restorable version1
    refine ⟨reencoded, reencodedWritten, fromBinaryArray_of_read ?_, fun version1' => absurd version1' version1⟩
    simpa using readBack unread []

end Nox.CryptoNote
