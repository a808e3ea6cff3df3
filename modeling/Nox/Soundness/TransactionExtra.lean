import Nox.Proofs.Common.StringTools
import Nox.Proofs.CryptoNoteCore.TransactionExtra

/-! # Transaction extra fields read back what was written

A list of fields of distinct kinds, a padding of `1..TX_EXTRA_PADDING_MAX_COUNT` bytes only at its
end and a nonce of at most `TX_EXTRA_NONCE_MAX_COUNT` bytes, is written by `writeTransactionExtra`
and parsed back to itself. The payment id of a transfer, given as 64 hexadecimal digits, and the
transaction key are the two fields the wallet and the miner write alone, and both are read back.
-/

namespace Nox.CryptoNote

open Nox.Common Nox.Crypto

theorem writeTransactionExtra_round_trip {fields : List TransactionExtraField}
    (wellFormed : WellFormedExtra fields) :
    writeTransactionExtra [] fields = some (extraBytes fields) ∧
      parseTransactionExtra (extraBytes fields) = (true, fields) :=
  ⟨writeTransactionExtra_eq [] wellFormed.fits, parseTransactionExtra_extraBytes wellFormed⟩

/-- The extra of a payment id alone holds one nonce field of 33 bytes. -/
theorem paymentIdExtra_wellFormed (paymentId : Hash) :
    WellFormedExtra [.nonce ⟨setPaymentIdToTransactionExtraNonce paymentId⟩] where
  kinds_nodup := List.nodup_singleton _
  padding_last := by simp
  fits := by
    simp only [List.mem_singleton, forall_eq, FieldFits, setPaymentIdToTransactionExtraNonce,
      List.length_cons, Vector.length_toList, TX_EXTRA_NONCE_MAX_COUNT]
    omega

theorem createTxExtraWithPaymentId_round_trip {paymentIdString : List UInt8}
    (length : paymentIdString.length = 64) (digits : ∀ character ∈ paymentIdString, IsHexDigit character) :
    ∃ paymentId, parsePaymentId paymentIdString = some paymentId ∧
      (createTxExtraWithPaymentId paymentIdString []).bind getPaymentIdFromTxExtra = some paymentId := by
  obtain ⟨value, parsed⟩ := podFromHex_digits digits (show paymentIdString.length = 2 * 32 by omega)
  have parsedId : parsePaymentId paymentIdString = some ⟨value⟩ := by
    rw [parsePaymentId, parsed]
    rfl
  have wellFormed := paymentIdExtra_wellFormed ⟨value⟩
  refine ⟨⟨value⟩, parsedId, ?_⟩
  rw [createTxExtraWithPaymentId_eq parsedId, writeTransactionExtra_eq [] wellFormed.fits, Option.bind_some,
    List.nil_append, getPaymentIdFromTxExtra_extraBytes wellFormed]
  exact getPaymentIdFromTransactionExtraNonce_set ⟨value⟩

theorem getTransactionPublicKeyFromExtra_added (publicKey : PublicKey) :
    getTransactionPublicKeyFromExtra (addTransactionPublicKeyToExtra [] publicKey) = publicKey := by
  have wellFormed : WellFormedExtra [.publicKey ⟨publicKey⟩] :=
    ⟨List.nodup_singleton _, by simp, by simp [FieldFits]⟩
  have bytes : addTransactionPublicKeyToExtra [] publicKey = extraBytes [.publicKey ⟨publicKey⟩] := by
    simp [addTransactionPublicKeyToExtra, fieldBytes]
  rw [bytes]
  exact getTransactionPublicKeyFromExtra_extraBytes wellFormed rfl

theorem transactionExtra_round_trip :
    (∀ fields : List TransactionExtraField, WellFormedExtra fields →
      ∃ extra, writeTransactionExtra [] fields = some extra ∧ parseTransactionExtra extra = (true, fields)) ∧
    (∀ paymentIdString : List UInt8, paymentIdString.length = 64 →
      (∀ character ∈ paymentIdString, IsHexDigit character) →
      ∃ paymentId, parsePaymentId paymentIdString = some paymentId ∧
        (createTxExtraWithPaymentId paymentIdString []).bind getPaymentIdFromTxExtra = some paymentId) ∧
    ∀ publicKey : PublicKey,
      getTransactionPublicKeyFromExtra (addTransactionPublicKeyToExtra [] publicKey) = publicKey :=
  ⟨fun _ wellFormed => ⟨_, writeTransactionExtra_round_trip wellFormed⟩,
    fun _ length digits => createTxExtraWithPaymentId_round_trip length digits,
    getTransactionPublicKeyFromExtra_added⟩

/-- A key, a nonce, a merge-mining tag and a padding of three bytes, in the order a merge-mined
coinbase may carry them. -/
def sampleExtraFields : List TransactionExtraField :=
  [.publicKey ⟨⟨Vector.replicate 32 7⟩⟩, .nonce ⟨[1, 2]⟩, .mergeMiningTag ⟨300, ⟨Vector.replicate 32 9⟩⟩,
    .padding ⟨3⟩]

theorem transactionExtra_round_trip_sample :
    WellFormedExtra sampleExtraFields ∧
      (∃ extra, writeTransactionExtra [] sampleExtraFields = some extra ∧
        parseTransactionExtra extra = (true, sampleExtraFields)) ∧
      (List.replicate 64 (0x61 : UInt8)).length = 64 ∧
      (∀ character ∈ List.replicate 64 (0x61 : UInt8), IsHexDigit character) ∧
      ∃ paymentId, parsePaymentId (List.replicate 64 0x61) = some paymentId ∧
        (createTxExtraWithPaymentId (List.replicate 64 0x61) []).bind getPaymentIdFromTxExtra =
          some paymentId :=
  ⟨by decide, transactionExtra_round_trip.1 _ (by decide), rfl, by decide,
    transactionExtra_round_trip.2.1 _ rfl (by decide)⟩

end Nox.CryptoNote
