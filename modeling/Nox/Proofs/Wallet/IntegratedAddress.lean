import Nox.Model.Wallet.IntegratedAddress
import Nox.Proofs.CryptoNoteCore.AccountAddress
import Nox.Proofs.Common.StringTools

/-! # Integrated addresses read back

A payment id `checkPaymentId` accepts has 64 bytes, so the cut after 64 bytes of the decoded data
gives back the payment id and the key array, and the keys are read back from the array alone.
Conversely `decodeIntegratedAddress` succeeds only on the address of the network tag and of a
payment id followed by a key array, and the standard address it returns is the address of those
keys, so `createIntegratedAddress` writes the same text again. A standard address decodes to the
key array alone: the cut after 64 bytes leaves nothing for the keys, and both decoders refuse it.

Every address of the network tag begins with `TRTL`: the first Base58 block holds the four varint
bytes of the tag and four more, and the four bytes of the tag fix the number's quotient by
`58 ^ 7`, which is the value of the four symbols `TRTL`.
-/

namespace Nox.PaymentService

open Nox.Crypto Nox.Tools Nox.CryptoNote Nox.Common

theorem hexCharacter_iff (c : UInt8) :
    ((0x30 ≤ c && c ≤ 0x39) || (0x61 ≤ c && c ≤ 0x66) || (0x41 ≤ c && c ≤ 0x46)) = true ↔ IsHexDigit c := by
  simp only [Bool.or_eq_true, Bool.and_eq_true, decide_eq_true_eq, IsHexDigit]
  tauto

theorem checkPaymentId_iff (paymentId : List UInt8) :
    checkPaymentId paymentId = true ↔ paymentId.length = 64 ∧ ∀ c ∈ paymentId, IsHexDigit c := by
  simp only [checkPaymentId, Bool.and_eq_true, beq_iff_eq, List.all_eq_true, hexCharacter_iff]

@[simp] theorem validatePaymentId_of_check {paymentId : List UInt8} (valid : checkPaymentId paymentId = true) :
    validatePaymentId paymentId = .ok () := by
  simp [validatePaymentId, valid]

/-- The data after a payment id of 64 bytes is cut back into the two. -/
theorem cut_paymentId {paymentId : List UInt8} (valid : checkPaymentId paymentId = true) (keys : List UInt8) :
    (paymentId ++ keys).take 64 = paymentId ∧ (paymentId ++ keys).drop 64 = keys := by
  have length := ((checkPaymentId_iff paymentId).mp valid).1
  exact ⟨List.take_left' length, List.drop_left' length⟩

/-- No key array is empty. -/
theorem fromBinaryArray_nil (adr : AccountPublicAddress) :
    fromBinaryArray inputAccountPublicAddress [] ≠ .ok adr := by
  intro read
  have length := congrArg List.length (outputAccountPublicAddress_of_fromBinaryArray read)
  simp at length

section

variable (cnFastHash : List UInt8 → Hash) (checkKey : PublicKey → Bool) (publicAddressBase58Prefix : UInt64)

theorem Currency.parseAccountAddressString_eq_some {str : List UInt8} {adr : AccountPublicAddress} :
    CryptoNote.Currency.parseAccountAddressString cnFastHash checkKey publicAddressBase58Prefix str = some adr ↔
      parseAccountAddressString cnFastHash checkKey str = some (publicAddressBase58Prefix, adr) := by
  simp only [CryptoNote.Currency.parseAccountAddressString, Option.bind_eq_bind, Option.bind_eq_some_iff]
  constructor
  · rintro ⟨⟨tag, keys⟩, parsed, checked⟩
    split_ifs at checked with other
    cases checked
    simp only [ne_eq, not_not] at other
    subst other
    exact parsed
  · intro parsed
    exact ⟨_, parsed, by simp⟩

theorem validateAddress_iff (address : List UInt8) :
    validateAddress cnFastHash checkKey publicAddressBase58Prefix address = true ↔
      ∃ adr, parseAccountAddressString cnFastHash checkKey address = some (publicAddressBase58Prefix, adr) := by
  simp only [validateAddress, Option.isSome_iff_exists, Currency.parseAccountAddressString_eq_some]

theorem validateAddresses_singleton (address : List UInt8) :
    validateAddresses cnFastHash checkKey publicAddressBase58Prefix [address] =
      if validateAddress cnFastHash checkKey publicAddressBase58Prefix address then .ok () else .error .BAD_ADDRESS := by
  by_cases valid : validateAddress cnFastHash checkKey publicAddressBase58Prefix address = true <;>
    simp [validateAddresses, List.forM, valid]

/-- What `decodeIntegratedAddress` returns comes from the address of the network tag and of the
payment id followed by the keys, and the standard address it returns is the keys' address, which
the currency accepts. -/
theorem decodeIntegratedAddress_eq_ok {integratedAddr address paymentId : List UInt8}
    (decoded : decodeIntegratedAddress cnFastHash checkKey publicAddressBase58Prefix integratedAddr =
      .ok (address, paymentId)) :
    ∃ adr, Base58.decodeAddr cnFastHash integratedAddr =
        some (CRYPTONOTE_PUBLIC_ADDRESS_BASE58_PREFIX, paymentId ++ outputAccountPublicAddress adr) ∧
      checkPaymentId paymentId = true ∧ address = getAccountAddressAsStr cnFastHash CRYPTONOTE_PUBLIC_ADDRESS_BASE58_PREFIX adr ∧
      validateAddress cnFastHash checkKey publicAddressBase58Prefix address = true := by
  unfold decodeIntegratedAddress at decoded
  split at decoded
  · rename_i tag data read
    dsimp only at decoded
    split_ifs at decoded with network
    · cases decoded
    rw [not_not] at network
    subst network
    unfold validatePaymentId at decoded
    split_ifs at decoded with valid
    · dsimp only [bind, Except.bind] at decoded
      split at decoded
      · rename_i adr unpacked
        -- the last step is the check of the standard address
        rw [validateAddresses_singleton] at decoded
        split_ifs at decoded with checked
        · simp only [pure, Except.pure, Except.ok.injEq, Prod.mk.injEq] at decoded
          obtain ⟨rfl, rfl⟩ := decoded
          refine ⟨adr, ?_, valid, rfl, checked⟩
          rw [read, ← outputAccountPublicAddress_of_fromBinaryArray unpacked, List.take_append_drop]
      · cases decoded
    · cases decoded
  · cases decoded

/-- What the wallet service writes for an address the currency accepts and a valid payment id:
the address of the network tag, of the payment id and of the keys. -/
theorem WalletService.createIntegratedAddress_eq (uninitialized : AccountPublicAddress)
    {address paymentId : List UInt8} {adr : AccountPublicAddress}
    (standard : parseAccountAddressString cnFastHash checkKey address = some (publicAddressBase58Prefix, adr))
    (valid : checkPaymentId paymentId = true) :
    WalletService.createIntegratedAddress cnFastHash checkKey publicAddressBase58Prefix uninitialized address paymentId =
      .ok (Base58.encodeAddr cnFastHash CRYPTONOTE_PUBLIC_ADDRESS_BASE58_PREFIX
        (paymentId ++ outputAccountPublicAddress adr)) := by
  have accepted : validateAddress cnFastHash checkKey publicAddressBase58Prefix address = true :=
    (validateAddress_iff cnFastHash checkKey publicAddressBase58Prefix address).mpr ⟨adr, standard⟩
  simp [WalletService.createIntegratedAddress, validateAddresses_singleton, accepted, valid,
    parsedAccountAddress_of_parseAccountAddressString cnFastHash checkKey standard]
  rfl

/-- The wallet service reads the keys' standard address and the payment id back from their
integrated address. -/
theorem decodeIntegratedAddress_encodeAddr {paymentId : List UInt8} {adr : AccountPublicAddress}
    (valid : checkPaymentId paymentId = true)
    (accepted : validateAddress cnFastHash checkKey publicAddressBase58Prefix
      (getAccountAddressAsStr cnFastHash CRYPTONOTE_PUBLIC_ADDRESS_BASE58_PREFIX adr) = true) :
    decodeIntegratedAddress cnFastHash checkKey publicAddressBase58Prefix
        (Base58.encodeAddr cnFastHash CRYPTONOTE_PUBLIC_ADDRESS_BASE58_PREFIX (paymentId ++ outputAccountPublicAddress adr)) =
      .ok (getAccountAddressAsStr cnFastHash CRYPTONOTE_PUBLIC_ADDRESS_BASE58_PREFIX adr, paymentId) := by
  obtain ⟨front, back⟩ := cut_paymentId valid (outputAccountPublicAddress adr)
  simp [decodeIntegratedAddress, Base58.decodeAddr_encodeAddr, front, back, valid, validateAddresses_singleton,
    accepted]
  rfl

/-- The integrated address of an address the network currency accepts and a valid payment id is
read back as the two. -/
theorem decodeIntegratedAddress_createIntegratedAddress_eq (uninitialized : AccountPublicAddress)
    {address paymentId : List UInt8} {adr : AccountPublicAddress}
    (standard : parseAccountAddressString cnFastHash checkKey address = some (CRYPTONOTE_PUBLIC_ADDRESS_BASE58_PREFIX, adr))
    (valid : checkPaymentId paymentId = true) :
    (WalletService.createIntegratedAddress cnFastHash checkKey CRYPTONOTE_PUBLIC_ADDRESS_BASE58_PREFIX uninitialized
        address paymentId >>= decodeIntegratedAddress cnFastHash checkKey CRYPTONOTE_PUBLIC_ADDRESS_BASE58_PREFIX) =
      .ok (address, paymentId) := by
  rw [WalletService.createIntegratedAddress_eq cnFastHash checkKey _ uninitialized standard valid]
  obtain ⟨text, keys⟩ := getAccountAddressAsStr_of_parseAccountAddressString cnFastHash checkKey standard
  have accepted : validateAddress cnFastHash checkKey CRYPTONOTE_PUBLIC_ADDRESS_BASE58_PREFIX
      (getAccountAddressAsStr cnFastHash CRYPTONOTE_PUBLIC_ADDRESS_BASE58_PREFIX adr) = true := by
    rw [← text]
    exact (validateAddress_iff cnFastHash checkKey _ address).mpr ⟨adr, standard⟩
  rw [text]
  exact decodeIntegratedAddress_encodeAddr cnFastHash checkKey _ valid accepted

/-- Whatever `decodeIntegratedAddress` reads, the wallet service writes the same text for it. -/
theorem createIntegratedAddress_of_decodeIntegratedAddress (uninitialized : AccountPublicAddress)
    {integratedAddr address paymentId : List UInt8}
    (decoded : decodeIntegratedAddress cnFastHash checkKey publicAddressBase58Prefix integratedAddr =
      .ok (address, paymentId)) :
    WalletService.createIntegratedAddress cnFastHash checkKey publicAddressBase58Prefix uninitialized address paymentId =
      .ok integratedAddr := by
  obtain ⟨adr, read, valid, rfl, accepted⟩ := decodeIntegratedAddress_eq_ok cnFastHash checkKey _ decoded
  obtain ⟨accountKeys, standard⟩ := (validateAddress_iff cnFastHash checkKey _ _).mp accepted
  -- the currency's tag is the network tag, and the keys it reads are the decoded ones
  obtain ⟨text, -⟩ := getAccountAddressAsStr_of_parseAccountAddressString cnFastHash checkKey standard
  obtain ⟨network, rfl⟩ := getAccountAddressAsStr_injective cnFastHash text
  rw [WalletService.createIntegratedAddress_eq cnFastHash checkKey _ uninitialized standard valid]
  rcases Base58.encodeAddr_of_decodeAddr read with written | ⟨empty, -⟩
  · rw [written, network]
  · have := congrArg List.length empty
    simp at this

/-- A standard address is no integrated address for the wallet service. -/
theorem decodeIntegratedAddress_of_parseAccountAddressString {str : List UInt8} {tag : UInt64}
    {adr : AccountPublicAddress} (standard : parseAccountAddressString cnFastHash checkKey str = some (tag, adr))
    (result : List UInt8 × List UInt8) :
    decodeIntegratedAddress cnFastHash checkKey publicAddressBase58Prefix str ≠ .ok result := by
  intro decoded
  obtain ⟨integrated, read, valid, -, -⟩ := decodeIntegratedAddress_eq_ok cnFastHash checkKey _ decoded
  obtain ⟨text, -⟩ := getAccountAddressAsStr_of_parseAccountAddressString cnFastHash checkKey standard
  rw [text, decodeAddr_getAccountAddressAsStr] at read
  -- the standard address holds 64 bytes of data, an integrated one 128
  have sizes := congrArg (fun read => read.map fun decoded => decoded.2.length) read
  simp [((checkPaymentId_iff _).mp valid).1] at sizes

end

end Nox.PaymentService

namespace Nox.Zedwallet

open Nox.Crypto Nox.Tools Nox.CryptoNote Nox.Common Nox.PaymentService

/-- A payment id of 64 digits is written into a transaction extra. -/
theorem createTxExtraWithPaymentId_isSome {paymentID : List UInt8} (valid : checkPaymentId paymentID = true) :
    (createTxExtraWithPaymentId paymentID []).isSome = true := by
  obtain ⟨length, digits⟩ := (checkPaymentId_iff paymentID).mp valid
  obtain ⟨value, read⟩ := podFromHex_digits digits (by omega : paymentID.length = 2 * 32)
  simp [createTxExtraWithPaymentId, parsePaymentId, read, addExtraNonceToTransactionExtra,
    setPaymentIdToTransactionExtraNonce, TX_EXTRA_NONCE_MAX_COUNT]

section

variable (cnFastHash : List UInt8 → Hash) (checkKey : PublicKey → Bool)

/-- Every address of the network tag begins with `TRTL`. -/
theorem take_encodeAddr_network (data : List UInt8) :
    (Base58.encodeAddr cnFastHash CRYPTONOTE_PUBLIC_ADDRESS_BASE58_PREFIX data).take
        WalletConfig.addressPrefix.length = WalletConfig.addressPrefix := by
  set tail := data ++ (cnFastHash ([0x9d, 0xf6, 0xee, 0x01] ++ data)).data.toList.take Base58.addrChecksumSize
  have tailLength : 4 ≤ tail.length := by
    simp only [tail]
    rw [List.length_append, Base58.checksum_length]
    simp only [Base58.addrChecksumSize]
    omega
  have four : (tail.take 4).length = 4 := by simp [tailLength]
  -- the four bytes of the tag fix the first four of the eleven places of the first block
  have quotient : Base58.blockValue ([0x9d, 0xf6, 0xee, 0x01] ++ tail.take 4) / 58 ^ 7 = 5155175 := by
    have below := Base58.blockValue_lt (tail.take 4)
    have tagValue : Base58.blockValue [0x9d, 0xf6, 0xee, 0x01] = 2650205697 := by decide
    rw [four] at below
    rw [Base58.blockValue_append, four, tagValue]
    omega
  have first : ([0x9d, 0xf6, 0xee, 0x01] ++ tail).take 8 = [0x9d, 0xf6, 0xee, 0x01] ++ tail.take 4 := by
    simp
  have places : Base58.encodedBlockSizes.getD ([0x9d, 0xf6, 0xee, 0x01] ++ tail.take 4).length 0 = 7 + 4 := by
    rw [List.length_append, four]
    rfl
  have symbols : WalletConfig.addressPrefix.length = 4 := by decide
  calc (Base58.encodeAddr cnFastHash CRYPTONOTE_PUBLIC_ADDRESS_BASE58_PREFIX data).take
        WalletConfig.addressPrefix.length
      = ((Base58.encode ([0x9d, 0xf6, 0xee, 0x01] ++ tail)).take 11).take 4 := by
        rw [encodeAddr_network, symbols, List.take_take]
        rfl
    _ = (Base58.encodeBlock ([0x9d, 0xf6, 0xee, 0x01] ++ tail.take 4)).take 4 := by
        rw [Base58.take_encode (by simp only [List.length_append, List.length_cons, List.length_nil]; omega), first]
    _ = (Nat.fixedDigits 58 4 5155175).map (Base58.alphabet.getD · 0) := by
        rw [Base58.encodeBlock_eq (by simp [four]), places, ← List.map_take, Nat.take_fixedDigits, quotient]
    _ = WalletConfig.addressPrefix := by decide

/-- zedwallet takes every standard address of the network tag whose keys pass `check_key`. -/
theorem parseStandardAddress_getAccountAddressAsStr {adr : AccountPublicAddress}
    (keys : (checkKey adr.spendPublicKey && checkKey adr.viewPublicKey) = true) :
    parseStandardAddress cnFastHash checkKey
      (getAccountAddressAsStr cnFastHash CRYPTONOTE_PUBLIC_ADDRESS_BASE58_PREFIX adr) = true := by
  have length : (getAccountAddressAsStr cnFastHash CRYPTONOTE_PUBLIC_ADDRESS_BASE58_PREFIX adr).length =
      WalletConfig.standardAddressLength := by
    rw [getAccountAddressAsStr, length_encodeAddr_network cnFastHash (by simp), outputAccountPublicAddress_length]
    rfl
  have symbols := take_encodeAddr_network cnFastHash (outputAccountPublicAddress adr)
  rw [← getAccountAddressAsStr] at symbols
  simp only [parseStandardAddress, length, symbols, ne_eq, not_true_eq_false, if_false,
    parseAccountAddressString_getAccountAddressAsStr cnFastHash checkKey _ keys, Option.isSome_some]

/-- zedwallet reads the keys' standard address and the payment id back from their integrated
address. -/
theorem extractIntegratedAddress_encodeAddr {paymentID : List UInt8} {adr : AccountPublicAddress}
    (valid : checkPaymentId paymentID = true)
    (keys : (checkKey adr.spendPublicKey && checkKey adr.viewPublicKey) = true) :
    extractIntegratedAddress cnFastHash checkKey
        (Base58.encodeAddr cnFastHash CRYPTONOTE_PUBLIC_ADDRESS_BASE58_PREFIX (paymentID ++ outputAccountPublicAddress adr)) =
      .ok (some (getAccountAddressAsStr cnFastHash CRYPTONOTE_PUBLIC_ADDRESS_BASE58_PREFIX adr, paymentID)) := by
  obtain ⟨front, back⟩ := cut_paymentId valid (outputAccountPublicAddress adr)
  have paymentLength := ((checkPaymentId_iff paymentID).mp valid).1
  have length : (Base58.encodeAddr cnFastHash CRYPTONOTE_PUBLIC_ADDRESS_BASE58_PREFIX
      (paymentID ++ outputAccountPublicAddress adr)).length = WalletConfig.integratedAddressLength := by
    rw [length_encodeAddr_network cnFastHash (by simp [paymentLength]), List.length_append, paymentLength,
      outputAccountPublicAddress_length]
    rfl
  have long : ¬ (paymentID ++ outputAccountPublicAddress adr).length < 64 := by simp [paymentLength]
  simp only [extractIntegratedAddress, length, ne_eq, not_true_eq_false, if_false, Base58.decodeAddr_encodeAddr,
    long, front, back, fromBinaryArray_outputAccountPublicAddress, parseStandardAddress_getAccountAddressAsStr
    cnFastHash checkKey keys, Bool.not_true, Bool.false_eq_true, createTxExtraWithPaymentId_isSome valid,
    Option.isNone_iff_eq_none, ← Option.not_isSome_iff_eq_none]

/-- What zedwallet writes for an address it can read: the address of the network tag, of the
payment id and of the keys, whatever the address's own tag. -/
theorem createIntegratedAddress_eq (uninitialized : AccountPublicAddress) {address paymentID : List UInt8}
    {tag : UInt64} {adr : AccountPublicAddress}
    (standard : parseAccountAddressString cnFastHash checkKey address = some (tag, adr)) :
    createIntegratedAddress cnFastHash uninitialized address paymentID =
      Base58.encodeAddr cnFastHash CRYPTONOTE_PUBLIC_ADDRESS_BASE58_PREFIX (paymentID ++ outputAccountPublicAddress adr) := by
  simp [createIntegratedAddress, parsedAccountAddress_of_parseAccountAddressString cnFastHash checkKey standard]

/-- zedwallet reads an address of the network tag and a valid payment id back from the integrated
address it writes. -/
theorem extractIntegratedAddress_createIntegratedAddress_eq (uninitialized : AccountPublicAddress)
    {address paymentID : List UInt8} {adr : AccountPublicAddress}
    (standard : parseAccountAddressString cnFastHash checkKey address = some (CRYPTONOTE_PUBLIC_ADDRESS_BASE58_PREFIX, adr))
    (valid : checkPaymentId paymentID = true) :
    extractIntegratedAddress cnFastHash checkKey (createIntegratedAddress cnFastHash uninitialized address paymentID) =
      .ok (some (address, paymentID)) := by
  obtain ⟨text, keys⟩ := getAccountAddressAsStr_of_parseAccountAddressString cnFastHash checkKey standard
  rw [createIntegratedAddress_eq cnFastHash checkKey uninitialized standard,
    extractIntegratedAddress_encodeAddr cnFastHash checkKey valid keys, ← text]

/-- A standard address is no integrated address for zedwallet: the data it decodes to leaves no
keys after the payment id. -/
theorem extractIntegratedAddress_of_parseAccountAddressString {str : List UInt8} {tag : UInt64}
    {adr : AccountPublicAddress} (standard : parseAccountAddressString cnFastHash checkKey str = some (tag, adr)) :
    extractIntegratedAddress cnFastHash checkKey str = .ok none := by
  obtain ⟨rfl, -⟩ := getAccountAddressAsStr_of_parseAccountAddressString cnFastHash checkKey standard
  have noKeys : (outputAccountPublicAddress adr).drop 64 = [] := List.drop_eq_nil_of_le (by simp)
  have notShort : ¬ (outputAccountPublicAddress adr).length < 64 := by simp
  unfold extractIntegratedAddress
  simp only [decodeAddr_getAccountAddressAsStr, notShort, if_false, noKeys]
  cases read : fromBinaryArray inputAccountPublicAddress [] with
  | error message => split_ifs <;> rfl
  | ok keys => exact absurd read (fromBinaryArray_nil keys)

end

end Nox.Zedwallet
