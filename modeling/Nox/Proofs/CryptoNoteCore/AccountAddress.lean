import Nox.Model.CryptoNoteCore.AccountAddress
import Nox.Soundness.Base58

/-! # Standard addresses read back

The keys are read back from their binary array, and an array `fromBinaryArray` accepts is the
array of what it read, 64 bytes. With the round trip of `decode_addr`, a standard address is read
back as its tag and keys, and a text `parseAccountAddressString` accepts is the address of what it
reads: the other texts `decode_addr` reads carry no data, so no keys. An address of the network tag
with data of whole blocks is eleven symbols longer than the eleven of each eight data bytes, since
the varint of the tag and the checksum fill one block.
-/

namespace Nox.CryptoNote

open Nox.Crypto Nox.Serialization Nox.Tools

@[simp] theorem outputAccountPublicAddress_length (address : AccountPublicAddress) :
    (outputAccountPublicAddress address).length = 64 := by
  simp [outputAccountPublicAddress]

theorem inputAccountPublicAddress_output (address : AccountPublicAddress) (rest : List UInt8) :
    inputAccountPublicAddress (outputAccountPublicAddress address ++ rest) = .ok (address, rest) := by
  simp only [inputAccountPublicAddress, outputAccountPublicAddress, List.append_assoc]
  rw [Decoder.bind_ok (inputPod_output _ _), Decoder.bind_ok (inputPod_output _ _)]
  rfl

theorem inputAccountPublicAddress_canonical {input rest : List UInt8} {address : AccountPublicAddress}
    (success : inputAccountPublicAddress input = .ok (address, rest)) :
    input = outputAccountPublicAddress address ++ rest := by
  obtain ⟨spend, middle, spendRead, afterSpend⟩ := Decoder.bind_eq_ok success
  obtain ⟨view, after, viewRead, done⟩ := Decoder.bind_eq_ok afterSpend
  simp only [Decoder.pure_apply, Except.ok.injEq, Prod.mk.injEq] at done
  obtain ⟨rfl, rfl⟩ := done
  rw [inputPod_canonical spendRead, inputPod_canonical viewRead, outputAccountPublicAddress, List.append_assoc]

@[simp] theorem fromBinaryArray_outputAccountPublicAddress (address : AccountPublicAddress) :
    fromBinaryArray inputAccountPublicAddress (outputAccountPublicAddress address) = .ok address :=
  fromBinaryArray_of_read (by simpa using inputAccountPublicAddress_output address [])

theorem outputAccountPublicAddress_of_fromBinaryArray {data : List UInt8} {address : AccountPublicAddress}
    (success : fromBinaryArray inputAccountPublicAddress data = .ok address) :
    data = outputAccountPublicAddress address := by
  simpa using inputAccountPublicAddress_canonical (read_of_fromBinaryArray success)

section

variable (cnFastHash : List UInt8 → Hash) (checkKey : PublicKey → Bool)

@[simp] theorem decodeAddr_getAccountAddressAsStr (tag : UInt64) (adr : AccountPublicAddress) :
    Base58.decodeAddr cnFastHash (getAccountAddressAsStr cnFastHash tag adr) =
      some (tag, outputAccountPublicAddress adr) :=
  Base58.decodeAddr_encodeAddr cnFastHash tag _

@[simp] theorem parsedAccountAddress_getAccountAddressAsStr (tag : UInt64) (adr : AccountPublicAddress) :
    parsedAccountAddress cnFastHash (getAccountAddressAsStr cnFastHash tag adr) = some adr := by
  simp [parsedAccountAddress, Except.toOption]

theorem parseAccountAddressString_getAccountAddressAsStr (tag : UInt64) {adr : AccountPublicAddress}
    (keys : (checkKey adr.spendPublicKey && checkKey adr.viewPublicKey) = true) :
    parseAccountAddressString cnFastHash checkKey (getAccountAddressAsStr cnFastHash tag adr) = some (tag, adr) := by
  simp only [Bool.and_eq_true] at keys
  simp [parseAccountAddressString, Except.toOption, keys]

/-- A text `parseAccountAddressString` accepts is the address of the tag and the keys it reads, and
both keys pass `check_key`. -/
theorem getAccountAddressAsStr_of_parseAccountAddressString {str : List UInt8} {tag : UInt64}
    {adr : AccountPublicAddress} (parsed : parseAccountAddressString cnFastHash checkKey str = some (tag, adr)) :
    str = getAccountAddressAsStr cnFastHash tag adr ∧
      (checkKey adr.spendPublicKey && checkKey adr.viewPublicKey) = true := by
  simp only [parseAccountAddressString, Option.bind_eq_bind, Option.bind_eq_some_iff] at parsed
  obtain ⟨⟨read, data⟩, decoded, parsedKeys⟩ := parsed
  obtain ⟨keys, unpacked, checked⟩ := parsedKeys
  split_ifs at checked with valid
  obtain ⟨rfl, rfl⟩ := Prod.mk.inj (Option.some.inj checked)
  have array : data = outputAccountPublicAddress keys := by
    apply outputAccountPublicAddress_of_fromBinaryArray
    revert unpacked
    cases fromBinaryArray inputAccountPublicAddress data <;> simp [Except.toOption]
  subst array
  refine ⟨?_, valid⟩
  rcases Base58.encodeAddr_of_decodeAddr decoded with text | ⟨empty, -⟩
  · exact text
  · have := congrArg List.length empty
    simp at this

/-- A standard address names one tag and one pair of keys. -/
theorem getAccountAddressAsStr_injective {tag tag' : UInt64} {adr adr' : AccountPublicAddress}
    (same : getAccountAddressAsStr cnFastHash tag adr = getAccountAddressAsStr cnFastHash tag' adr') :
    tag = tag' ∧ adr = adr' := by
  have decoded := congrArg (Base58.decodeAddr cnFastHash) same
  simp only [decodeAddr_getAccountAddressAsStr, Option.some.injEq, Prod.mk.injEq] at decoded
  obtain ⟨sameTag, sameArray⟩ := decoded
  have read := congrArg (fromBinaryArray inputAccountPublicAddress) sameArray
  simp only [fromBinaryArray_outputAccountPublicAddress, Except.ok.injEq] at read
  exact ⟨sameTag, read⟩

theorem parsedAccountAddress_of_parseAccountAddressString {str : List UInt8} {tag : UInt64}
    {adr : AccountPublicAddress} (parsed : parseAccountAddressString cnFastHash checkKey str = some (tag, adr)) :
    parsedAccountAddress cnFastHash str = some adr := by
  rw [(getAccountAddressAsStr_of_parseAccountAddressString cnFastHash checkKey parsed).1]
  exact parsedAccountAddress_getAccountAddressAsStr cnFastHash tag adr

/-! ## Addresses of the network tag -/

theorem getVarintData_network :
    getVarintData CRYPTONOTE_PUBLIC_ADDRESS_BASE58_PREFIX = [0x9d, 0xf6, 0xee, 0x01] := by
  decide

/-- The Base58 payload of an address of the network tag: the four varint bytes, the data and the
checksum. -/
theorem encodeAddr_network (data : List UInt8) :
    Base58.encodeAddr cnFastHash CRYPTONOTE_PUBLIC_ADDRESS_BASE58_PREFIX data =
      Base58.encode ([0x9d, 0xf6, 0xee, 0x01] ++ (data ++
        (cnFastHash ([0x9d, 0xf6, 0xee, 0x01] ++ data)).data.toList.take Base58.addrChecksumSize)) := by
  simp only [Base58.encodeAddr, getVarintData_network, List.append_assoc]

theorem length_encodeAddr_network {data : List UInt8} (full : data.length % 8 = 0) :
    (Base58.encodeAddr cnFastHash CRYPTONOTE_PUBLIC_ADDRESS_BASE58_PREFIX data).length =
      11 * (data.length / 8 + 1) := by
  have payload : ([0x9d, 0xf6, 0xee, 0x01] ++ (data ++
      (cnFastHash ([0x9d, 0xf6, 0xee, 0x01] ++ data)).data.toList.take Base58.addrChecksumSize)).length =
      data.length + 8 := by
    rw [List.length_append, List.length_append, Base58.checksum_length]
    simp only [Base58.addrChecksumSize, List.length_cons, List.length_nil]
    omega
  rw [encodeAddr_network, Base58.encode_length_of_full (by rw [payload]; omega), payload]
  omega

end

end Nox.CryptoNote
