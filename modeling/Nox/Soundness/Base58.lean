import Nox.Proofs.Common.Base58
import Nox.Proofs.Common.Varint

/-! # Base58 texts and addresses

`decode` inverts `encode` on every byte string and accepts nothing `encode` does not write, so a
text names at most one byte string. An address is read back as the tag and the data it was
written from, whatever `cn_fast_hash` is. The converse holds but for the inputs on which
`read_varint` counts the bytes of a varint the input ends inside: a payload of continuation bytes
alone, with its checksum, is read as a tag with no data, and `encode_addr` writes no such text.
-/

namespace Nox.Tools.Base58

open Nox.Crypto

theorem encode_injective {data data' : List UInt8} (same : encode data = encode data') : data = data' := by
  have read := decode_encode data
  rw [same, decode_encode data'] at read
  exact (Option.some.inj read).symm

theorem writeVarintLoop_ne_nil (fuel value : ℕ) : Nox.Common.writeVarintLoop fuel value ≠ [] := by
  cases fuel with
  | zero => simp
  | succ fuel =>
    rw [Nox.Common.writeVarintLoop_succ]
    split_ifs <;> simp

/-- A varint of one byte is a byte below `0x80`. -/
theorem getVarintData_singleton {tag : UInt64} {byte : UInt8} (single : getVarintData tag = [byte]) :
    byte.toNat < 128 := by
  rw [getVarintData, Nox.Common.writeVarint, Nox.Common.writeVarintLoop_succ] at single
  split_ifs at single with large
  · simp only [List.cons.injEq] at single
    exact absurd single.2 (writeVarintLoop_ne_nil _ _)
  · simp only [List.cons.injEq, and_true] at single
    rw [← single, UInt8.toNat_ofNat']
    omega

theorem checksum_length (hash : Hash) : (hash.data.toList.take addrChecksumSize).length = addrChecksumSize := by
  simp [addrChecksumSize]

/-- Every tag and data are read back from their address, whatever the hash. -/
theorem decodeAddr_encodeAddr (cnFastHash : List UInt8 → Hash) (tag : UInt64) (data : List UInt8) :
    decodeAddr cnFastHash (encodeAddr cnFastHash tag data) = some (tag, data) := by
  set buf := getVarintData tag ++ data
  set checksum := (cnFastHash buf).data.toList.take addrChecksumSize
  have varintLength := List.length_pos_iff.mpr (writeVarintLoop_ne_nil 10 tag.toNat)
  have long : ¬ (buf ++ checksum).length ≤ addrChecksumSize := by
    simp only [buf, checksum, List.length_append, checksum_length]
    rw [getVarintData, Nox.Common.writeVarint]
    omega
  have payloadLength : (buf ++ checksum).length - addrChecksumSize = buf.length := by
    rw [List.length_append, checksum_length, Nat.add_sub_cancel]
  have positive : ¬ (((getVarintData tag).length : ℕ) : ℤ) ≤ 0 := by
    rw [getVarintData, Nox.Common.writeVarint]
    omega
  show decodeAddr cnFastHash (encode (buf ++ checksum)) = _
  rw [decodeAddr, decode_encode]
  simp only [Option.bind_eq_bind, Option.bind_some, if_neg long, payloadLength, List.drop_left, List.take_left,
    ne_eq]
  rw [if_neg fun different => different rfl]
  simp only [buf, readVarint_getVarintData, if_neg positive, Int.toNat_natCast, List.drop_left]

/-- A text `decode_addr` reads is the address of what it reads, or the checksummed text of a
payload of continuation bytes, read with no data. -/
theorem encodeAddr_of_decodeAddr {cnFastHash : List UInt8 → Hash} {addr : List UInt8} {tag : UInt64}
    {data : List UInt8} (decoded : decodeAddr cnFastHash addr = some (tag, data)) :
    addr = encodeAddr cnFastHash tag data ∨
      data = [] ∧ ∃ payload, payload ≠ [] ∧ (∀ piece ∈ payload, 128 ≤ piece.toNat) ∧
        addr = encode (payload ++ (cnFastHash payload).data.toList.take addrChecksumSize) := by
  obtain ⟨addrData, decodedText, checked⟩ := Option.bind_eq_some_iff.mp decoded
  have text := encode_of_decode decodedText
  dsimp only at checked
  split_ifs at checked with short badChecksum nonpositive
  set payload := addrData.take (addrData.length - addrChecksumSize)
  have whole : addrData = payload ++ (cnFastHash payload).data.toList.take addrChecksumSize := by
    rw [not_not.mp badChecksum]
    exact (List.take_append_drop _ _).symm
  generalize readResult : readVarint payload = result at checked nonpositive
  obtain ⟨read, value⟩ := result
  simp only [Option.some.injEq, Prod.mk.injEq] at checked
  obtain ⟨rfl, rfl⟩ := checked
  have positive : 0 < (readVarint payload).1 := by
    rw [readResult]
    omega
  rcases readVarint_cases positive with ⟨written, rest, varint⟩ | ⟨count, continued⟩
  · left
    have reread := readVarint_getVarintData written rest
    rw [← varint, readResult, Prod.mk.injEq] at reread
    obtain ⟨readIs, rfl⟩ := reread
    rw [readIs, Int.toNat_natCast, varint, List.drop_left, ← text, whole, varint]
    rfl
  · right
    rw [readResult] at count
    have readAll : read.toNat = payload.length := by
      dsimp only at count
      omega
    refine ⟨by rw [readAll, List.drop_length], payload, ?_, continued, by rw [← text, whole]⟩
    rw [← List.length_pos_iff, ← readAll]
    omega

theorem base58_address_round_trip (cnFastHash : List UInt8 → Hash) :
    (∀ data, decode (encode data) = some data) ∧
      (∀ enc data, decode enc = some data → encode data = enc) ∧
      (∀ tag data, decodeAddr cnFastHash (encodeAddr cnFastHash tag data) = some (tag, data)) ∧
      ∀ addr tag data, decodeAddr cnFastHash addr = some (tag, data) →
        addr = encodeAddr cnFastHash tag data ∨
          data = [] ∧ ∃ payload, payload ≠ [] ∧ (∀ piece ∈ payload, 128 ≤ piece.toNat) ∧
            addr = encode (payload ++ (cnFastHash payload).data.toList.take addrChecksumSize) :=
  ⟨decode_encode, fun _ _ => encode_of_decode, decodeAddr_encodeAddr cnFastHash,
    fun _ _ _ => encodeAddr_of_decodeAddr⟩

/-- The payload `0x80`, a varint cut after its first byte, with its checksum, is read as the tag
`0` with no data, and it is no address. -/
theorem decodeAddr_accepts_truncated_varint (cnFastHash : List UInt8 → Hash) :
    decodeAddr cnFastHash (encode ([0x80] ++ (cnFastHash [0x80]).data.toList.take addrChecksumSize)) =
        some (0, []) ∧
      ∀ tag data, encodeAddr cnFastHash tag data ≠
        encode ([0x80] ++ (cnFastHash [0x80]).data.toList.take addrChecksumSize) := by
  set checksum := (cnFastHash [0x80]).data.toList.take addrChecksumSize
  have long : ¬ ([0x80] ++ checksum).length ≤ addrChecksumSize := by
    rw [List.length_append, checksum_length]
    simp
  have payloadLength : ([0x80] ++ checksum).length - addrChecksumSize = [(0x80 : UInt8)].length := by
    rw [List.length_append, checksum_length, Nat.add_sub_cancel]
  have truncated : readVarint [0x80] = (1, 0) := rfl
  refine ⟨?_, ?_⟩
  · rw [decodeAddr, decode_encode]
    simp only [Option.bind_eq_bind, Option.bind_some, if_neg long, payloadLength, List.drop_left, List.take_left,
      ne_eq]
    rw [if_neg fun different => different rfl]
    simp only [truncated]
    rfl
  · intro tag data same
    have texts := encode_injective same
    have payloads : getVarintData tag ++ data = [0x80] :=
      List.append_inj_left' texts (by rw [checksum_length, checksum_length])
    rcases List.append_eq_singleton_iff.mp payloads with ⟨empty, -⟩ | ⟨single, -⟩
    · exact writeVarintLoop_ne_nil 10 tag.toNat empty
    · exact absurd (getVarintData_singleton single) (by decide)

/-- At the hash that gives 32 zero bytes for every text: the Base58 text of `0x80 00 00 00 00` is
read as the tag `0` with no data, and no address is written as it. -/
theorem decodeAddr_accepts_truncated_varint_zero_hash :
    decodeAddr (fun _ => ⟨Vector.replicate 32 0⟩) (encode [0x80, 0, 0, 0, 0]) = some (0, []) ∧
      ∀ tag data, encodeAddr (fun _ => ⟨Vector.replicate 32 0⟩) tag data ≠ encode [0x80, 0, 0, 0, 0] :=
  decodeAddr_accepts_truncated_varint _

end Nox.Tools.Base58
