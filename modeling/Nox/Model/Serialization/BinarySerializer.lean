import Nox.Model.Common.StreamTools
import Nox.Model.CryptoNote

/-! # The primitives of `BinaryOutputStreamSerializer` and `BinaryInputStreamSerializer`

Every unsigned integer, and every array size opened by `beginArray`, is a varint of its type's
width. Strings and blobs are a varint length followed by the bytes, except that the input side
reads a string named `"mm_tag"` longer than `MAX_EXTRA_SIZE` byte by byte and returns it empty.
Raw `binary` fields are copied as they lie in memory: fixed-size arrays byte for byte and the
`uint32_t` nonce in little-endian order.

A `std::vector` has fewer than `2 ^ 64` elements, since its size is a `size_t`; lists of the model
that are written with a size prefix carry that bound as `Fits`.
-/

namespace Nox.Serialization

open Nox.Common

/-- `CryptoNote::parameters::MAX_EXTRA_SIZE`. -/
def MAX_EXTRA_SIZE : ℕ := 140000

/-- A vector whose `size()` is a `size_t`. -/
def Fits {α : Type} (values : List α) : Prop := values.length < 2 ^ 64

/-! ## Output -/

/-- `operator()` on an unsigned integer of any width, and `beginArray` on a size. -/
def outputVarint (value : ℕ) : List UInt8 := writeVarint value

/-- `operator()(std::string&)` and `binary(std::string&)`: length prefix, then the bytes. -/
def outputString (value : List UInt8) : List UInt8 := writeVarint value.length ++ value

/-- The memory image of a `uint32_t` on the little-endian targets the node is built for. -/
def uint32Bytes (value : UInt32) : List UInt8 :=
  [UInt8.ofNat value.toNat, UInt8.ofNat (value.toNat / 2 ^ 8),
    UInt8.ofNat (value.toNat / 2 ^ 16), UInt8.ofNat (value.toNat / 2 ^ 24)]

/-! ## Input -/

/-- `operator()(uint8_t&)`. -/
def inputUInt8 : Decoder UInt8 UInt8 := do
  let value ← readVarint 8
  pure (UInt8.ofNat value)

/-- `operator()(uint16_t&)`. -/
def inputUInt16 : Decoder UInt8 UInt16 := do
  let value ← readVarint 16
  pure (UInt16.ofNat value)

/-- `operator()(uint32_t&)`. -/
def inputUInt32 : Decoder UInt8 UInt32 := do
  let value ← readVarint 32
  pure (UInt32.ofNat value)

/-- `operator()(uint64_t&)`. -/
def inputUInt64 : Decoder UInt8 UInt64 := do
  let value ← readVarint 64
  pure (UInt64.ofNat value)

/-- `beginArray(size_t&)`: the size as a `uint64_t` varint. -/
def beginArray : Decoder UInt8 ℕ := readVarint 64

/-- `operator()(std::string&, name)`. -/
def inputString (name : String) : Decoder UInt8 (List UInt8) := do
  let size ← readVarint 64
  if size > MAX_EXTRA_SIZE ∧ name = "mm_tag" then
    -- the oversized merge-mining tag is consumed and dropped
    let _ ← readBytes size
    pure []
  else readBytes size

/-- `binary(void*, n)` into an `n`-byte array. -/
def inputPod (n : ℕ) : Decoder UInt8 (Vector UInt8 n) := fun input =>
  if fits : n ≤ input.length then .ok (⟨(input.take n).toArray, by simp [fits]⟩, input.drop n)
  else .error readFailure

/-- `binary(&nonce, sizeof(uint32_t))`: four bytes, lowest first. -/
def inputUInt32Raw : Decoder UInt8 UInt32 := do
  let bytes ← inputPod 4
  pure (UInt32.ofNat (bytes[0].toNat + 2 ^ 8 * bytes[1].toNat + 2 ^ 16 * bytes[2].toNat +
    2 ^ 24 * bytes[3].toNat))

/-! ## Round trips of the primitives -/

variable (rest : List UInt8)

@[simp] theorem inputUInt8_output (value : UInt8) :
    inputUInt8 (outputVarint value.toNat ++ rest) = .ok (value, rest) := by
  simp only [inputUInt8, outputVarint]
  rw [Decoder.bind_ok (readVarint_writeVarint value.toNat_lt (by norm_num) rest)]
  simp

@[simp] theorem inputUInt16_output (value : UInt16) :
    inputUInt16 (outputVarint value.toNat ++ rest) = .ok (value, rest) := by
  simp only [inputUInt16, outputVarint]
  rw [Decoder.bind_ok (readVarint_writeVarint value.toNat_lt (by norm_num) rest)]
  simp

@[simp] theorem inputUInt32_output (value : UInt32) :
    inputUInt32 (outputVarint value.toNat ++ rest) = .ok (value, rest) := by
  simp only [inputUInt32, outputVarint]
  rw [Decoder.bind_ok (readVarint_writeVarint value.toNat_lt (by norm_num) rest)]
  simp

@[simp] theorem inputUInt64_output (value : UInt64) :
    inputUInt64 (outputVarint value.toNat ++ rest) = .ok (value, rest) := by
  simp only [inputUInt64, outputVarint]
  rw [Decoder.bind_ok (readVarint_writeVarint value.toNat_lt (by norm_num) rest)]
  simp

theorem beginArray_output {size : ℕ} (fits : size < 2 ^ 64) :
    beginArray (outputVarint size ++ rest) = .ok (size, rest) :=
  readVarint_writeVarint fits (by norm_num) rest

theorem readBytes_append (bytes : List UInt8) :
    readBytes bytes.length (bytes ++ rest) = .ok (bytes, rest) :=
  Decoder.replicate_item readFailure bytes rest

/-- A string whose name is not `"mm_tag"`, or which is short enough, is read back. -/
theorem inputString_output {name : String} {value : List UInt8} (fits : Fits value)
    (kept : value.length ≤ MAX_EXTRA_SIZE ∨ name ≠ "mm_tag") :
    inputString name (outputString value ++ rest) = .ok (value, rest) := by
  have keptBranch : ¬ (value.length > MAX_EXTRA_SIZE ∧ name = "mm_tag") := by
    rintro ⟨long, named⟩
    rcases kept with short | other
    · omega
    · exact other named
  simp only [inputString, outputString, List.append_assoc]
  rw [Decoder.bind_ok (readVarint_writeVarint fits (by norm_num) _), if_neg keptBranch]
  exact readBytes_append rest value

theorem inputPod_output {n : ℕ} (value : Vector UInt8 n) :
    inputPod n (value.toList ++ rest) = .ok (value, rest) := by
  have length : n ≤ (value.toList ++ rest).length := by simp
  simp only [inputPod, length, dite_true, Except.ok.injEq, Prod.mk.injEq]
  constructor
  · have taken : (value.toList ++ rest).take n = value.toList := by simp
    apply Vector.toArray_inj.mp
    show (List.take n (value.toList ++ rest)).toArray = value.toArray
    rw [taken]
    rfl
  · simp

theorem inputUInt32Raw_output (value : UInt32) :
    inputUInt32Raw (uint32Bytes value ++ rest) = .ok (value, rest) := by
  have bytes : uint32Bytes value = (⟨#[UInt8.ofNat value.toNat, UInt8.ofNat (value.toNat / 2 ^ 8),
      UInt8.ofNat (value.toNat / 2 ^ 16), UInt8.ofNat (value.toNat / 2 ^ 24)], rfl⟩ :
      Vector UInt8 4).toList := rfl
  simp only [inputUInt32Raw]
  rw [bytes, Decoder.bind_ok (inputPod_output rest _)]
  simp only [Decoder.pure_apply, Except.ok.injEq, Prod.mk.injEq, and_true]
  apply UInt32.toNat_inj.mp
  have bound := value.toNat_lt
  simp only [Vector.getElem_mk, List.getElem_toArray, List.getElem_cons_zero, List.getElem_cons_succ,
    UInt8.toNat_ofNat', UInt32.toNat_ofNat']
  omega

/-! ## Canonicity of the primitives -/

variable {rest} {input : List UInt8}

theorem inputUInt8_canonical {value : UInt8} (success : inputUInt8 input = .ok (value, rest)) :
    input = outputVarint value.toNat ++ rest := by
  obtain ⟨read, middle, readVarintOk, done⟩ := Decoder.bind_eq_ok success
  cases done
  obtain ⟨written, fits⟩ := readVarint_canonical (by norm_num) readVarintOk
  rw [written, outputVarint, UInt8.toNat_ofNat', Nat.mod_eq_of_lt fits]

theorem inputUInt16_canonical {value : UInt16} (success : inputUInt16 input = .ok (value, rest)) :
    input = outputVarint value.toNat ++ rest := by
  obtain ⟨read, middle, readVarintOk, done⟩ := Decoder.bind_eq_ok success
  cases done
  obtain ⟨written, fits⟩ := readVarint_canonical (by norm_num) readVarintOk
  rw [written, outputVarint, UInt16.toNat_ofNat', Nat.mod_eq_of_lt fits]

theorem inputUInt32_canonical {value : UInt32} (success : inputUInt32 input = .ok (value, rest)) :
    input = outputVarint value.toNat ++ rest := by
  obtain ⟨read, middle, readVarintOk, done⟩ := Decoder.bind_eq_ok success
  cases done
  obtain ⟨written, fits⟩ := readVarint_canonical (by norm_num) readVarintOk
  rw [written, outputVarint, UInt32.toNat_ofNat', Nat.mod_eq_of_lt fits]

theorem inputUInt64_canonical {value : UInt64} (success : inputUInt64 input = .ok (value, rest)) :
    input = outputVarint value.toNat ++ rest := by
  obtain ⟨read, middle, readVarintOk, done⟩ := Decoder.bind_eq_ok success
  cases done
  obtain ⟨written, fits⟩ := readVarint_canonical (by norm_num) readVarintOk
  rw [written, outputVarint, UInt64.toNat_ofNat', Nat.mod_eq_of_lt fits]

theorem beginArray_canonical {size : ℕ} (success : beginArray input = .ok (size, rest)) :
    input = outputVarint size ++ rest ∧ size < 2 ^ 64 :=
  readVarint_canonical (by norm_num) success

theorem readBytes_canonical {size : ℕ} {bytes : List UInt8}
    (success : readBytes size input = .ok (bytes, rest)) : input = bytes ++ rest ∧ bytes.length = size := by
  obtain ⟨split, length, -⟩ := (Decoder.item_canonical readFailure).replicate size input rest bytes success
  exact ⟨by simpa using split, length⟩

/-- A string not named `"mm_tag"` is read as exactly its length prefix and its bytes. -/
theorem inputString_canonical {name : String} {value : List UInt8} (other : name ≠ "mm_tag")
    (success : inputString name input = .ok (value, rest)) : input = outputString value ++ rest ∧ Fits value := by
  obtain ⟨size, middle, sizeRead, bytesRead⟩ := Decoder.bind_eq_ok success
  obtain ⟨sized, fits⟩ := readVarint_canonical (by norm_num) sizeRead
  have kept : ¬ (size > MAX_EXTRA_SIZE ∧ name = "mm_tag") := fun dropped => other dropped.2
  rw [if_neg kept] at bytesRead
  obtain ⟨split, length⟩ := readBytes_canonical bytesRead
  refine ⟨?_, by rw [Fits, length]; exact fits⟩
  rw [sized, split, outputString, length, List.append_assoc]

theorem inputPod_canonical {n : ℕ} {value : Vector UInt8 n}
    (success : inputPod n input = .ok (value, rest)) : input = value.toList ++ rest := by
  simp only [inputPod] at success
  split at success
  · cases success
    simp
  · cases success

theorem inputUInt32Raw_canonical {value : UInt32} (success : inputUInt32Raw input = .ok (value, rest)) :
    input = uint32Bytes value ++ rest := by
  obtain ⟨bytes, middle, podRead, done⟩ := Decoder.bind_eq_ok success
  cases done
  rw [inputPod_canonical podRead]
  congr 1
  obtain ⟨⟨list⟩, size⟩ := bytes
  match list, size with
  | [b0, b1, b2, b3], _ =>
    have bound0 := b0.toNat_lt
    have bound1 := b1.toNat_lt
    have bound2 := b2.toNat_lt
    have bound3 := b3.toNat_lt
    simp only [uint32Bytes, Vector.toList_mk, Vector.getElem_mk, List.getElem_toArray,
      List.getElem_cons_zero, List.getElem_cons_succ, UInt32.toNat_ofNat', List.cons.injEq,
      ← UInt8.toNat_inj, UInt8.toNat_ofNat', and_true]
    omega

end Nox.Serialization
