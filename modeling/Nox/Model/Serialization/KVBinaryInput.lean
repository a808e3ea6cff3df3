import Nox.Library.LittleEndian
import Nox.Model.Common.JsonValue
import Nox.Model.Common.StreamTools

/-! # `KVBinaryCommon.h` and the reader of `KVBinaryInputStreamSerializer.cpp`

The portable storage format of the node's P2P messages and database values. A storage is a header
of nine bytes, two signatures and a version, followed by a section: a varint count of entries,
each a name of at most 255 bytes behind its length byte, a type byte and the value. A type byte
with the flag `0x80` is an array of that type: a varint count and the values one after another.
Integers are stored in their memory image, the lowest byte first, and strings behind a varint
length.

`parseBinary` turns a storage into a `JsonValue`, which `JsonInputValueSerializer` then reads:
integers of every width become `INTEGER` through `static_cast<int64_t>`, which sign-extends the
signed widths and zero-extends the unsigned ones; a `DOUBLE` becomes a `REAL`, kept here as the
eight bytes of its image, since the model does not compute with doubles; a section becomes an
`OBJECT`, each entry inserted with `std::map::emplace`, which keeps the first of two entries of
one name.

Two quirks are modelled as the source has them: `readName` leaves the previous name in place when
the length byte is zero, and `loadValue` reads a value of the array type itself as an array of
array-typed values.

The four loading functions call one another recursively. The model bounds the recursion with fuel.
Every call that passes the fuel down has either read a byte first or is one of the two calls that
read none (`loadValue` to a section or an array, `loadItems` to `loadValue`), so three units for
each byte of the input are always enough; `parseBinary` passes that much.
-/

namespace Nox.CryptoNote

open Nox.Common
open LittleEndian (ofBytes)

/-! ## `KVBinaryCommon.h` -/

def PORTABLE_STORAGE_SIGNATUREA : ℕ := 0x01011101
def PORTABLE_STORAGE_SIGNATUREB : ℕ := 0x01020101
def PORTABLE_STORAGE_FORMAT_VER : UInt8 := 1

def PORTABLE_RAW_SIZE_MARK_MASK : UInt8 := 0x03
def PORTABLE_RAW_SIZE_MARK_BYTE : UInt8 := 0
def PORTABLE_RAW_SIZE_MARK_WORD : UInt8 := 1
def PORTABLE_RAW_SIZE_MARK_DWORD : UInt8 := 2
def PORTABLE_RAW_SIZE_MARK_INT64 : UInt8 := 3

def BIN_KV_SERIALIZE_TYPE_INT64 : UInt8 := 1
def BIN_KV_SERIALIZE_TYPE_INT32 : UInt8 := 2
def BIN_KV_SERIALIZE_TYPE_INT16 : UInt8 := 3
def BIN_KV_SERIALIZE_TYPE_INT8 : UInt8 := 4
def BIN_KV_SERIALIZE_TYPE_UINT64 : UInt8 := 5
def BIN_KV_SERIALIZE_TYPE_UINT32 : UInt8 := 6
def BIN_KV_SERIALIZE_TYPE_UINT16 : UInt8 := 7
def BIN_KV_SERIALIZE_TYPE_UINT8 : UInt8 := 8
def BIN_KV_SERIALIZE_TYPE_DOUBLE : UInt8 := 9
def BIN_KV_SERIALIZE_TYPE_STRING : UInt8 := 10
def BIN_KV_SERIALIZE_TYPE_BOOL : UInt8 := 11
def BIN_KV_SERIALIZE_TYPE_OBJECT : UInt8 := 12
def BIN_KV_SERIALIZE_TYPE_ARRAY : UInt8 := 13
def BIN_KV_SERIALIZE_FLAG_ARRAY : UInt8 := 0x80

/-- `KVBinaryStorageBlockHeader`, packed: nine bytes. -/
structure KVBinaryStorageBlockHeader where
  signatureA : ℕ
  signatureB : ℕ
  ver : UInt8
deriving DecidableEq, Repr

namespace KVBinaryInputStreamSerializer

/-! ## The reads of one value -/

/-- `readPod<T>` for an integer type of `size` bytes: its memory image, the lowest byte first. -/
def readPod (size : ℕ) : Decoder UInt8 ℕ := do
  let bytes ← readBytes size
  pure (ofBytes bytes)

/-- `readIntegerJson<T>`: `static_cast<int64_t>` of an integer of `size` bytes, sign-extended when
the type is signed. -/
def readIntegerJson (signed : Bool) (size : ℕ) : Decoder UInt8 JsonValue := do
  let raw ← readPod size
  let bits := BitVec.ofNat (8 * size) raw
  pure (.integer (Int64.ofBitVec (if signed then bits.signExtend 64 else bits.setWidth 64)))

/-- `readPodJson<double>`: the eight bytes of the double, as a `REAL`. -/
def readDoubleJson : Decoder UInt8 JsonValue := do
  let bytes ← readBytes 8
  pure (.real bytes)

/-- The bytes that follow the first byte of a varint, by the size mark in its two low bits. -/
def bytesLeft (sizeMask : UInt8) : ℕ :=
  if sizeMask = PORTABLE_RAW_SIZE_MARK_BYTE then 0
  else if sizeMask = PORTABLE_RAW_SIZE_MARK_WORD then 1
  else if sizeMask = PORTABLE_RAW_SIZE_MARK_DWORD then 3
  -- the mask leaves `PORTABLE_RAW_SIZE_MARK_INT64` as the only other value
  else 7

/-- `readVarint`: the first byte and the bytes its mark asks for, as one number the lowest byte
first, shifted right past the mark. -/
def readVarint : Decoder UInt8 ℕ := do
  let b ← readByte
  let rest ← readBytes (bytesLeft (b &&& PORTABLE_RAW_SIZE_MARK_MASK))
  pure (ofBytes (b :: rest) >>> 2)

/-- `readString`: a varint size, then that many bytes. -/
def readString : Decoder UInt8 (List UInt8) := do
  let size ← readVarint
  readBytes size

/-- `readName(stream, name)`: a length byte and the name; a zero length leaves `name` as it was. -/
def readName (name : List UInt8) : Decoder UInt8 (List UInt8) := do
  let len ← readByte
  if len ≠ 0 then readBytes len.toNat else pure name

/-- What `loadValue` throws on a type it does not know. -/
def unknownDataType : String := "Unknown data type"

/-- What the model fails with when the fuel bounding the recursion runs out. -/
def outOfFuel : String := "portable storage nested past the reader's bound"

/-- The values of the types that hold no other value, or `none` for the others. -/
def loadScalar (type : UInt8) : Option (Decoder UInt8 JsonValue) :=
  if type = BIN_KV_SERIALIZE_TYPE_INT64 then some (readIntegerJson true 8)
  else if type = BIN_KV_SERIALIZE_TYPE_INT32 then some (readIntegerJson true 4)
  else if type = BIN_KV_SERIALIZE_TYPE_INT16 then some (readIntegerJson true 2)
  else if type = BIN_KV_SERIALIZE_TYPE_INT8 then some (readIntegerJson true 1)
  else if type = BIN_KV_SERIALIZE_TYPE_UINT64 then some (readIntegerJson false 8)
  else if type = BIN_KV_SERIALIZE_TYPE_UINT32 then some (readIntegerJson false 4)
  else if type = BIN_KV_SERIALIZE_TYPE_UINT16 then some (readIntegerJson false 2)
  else if type = BIN_KV_SERIALIZE_TYPE_UINT8 then some (readIntegerJson false 1)
  else if type = BIN_KV_SERIALIZE_TYPE_DOUBLE then some readDoubleJson
  else if type = BIN_KV_SERIALIZE_TYPE_BOOL then some (do
    let b ← readByte
    pure (.bool (b ≠ 0)))
  else if type = BIN_KV_SERIALIZE_TYPE_STRING then some (do
    let value ← readString
    pure (.string value))
  else none

/-! ## Sections, entries and arrays -/

mutual

/-- `loadSection`: a varint count of entries, read into an empty `OBJECT`. -/
def loadSection : ℕ → Decoder UInt8 JsonValue
  | 0 => Decoder.fail outOfFuel
  | fuel + 1 => do
    let count ← readVarint
    let members ← loadMembers fuel count [] []
    pure (.object members)

/-- The loop `while (count--)` of `loadSection`, with the name that `readName` keeps across
entries and the members inserted so far. -/
def loadMembers : ℕ → ℕ → List UInt8 → List (List UInt8 × JsonValue) →
    Decoder UInt8 (List (List UInt8 × JsonValue))
  | _, 0, _, sec => pure sec
  | 0, _ + 1, _, _ => Decoder.fail outOfFuel
  | fuel + 1, count + 1, name, sec => do
    let name ← readName name
    let value ← loadEntry fuel
    loadMembers fuel count name (JsonValue.emplace name value sec)

/-- `loadValue(stream, type)`. -/
def loadValue : ℕ → UInt8 → Decoder UInt8 JsonValue
  | 0, _ => Decoder.fail outOfFuel
  | fuel + 1, type =>
    if type = BIN_KV_SERIALIZE_TYPE_OBJECT then loadSection fuel
    else if type = BIN_KV_SERIALIZE_TYPE_ARRAY then loadArray fuel type
    else match loadScalar type with
      | some read => read
      | none => Decoder.fail unknownDataType

/-- `loadEntry`: a type byte, the flag `0x80` marking an array of the type without it. -/
def loadEntry : ℕ → Decoder UInt8 JsonValue
  | 0 => Decoder.fail outOfFuel
  | fuel + 1 => do
    let type ← readByte
    if type &&& BIN_KV_SERIALIZE_FLAG_ARRAY ≠ 0 then loadArray fuel (type &&& ~~~BIN_KV_SERIALIZE_FLAG_ARRAY)
    else loadValue fuel type

/-- `loadArray(stream, itemType)`: a varint count of values of the item type. -/
def loadArray : ℕ → UInt8 → Decoder UInt8 JsonValue
  | 0, _ => Decoder.fail outOfFuel
  | fuel + 1, itemType => do
    let count ← readVarint
    let values ← loadItems fuel itemType count []
    pure (.array values)

/-- The loop `while (count--)` of `loadArray`, each value pushed to the back. -/
def loadItems : ℕ → UInt8 → ℕ → List JsonValue → Decoder UInt8 (List JsonValue)
  | _, _, 0, arr => pure arr
  | 0, _, _ + 1, _ => Decoder.fail outOfFuel
  | fuel + 1, itemType, count + 1, arr => do
    let value ← loadValue fuel itemType
    loadItems fuel itemType count (arr ++ [value])

end

/-! ## The storage -/

/-- `readPod<KVBinaryStorageBlockHeader>`: the two signatures and the version, packed. -/
def readHeader : Decoder UInt8 KVBinaryStorageBlockHeader := do
  let signatureA ← readPod 4
  let signatureB ← readPod 4
  let ver ← readByte
  pure ⟨signatureA, signatureB, ver⟩

/-- Three units of fuel for each byte of the section. -/
def sectionFuel (input : List UInt8) : ℕ := 3 * input.length + 1

/-- `loadSection` with the fuel of its input. -/
def loadStorageSection : Decoder UInt8 JsonValue := fun input => loadSection (sectionFuel input) input

/-- `parseBinary(stream)`: the header checked, then the root section. -/
def parseBinary : Decoder UInt8 JsonValue := do
  let hdr ← readHeader
  if hdr.signatureA ≠ PORTABLE_STORAGE_SIGNATUREA ∨ hdr.signatureB ≠ PORTABLE_STORAGE_SIGNATUREB then
    Decoder.fail "Invalid binary storage signature"
  else if hdr.ver ≠ PORTABLE_STORAGE_FORMAT_VER then Decoder.fail "Unknown binary storage format version"
  else loadStorageSection

end KVBinaryInputStreamSerializer

end Nox.CryptoNote
