import Nox.Model.Serialization.KVBinaryInput

/-! # The writer of `KVBinaryOutputStreamSerializer.cpp`

The writer is a stack machine driven by the calls of `ISerializer`. Each open object has a
`MemoryStream` of its own on `m_objectsStack`, and each open object or array a `Level` on
`m_stack`, holding its name and a count. An object's count is the number of its entries written so
far. An array's count is the size `beginArray` was given, and its level starts in the state
`ArrayPrefix`. The first value written into it, whatever its name, writes the array's name, the
value's type with the array flag, and that size; then the level is an `Array`, and the later values
are written bare. `endArray` counts the array as an entry of the enclosing object only if that
happened, so an array into which nothing was written leaves no trace. `endObject` writes the
object as an entry of its parent, its count and then its stream.

Both vectors are lists here, their back first. The constructor opens the root object. `dump`
writes the header, the root's count and the root's stream.

The source asserts that the stacks are not empty where it takes their back, and `endArray` assumes
a level below the array's; a call that breaks this is undefined in a release build, and the model
stops with `unbalanced` there. A thrown `std::runtime_error` is an error with its message.
-/

namespace Nox.CryptoNote

open LittleEndian (toBytes)

namespace KVBinaryOutputStreamSerializer

/-- `KVBinaryOutputStreamSerializer::State`. -/
inductive State where
  | Root
  | Object
  | ArrayPrefix
  | Array
deriving DecidableEq, Repr

/-- `KVBinaryOutputStreamSerializer::Level`. -/
structure Level where
  state : State
  name : List UInt8
  count : ℕ
deriving DecidableEq, Repr

/-- `Level(nm)`: an object, no entry yet. -/
def Level.object (nm : List UInt8) : Level := ⟨.Object, nm, 0⟩

/-- `Level(nm, arraySize)`: an array whose preamble is not written yet. -/
def Level.array (nm : List UInt8) (arraySize : ℕ) : Level := ⟨.ArrayPrefix, nm, arraySize⟩

end KVBinaryOutputStreamSerializer

open KVBinaryOutputStreamSerializer in
/-- The two stacks of the writer, their back first. -/
structure KVBinaryOutputStreamSerializer where
  objectsStack : List (List UInt8)
  stack : List Level
deriving DecidableEq, Repr

namespace KVBinaryOutputStreamSerializer

/-! ## Helpers of the source file -/

/-- `packVarint<T>(s, type_or, pv)`: `pv << 2` cut to `T`, the mark in its low bits, as `T`'s
`size` bytes. -/
def packVarint (size : ℕ) (typeOr : UInt8) (pv : ℕ) : List UInt8 := toBytes size (pv <<< 2 ||| typeOr.toNat)

/-- What `writeElementName` throws on a name longer than a byte can count. -/
def elementNameTooLong : String := "Element name is too long"

/-- What `writeArraySize` throws on a size above `2 ^ 62 - 1`. -/
def tooBigAmount : String := "failed to pack varint - too big amount"

/-- `writeElementName(s, name)`: a length byte and the name. -/
def writeElementName (name : List UInt8) : Except String (List UInt8) :=
  if name.length > 255 then .error elementNameTooLong else .ok (UInt8.ofNat name.length :: name)

/-- `writeArraySize(s, val)`: the narrowest of one, two, four or eight bytes that holds the size. -/
def writeArraySize (val : ℕ) : Except String (List UInt8) :=
  if val ≤ 63 then .ok (packVarint 1 PORTABLE_RAW_SIZE_MARK_BYTE val)
  else if val ≤ 16383 then .ok (packVarint 2 PORTABLE_RAW_SIZE_MARK_WORD val)
  else if val ≤ 1073741823 then .ok (packVarint 4 PORTABLE_RAW_SIZE_MARK_DWORD val)
  else if val > 4611686018427387903 then .error tooBigAmount
  else .ok (packVarint 8 PORTABLE_RAW_SIZE_MARK_INT64 val)

/-! ## The methods -/

/-- A call the source does only on stacks that hold what it takes from them. -/
def unbalanced : String := "unbalanced call"

/-- The serializer as the constructor leaves it: `beginObject("")` on empty stacks. -/
def new : KVBinaryOutputStreamSerializer := ⟨[[]], [Level.object []]⟩

/-- A write to `stream()`, the stream of the innermost object. -/
def write (bytes : List UInt8) (s : KVBinaryOutputStreamSerializer) : Except String KVBinaryOutputStreamSerializer :=
  match s.objectsStack with
  | [] => .error unbalanced
  | out :: objectsStack => .ok ⟨(out ++ bytes) :: objectsStack, s.stack⟩

/-- `checkArrayPreamble(type)`: the preamble of an array whose first value is being written. -/
def checkArrayPreamble (type : UInt8) (s : KVBinaryOutputStreamSerializer) :
    Except String KVBinaryOutputStreamSerializer :=
  match s.stack with
  | [] => .ok s
  | level :: stack =>
    if level.state = .ArrayPrefix then do
      let name ← writeElementName level.name
      let size ← writeArraySize level.count
      let s ← write (name ++ [BIN_KV_SERIALIZE_FLAG_ARRAY ||| type] ++ size) s
      pure ⟨s.objectsStack, { level with state := .Array } :: stack⟩
    else .ok s

/-- `writeElementPrefix(type, name)`: outside an array, the name and the type, and one more entry.
An empty name writes nothing but is counted all the same. -/
def writeElementPrefix (type : UInt8) (name : List UInt8) (s : KVBinaryOutputStreamSerializer) :
    Except String KVBinaryOutputStreamSerializer := do
  let s ← checkArrayPreamble type s
  match s.stack with
  | [] => .error unbalanced
  | level :: stack =>
    if level.state ≠ .Array then do
      let s ← if name ≠ [] then do
          let nameBytes ← writeElementName name
          write (nameBytes ++ [type]) s
        else pure s
      pure ⟨s.objectsStack, { level with count := level.count + 1 } :: stack⟩
    else pure s

/-- `beginObject(name)`. -/
def beginObject (name : List UInt8) (s : KVBinaryOutputStreamSerializer) :
    Except String KVBinaryOutputStreamSerializer := do
  let s ← checkArrayPreamble BIN_KV_SERIALIZE_TYPE_OBJECT s
  pure ⟨[] :: s.objectsStack, Level.object name :: s.stack⟩

/-- `endObject()`: the object written into its parent's stream as an entry. -/
def endObject (s : KVBinaryOutputStreamSerializer) : Except String KVBinaryOutputStreamSerializer :=
  match s.stack, s.objectsStack with
  | level :: stack, objStream :: objectsStack => do
    let s ← writeElementPrefix BIN_KV_SERIALIZE_TYPE_OBJECT level.name ⟨objectsStack, stack⟩
    let size ← writeArraySize level.count
    write (size ++ objStream) s
  | _, _ => .error unbalanced

/-- `beginArray(size, name)`. -/
def beginArray (size : ℕ) (name : List UInt8) (s : KVBinaryOutputStreamSerializer) :
    Except String KVBinaryOutputStreamSerializer :=
  .ok ⟨s.objectsStack, Level.array name size :: s.stack⟩

/-- `endArray()`: an array whose preamble was written counts as an entry of an enclosing object. -/
def endArray (s : KVBinaryOutputStreamSerializer) : Except String KVBinaryOutputStreamSerializer :=
  match s.stack with
  | level :: parent :: stack =>
    let validArray := level.state = .Array
    if parent.state = .Object ∧ validArray then .ok ⟨s.objectsStack, { parent with count := parent.count + 1 } :: stack⟩
    else .ok ⟨s.objectsStack, parent :: stack⟩
  | _ => .error unbalanced

/-- The overloads of `operator()` on a number: the prefix of its type, then `writePod`. -/
def writeValue (type : UInt8) (pod : List UInt8) (name : List UInt8) (s : KVBinaryOutputStreamSerializer) :
    Except String KVBinaryOutputStreamSerializer := do
  let s ← writeElementPrefix type name s
  write pod s

/-- `operator()(uint8_t&, name)`. -/
def operatorUInt8 (value : UInt8) : List UInt8 → KVBinaryOutputStreamSerializer → Except String KVBinaryOutputStreamSerializer :=
  writeValue BIN_KV_SERIALIZE_TYPE_UINT8 (toBytes 1 value.toNat)

/-- `operator()(uint16_t&, name)`. -/
def operatorUInt16 (value : UInt16) : List UInt8 → KVBinaryOutputStreamSerializer → Except String KVBinaryOutputStreamSerializer :=
  writeValue BIN_KV_SERIALIZE_TYPE_UINT16 (toBytes 2 value.toNat)

/-- `operator()(int16_t&, name)`. -/
def operatorInt16 (value : Int16) : List UInt8 → KVBinaryOutputStreamSerializer → Except String KVBinaryOutputStreamSerializer :=
  writeValue BIN_KV_SERIALIZE_TYPE_INT16 (toBytes 2 value.toBitVec.toNat)

/-- `operator()(uint32_t&, name)`. -/
def operatorUInt32 (value : UInt32) : List UInt8 → KVBinaryOutputStreamSerializer → Except String KVBinaryOutputStreamSerializer :=
  writeValue BIN_KV_SERIALIZE_TYPE_UINT32 (toBytes 4 value.toNat)

/-- `operator()(int32_t&, name)`. -/
def operatorInt32 (value : Int32) : List UInt8 → KVBinaryOutputStreamSerializer → Except String KVBinaryOutputStreamSerializer :=
  writeValue BIN_KV_SERIALIZE_TYPE_INT32 (toBytes 4 value.toBitVec.toNat)

/-- `operator()(int64_t&, name)`. -/
def operatorInt64 (value : Int64) : List UInt8 → KVBinaryOutputStreamSerializer → Except String KVBinaryOutputStreamSerializer :=
  writeValue BIN_KV_SERIALIZE_TYPE_INT64 (toBytes 8 value.toBitVec.toNat)

/-- `operator()(uint64_t&, name)`. -/
def operatorUInt64 (value : UInt64) : List UInt8 → KVBinaryOutputStreamSerializer → Except String KVBinaryOutputStreamSerializer :=
  writeValue BIN_KV_SERIALIZE_TYPE_UINT64 (toBytes 8 value.toNat)

/-- `operator()(bool&, name)`: one byte, `1` for true. -/
def operatorBool (value : Bool) : List UInt8 → KVBinaryOutputStreamSerializer → Except String KVBinaryOutputStreamSerializer :=
  writeValue BIN_KV_SERIALIZE_TYPE_BOOL [if value then 1 else 0]

/-- `operator()(double&, name)`, the double given by the bits of its image. -/
def operatorDouble (bits : UInt64) : List UInt8 → KVBinaryOutputStreamSerializer → Except String KVBinaryOutputStreamSerializer :=
  writeValue BIN_KV_SERIALIZE_TYPE_DOUBLE (toBytes 8 bits.toNat)

/-- `operator()(std::string&, name)`: the size, then the bytes. -/
def operatorString (value : List UInt8) (name : List UInt8) (s : KVBinaryOutputStreamSerializer) :
    Except String KVBinaryOutputStreamSerializer := do
  let s ← writeElementPrefix BIN_KV_SERIALIZE_TYPE_STRING name s
  let size ← writeArraySize value.length
  write (size ++ value) s

/-- `binary(value, size, name)`, also under `binary(std::string&, name)`: a string, and nothing at
all for an empty block. -/
def binary (value : List UInt8) (name : List UInt8) (s : KVBinaryOutputStreamSerializer) :
    Except String KVBinaryOutputStreamSerializer :=
  if value.length > 0 then do
    let s ← writeElementPrefix BIN_KV_SERIALIZE_TYPE_STRING name s
    let size ← writeArraySize value.length
    write (size ++ value) s
  else .ok s

/-- `dump(target)`: the header, the root's count and the root's stream. -/
def dump (s : KVBinaryOutputStreamSerializer) : Except String (List UInt8) :=
  match s.stack, s.objectsStack with
  | [root], [rootStream] => do
    let size ← writeArraySize root.count
    pure (toBytes 4 PORTABLE_STORAGE_SIGNATUREA ++ toBytes 4 PORTABLE_STORAGE_SIGNATUREB ++
      [PORTABLE_STORAGE_FORMAT_VER] ++ size ++ rootStream)
  | _, _ => .error unbalanced

/-! ## Runs of calls -/

/-- The methods of `ISerializer` that the writer implements, with their arguments. -/
inductive Call where
  | beginObject (name : List UInt8)
  | endObject
  | beginArray (size : ℕ) (name : List UInt8)
  | endArray
  | uint8 (value : UInt8) (name : List UInt8)
  | int16 (value : Int16) (name : List UInt8)
  | uint16 (value : UInt16) (name : List UInt8)
  | int32 (value : Int32) (name : List UInt8)
  | uint32 (value : UInt32) (name : List UInt8)
  | int64 (value : Int64) (name : List UInt8)
  | uint64 (value : UInt64) (name : List UInt8)
  | double (bits : UInt64) (name : List UInt8)
  | bool (value : Bool) (name : List UInt8)
  | string (value : List UInt8) (name : List UInt8)
  | binary (value : List UInt8) (name : List UInt8)
deriving DecidableEq, Repr

/-- One call on the serializer. -/
def step (s : KVBinaryOutputStreamSerializer) : Call → Except String KVBinaryOutputStreamSerializer
  | .beginObject name => beginObject name s
  | .endObject => endObject s
  | .beginArray size name => beginArray size name s
  | .endArray => endArray s
  | .uint8 value name => operatorUInt8 value name s
  | .int16 value name => operatorInt16 value name s
  | .uint16 value name => operatorUInt16 value name s
  | .int32 value name => operatorInt32 value name s
  | .uint32 value name => operatorUInt32 value name s
  | .int64 value name => operatorInt64 value name s
  | .uint64 value name => operatorUInt64 value name s
  | .double bits name => operatorDouble bits name s
  | .bool value name => operatorBool value name s
  | .string value name => operatorString value name s
  | .binary value name => binary value name s

/-- The calls in order, the first error stopping the run. -/
def run (calls : List Call) (s : KVBinaryOutputStreamSerializer) : Except String KVBinaryOutputStreamSerializer :=
  calls.foldlM step s

end KVBinaryOutputStreamSerializer

end Nox.CryptoNote
