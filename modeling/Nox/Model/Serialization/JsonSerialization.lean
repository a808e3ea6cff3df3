import Nox.Model.Common.JsonValue

/-! # The address book in JSON: `SerializationTools.h` and the two JSON serializers

zedwallet stores its address book with `storeToJson` and reads it with `loadFromJson`. Each
`AddressBookEntry` goes through its `serialize`, four `KV_MEMBER`s, once into a
`JsonOutputStreamSerializer`, whose root is an `OBJECT` into which `insertOrPush` emplaces each
field under its name, and once out of a `JsonInputValueSerializer`, which wants an `OBJECT` and
reads each field from the member of its name, leaving the field as it was when there is none.
`loadFromJsonValue` appends each entry as soon as it is read, so an exception, which
`loadFromJson` turns into `false`, leaves the entries before it in the book.

`AddressBookEntry::operator==` compares the friendly names alone, and `std::vector`'s `==` compares
the books entry by entry with it. The default `AddressBookEntry()` leaves `integratedAddress`
uninitialized; the model takes the value it happens to hold as a parameter.
-/

namespace Nox.CryptoNote

open Nox.Common

/-- A field name as the bytes of its `Common::StringView`, all ASCII. -/
def fieldName (name : String) : List UInt8 := name.toList.map Char.toUInt8

structure AddressBookEntry where
  friendlyName : List UInt8
  address : List UInt8
  paymentID : List UInt8
  integratedAddress : Bool
deriving Repr, DecidableEq

/-- `AddressBookEntry::operator==(rhs)`: only the friendly names are compared. -/
def AddressBookEntry.operatorEq (lhs rhs : AddressBookEntry) : Bool := rhs.friendlyName == lhs.friendlyName

abbrev AddressBook := List AddressBookEntry

/-- `std::vector<AddressBookEntry>::operator==`: the same size, and the entries equal one by one
under `AddressBookEntry::operator==`. -/
def AddressBook.operatorEq (lhs rhs : AddressBook) : Bool :=
  lhs.length == rhs.length && (lhs.zip rhs).all fun (left, right) => left.operatorEq right

/-! ## Storing -/

/-- `storeToJsonValue(entry)`: `AddressBookEntry::serialize` into a fresh
`JsonOutputStreamSerializer`, each field emplaced into the root object under its name. -/
def AddressBookEntry.storeToJsonValue (entry : AddressBookEntry) : JsonValue :=
  .object ([] |> JsonValue.emplace (fieldName "friendlyName") (.string entry.friendlyName)
    |> JsonValue.emplace (fieldName "address") (.string entry.address)
    |> JsonValue.emplace (fieldName "paymentID") (.string entry.paymentID)
    |> JsonValue.emplace (fieldName "integratedAddress") (.bool entry.integratedAddress))

/-- `storeContainerToJsonValue(cont)` for an address book: an `ARRAY` of the entries' objects. -/
def storeContainerToJsonValue (cont : AddressBook) : JsonValue :=
  .array (cont.map AddressBookEntry.storeToJsonValue)

/-- `storeToJson(v)` for an address book. -/
def storeToJson (v : AddressBook) : List UInt8 := (storeContainerToJsonValue v).toString

/-! ## Loading -/

namespace JsonInputValueSerializer

/-- `operator()(std::string& value, name)` on an object: the string of the member of the name, or
`value` unchanged where there is none. -/
def readStringMember (members : List (List UInt8 × JsonValue)) (name : List UInt8) (value : List UInt8) :
    Except String (List UInt8) :=
  match members.lookup name with
  | some member => member.getString
  | none => .ok value

/-- `operator()(bool& value, name)` on an object. -/
def readBoolMember (members : List (List UInt8 × JsonValue)) (name : List UInt8) (value : Bool) :
    Except String Bool :=
  match members.lookup name with
  | some member => member.getBool
  | none => .ok value

end JsonInputValueSerializer

open JsonInputValueSerializer in
/-- `loadFromJsonValue(entry, js)`: a `JsonInputValueSerializer` over `js`, which must be an
`OBJECT`, then `AddressBookEntry::serialize` on a default entry. -/
def AddressBookEntry.loadFromJsonValue (uninitialized : Bool) (js : JsonValue) : Except String AddressBookEntry := do
  let .object members := js | throw "Serializer doesn't support this type of serialization: Object expected."
  let friendlyName ← readStringMember members (fieldName "friendlyName") []
  let address ← readStringMember members (fieldName "address") []
  let paymentID ← readStringMember members (fieldName "paymentID") []
  let integratedAddress ← readBoolMember members (fieldName "integratedAddress") uninitialized
  pure ⟨friendlyName, address, paymentID, integratedAddress⟩

/-- The loop of `loadFromJsonValue(AddressBook&, js)` over the elements of an array: the book with
the entries appended so far, and the exception that stopped the loop, if one did. -/
def loadEntries (uninitialized : Bool) : List JsonValue → AddressBook → AddressBook × Except String Unit
  | [], v => (v, .ok ())
  | item :: items, v =>
    match AddressBookEntry.loadFromJsonValue uninitialized item with
    | .ok entry => loadEntries uninitialized items (v ++ [entry])
    | .error message => (v, .error message)

/-- `loadFromJsonValue(AddressBook& v, js)`: `js.size()` wants an `ARRAY` or an `OBJECT`, and `js[i]`
an `ARRAY`, so an empty object loads nothing and any other object throws. -/
def loadFromJsonValue (uninitialized : Bool) (v : AddressBook) : JsonValue → AddressBook × Except String Unit
  | .array items => loadEntries uninitialized items v
  | .object [] => (v, .ok ())
  | .object (_ :: _) => (v, .error "JsonValue type is not ARRAY")
  | _ => (v, .error "JsonValue type is not ARRAY or OBJECT")

/-- `loadFromJson(v, buf)`: `true` on an empty text, and `false` when `fromString` or the loading
throws, with the entries read before the exception kept in `v`. -/
def loadFromJson (uninitialized : Bool) (v : AddressBook) (buf : List UInt8) : Bool × AddressBook :=
  if buf.isEmpty then (true, v)
  else
    match JsonValue.fromString buf with
    | .error _ => (false, v)
    | .ok js =>
      let (loaded, result) := loadFromJsonValue uninitialized v js
      (result.isOk, loaded)

end Nox.CryptoNote
