import Nox.Proofs.Serialization.JsonSerialization

/-! # The JSON text of a value, read back

`JsonValue::fromString(v.toString())` succeeds for every value whose strings and keys have no quote
and no backslash and which holds no `REAL`. It returns `readBack v`: `readChar` reads with
`in >> c`, which skips white space inside string tokens too, so each string and key comes back
without its white space. Space is not a control character, so a string such as `My Friend`, which
the claim admits, is read back as `MyFriend`; for values whose keys are in order, as in every
`std::map`, the value comes back as it was exactly when no string or key has white space. An
address book goes through the same reader: `loadFromJson` succeeds on `storeToJson(book)` and
appends the entries with the white space of their strings removed, and the loaded book equals the
stored one under `operator==` exactly when no friendly name has white space.
-/

namespace Nox.CryptoNote

open Nox.Common Nox.Common.JsonValue

theorem json_round_trip_without_spaces :
    (∀ v : JsonValue, printable v = true → JsonValue.fromString v.toString = .ok (readBack v)) ∧
      (∀ v : JsonValue, wellFormed v = true → spaceless v = true → readBack v = v) ∧
      (∀ (uninitialized : Bool) (v book : AddressBook), (∀ entry ∈ book, entry.unquoted = true) →
        loadFromJson uninitialized v (storeToJson book) = (true, v ++ book.map AddressBookEntry.withoutSpaces)) ∧
      ∀ book : AddressBook, AddressBook.operatorEq (book.map AddressBookEntry.withoutSpaces) book = true ↔
        ∀ entry ∈ book, solid entry.friendlyName = true :=
  ⟨fun _ clean => fromString_toString clean, readBack_eq_self, loadFromJson_storeToJson,
    operatorEq_withoutSpaces⟩

namespace Scenario

/-- The bytes of an ASCII text. -/
def text (s : String) : List UInt8 := s.toList.map Char.toUInt8

/-- A friendly name with a space in it. -/
def myFriend : List UInt8 := text "My Friend"

/-- An object of one string member, its key without white space. -/
def friendObject : JsonValue := .object [(text "name", .string myFriend)]

/-- A book of one entry named with a space. -/
def friendBook : AddressBook := [⟨myFriend, text "TRTLv1address", [], true⟩]

/-- The parts of the theorem at the object of the friend, at the same object without the space,
and at the book of the friend. -/
theorem json_round_trip_without_spaces_sample :
    printable friendObject = true ∧ JsonValue.fromString friendObject.toString = .ok (readBack friendObject) ∧
      wellFormed (.object [(text "name", .string (text "MyFriend"))]) = true ∧
      spaceless (.object [(text "name", .string (text "MyFriend"))]) = true ∧
      readBack (.object [(text "name", .string (text "MyFriend"))]) = .object [(text "name", .string (text "MyFriend"))] ∧
      (∀ entry ∈ friendBook, entry.unquoted = true) ∧
      loadFromJson false [] (storeToJson friendBook) = (true, [] ++ friendBook.map AddressBookEntry.withoutSpaces) := by
  have printed : printable friendObject = true := by decide
  have formed : wellFormed (.object [(text "name", .string (text "MyFriend"))]) = true := by decide
  have solidText : spaceless (.object [(text "name", .string (text "MyFriend"))]) = true := by decide
  have cleanBook : ∀ entry ∈ friendBook, entry.unquoted = true := by decide
  exact ⟨printed, json_round_trip_without_spaces.1 _ printed, formed, solidText,
    json_round_trip_without_spaces.2.1 _ formed solidText, cleanBook,
    json_round_trip_without_spaces.2.2.1 false [] friendBook cleanBook⟩

/-- The string `My Friend` has no quote, no backslash and no control character, yet it is read back
as `MyFriend`; and the book of the friend is loaded with the friendly name `MyFriend`, which
`operator==` tells apart from the stored one, whatever the uninitialized flag holds. -/
theorem friendly_name_loses_space :
    (∀ c ∈ myFriend, c ≠ '"'.toUInt8 ∧ c ≠ '\\'.toUInt8 ∧ 0x20 ≤ c ∧ c ≠ 0x7f) ∧
      JsonValue.fromString (JsonValue.string myFriend).toString = .ok (.string (text "MyFriend")) ∧
      JsonValue.fromString (JsonValue.string myFriend).toString ≠ .ok (.string myFriend) ∧
      ∀ uninitialized : Bool, loadFromJson uninitialized [] (storeToJson friendBook) =
          (true, [⟨text "MyFriend", text "TRTLv1address", [], true⟩]) ∧
        AddressBook.operatorEq (loadFromJson uninitialized [] (storeToJson friendBook)).2 friendBook = false := by
  -- the reader is not run here: the round trips give its results, and only the removal of the
  -- space is computed
  have read : JsonValue.fromString (JsonValue.string myFriend).toString = .ok (.string (text "MyFriend")) := by
    rw [fromString_toString (by decide)]
    decide
  have loaded : ∀ uninitialized : Bool, loadFromJson uninitialized [] (storeToJson friendBook) =
      (true, [⟨text "MyFriend", text "TRTLv1address", [], true⟩]) := by
    intro uninitialized
    rw [loadFromJson_storeToJson uninitialized [] friendBook (by decide)]
    decide
  refine ⟨by decide, read, by rw [read]; decide, fun uninitialized => ⟨loaded uninitialized, ?_⟩⟩
  rw [loaded uninitialized]
  decide

end Scenario

end Nox.CryptoNote
