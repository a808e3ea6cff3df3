import Nox.Model.Serialization.JsonSerialization
import Nox.Proofs.Common.JsonValue

/-! # The address book read back from its JSON text

Each entry is stored as an object of four members, its three strings and its flag, which the
reader rebuilds with the white space of the strings removed. Loading finds every field under its
name, so `loadFromJson` succeeds on the text `storeToJson` writes and appends the entries, each
with the white space of its strings removed. Since `AddressBookEntry::operator==` looks at the
friendly names only, the loaded book equals the stored one exactly when no friendly name has white
space.
-/

namespace Nox.CryptoNote

open Nox.Common Nox.Common.JsonValue JsonInputValueSerializer

/-- An entry whose three strings have no quote and no backslash. -/
def AddressBookEntry.unquoted (entry : AddressBookEntry) : Bool :=
  JsonValue.unquoted entry.friendlyName && JsonValue.unquoted entry.address && JsonValue.unquoted entry.paymentID

/-- The entry with the white space of its three strings removed. -/
def AddressBookEntry.withoutSpaces (entry : AddressBookEntry) : AddressBookEntry :=
  ⟨JsonValue.withoutSpaces entry.friendlyName, JsonValue.withoutSpaces entry.address,
    JsonValue.withoutSpaces entry.paymentID, entry.integratedAddress⟩

/-- The four field names of an entry, in the order of the `std::map`. -/
theorem fieldNames_sorted : [fieldName "address", fieldName "friendlyName", fieldName "integratedAddress",
    fieldName "paymentID"].Pairwise (· < ·) := by
  decide

theorem fieldNames_solid : ∀ name ∈ [fieldName "address", fieldName "friendlyName", fieldName "integratedAddress",
    fieldName "paymentID"], solid name = true := by
  decide

/-- The object of an entry, its members in the order `insertOrPush` leaves them. -/
theorem storeToJsonValue_eq (entry : AddressBookEntry) : entry.storeToJsonValue =
    .object [(fieldName "address", .string entry.address), (fieldName "friendlyName", .string entry.friendlyName),
      (fieldName "integratedAddress", .bool entry.integratedAddress),
      (fieldName "paymentID", .string entry.paymentID)] := by
  have sorted := fieldNames_sorted
  simp only [List.pairwise_cons, List.mem_cons, List.not_mem_nil, forall_eq_or_imp, or_false, forall_eq,
    IsEmpty.forall_iff, implies_true, List.Pairwise.nil, and_true] at sorted
  obtain ⟨⟨addressFriendly, addressIntegrated, addressPayment⟩, ⟨friendlyIntegrated, friendlyPayment⟩,
    integratedPayment⟩ := sorted
  rw [AddressBookEntry.storeToJsonValue, emplace_nil, emplace_cons_of_lt _ _ _ addressFriendly,
    emplace_cons_of_gt _ _ _ addressPayment, emplace_cons_of_gt _ _ _ friendlyPayment, emplace_nil,
    emplace_cons_of_gt _ _ _ addressIntegrated, emplace_cons_of_gt _ _ _ friendlyIntegrated,
    emplace_cons_of_lt _ _ _ integratedPayment]

theorem printable_storeToJsonValue {entry : AddressBookEntry} (clean : entry.unquoted = true) :
    printable entry.storeToJsonValue = true := by
  simp only [AddressBookEntry.unquoted, Bool.and_eq_true] at clean
  have names : ∀ name ∈ [fieldName "address", fieldName "friendlyName", fieldName "integratedAddress",
      fieldName "paymentID"], JsonValue.unquoted name = true := by
    decide
  simp_all [storeToJsonValue_eq, printable, printableMembers]

/-- The reader gives back the object of the entry without the white space of its strings. -/
theorem readBack_storeToJsonValue (entry : AddressBookEntry) :
    readBack entry.storeToJsonValue = entry.withoutSpaces.storeToJsonValue := by
  rw [storeToJsonValue_eq, readBack, readBackMembers_sorted _ [] (by simpa using fieldNames_sorted)
    (by simpa using fieldNames_solid), storeToJsonValue_eq]
  rfl

/-- Every field of an entry is read from the member of its name. -/
theorem loadFromJsonValue_storeToJsonValue (uninitialized : Bool) (entry : AddressBookEntry) :
    AddressBookEntry.loadFromJsonValue uninitialized entry.storeToJsonValue = .ok entry := by
  have names : (fieldName "friendlyName" == fieldName "address") = false ∧
      (fieldName "paymentID" == fieldName "address") = false ∧
      (fieldName "paymentID" == fieldName "friendlyName") = false ∧
      (fieldName "paymentID" == fieldName "integratedAddress") = false ∧
      (fieldName "integratedAddress" == fieldName "address") = false ∧
      (fieldName "integratedAddress" == fieldName "friendlyName") = false := by
    decide
  obtain ⟨friendlyAddress, paymentAddress, paymentFriendly, paymentIntegrated, integratedAddress,
    integratedFriendly⟩ := names
  simp [storeToJsonValue_eq, AddressBookEntry.loadFromJsonValue, readStringMember, readBoolMember, List.lookup,
    friendlyAddress, paymentAddress, paymentFriendly, paymentIntegrated, integratedAddress, integratedFriendly,
    getString, getBool]
  rfl

/-- The loop appends every entry of a stored book and ends without an exception. -/
theorem loadEntries_storeToJsonValue (uninitialized : Bool) (book : AddressBook) :
    ∀ v : AddressBook, loadEntries uninitialized (book.map AddressBookEntry.storeToJsonValue) v = (v ++ book, .ok ()) := by
  induction book with
  | nil => simp [loadEntries]
  | cons entry book ih =>
    intro v
    rw [List.map_cons, loadEntries, loadFromJsonValue_storeToJsonValue]
    dsimp only
    rw [ih]
    simp

theorem printableValues_storeToJsonValue : ∀ {book : AddressBook}, (∀ entry ∈ book, entry.unquoted = true) →
    printableValues (book.map AddressBookEntry.storeToJsonValue) = true
  | [], _ => rfl
  | entry :: book, clean => by
    simp only [List.map_cons, printableValues, Bool.and_eq_true]
    exact ⟨printable_storeToJsonValue (clean entry (by simp)),
      printableValues_storeToJsonValue fun other member => clean other (by simp [member])⟩

theorem readBackValues_storeToJsonValue : ∀ book : AddressBook,
    readBackValues (book.map AddressBookEntry.storeToJsonValue) =
      (book.map AddressBookEntry.withoutSpaces).map AddressBookEntry.storeToJsonValue
  | [] => rfl
  | entry :: book => by
    rw [List.map_cons, readBackValues, readBackValues_storeToJsonValue book, readBack_storeToJsonValue]
    rfl

/-- `loadFromJson(v, storeToJson(book))` succeeds and appends the book's entries to `v`, each with
the white space of its strings removed. -/
theorem loadFromJson_storeToJson (uninitialized : Bool) (v book : AddressBook)
    (clean : ∀ entry ∈ book, entry.unquoted = true) :
    loadFromJson uninitialized v (storeToJson book) = (true, v ++ book.map AddressBookEntry.withoutSpaces) := by
  have cleanValue : printable (storeContainerToJsonValue book) = true := by
    simpa [storeContainerToJsonValue, printable] using printableValues_storeToJsonValue clean
  have nonempty : (storeToJson book).isEmpty = false := by
    simp [storeToJson, JsonValue.toString, storeContainerToJsonValue, write]
  rw [loadFromJson, if_neg (by simp [nonempty]), storeToJson, fromString_toString cleanValue]
  simp only [storeContainerToJsonValue, readBack, readBackValues_storeToJsonValue, loadFromJsonValue,
    loadEntries_storeToJsonValue]
  rfl

/-- The loaded book equals the stored one under `operator==` exactly when no friendly name has white
space. -/
theorem operatorEq_withoutSpaces (book : AddressBook) :
    AddressBook.operatorEq (book.map AddressBookEntry.withoutSpaces) book = true ↔
      ∀ entry ∈ book, solid entry.friendlyName = true := by
  have sameName : ∀ entry : AddressBookEntry,
      entry.withoutSpaces.operatorEq entry = true ↔ solid entry.friendlyName = true := by
    intro entry
    rw [AddressBookEntry.operatorEq, beq_iff_eq, ← withoutSpaces_eq_self_iff]
    exact eq_comm
  induction book with
  | nil => simp [AddressBook.operatorEq]
  | cons entry book ih =>
    simp only [AddressBook.operatorEq, List.length_map, beq_self_eq_true, Bool.true_and] at ih ⊢
    simp [ih, sameName]

end Nox.CryptoNote
