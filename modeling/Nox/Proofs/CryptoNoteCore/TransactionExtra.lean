import Nox.Model.CryptoNoteCore.TransactionExtraWriter

/-! # What `writeTransactionExtra` writes, `parseTransactionExtra` reads back

The visitor appends a field's bytes after the extra written so far (`fieldBytes`), and the parse
loop, meeting those bytes with the field's kind not yet seen, pushes the same field and goes on
after them. A list of fields of distinct kinds, each within the visitor's bounds and a padding of
at least one byte only at the end, therefore parses back to itself.
-/

namespace Nox.CryptoNote

open Nox.Common Nox.Serialization Nox.Crypto

/-- The tag byte of the field's kind. -/
def TransactionExtraField.tag : TransactionExtraField → UInt8
  | .padding _ => TX_EXTRA_TAG_PADDING
  | .publicKey _ => TX_EXTRA_TAG_PUBKEY
  | .nonce _ => TX_EXTRA_NONCE
  | .mergeMiningTag _ => TX_EXTRA_MERGE_MINING_TAG

/-- The bytes the `ExtraSerializerVisitor` appends for a field; a padding's first zero is its tag. -/
def fieldBytes : TransactionExtraField → List UInt8
  | .padding field => List.replicate field.size 0
  | .publicKey field => TX_EXTRA_TAG_PUBKEY :: field.publicKey.data.toList
  | .nonce field => TX_EXTRA_NONCE :: UInt8.ofNat field.nonce.length :: field.nonce
  | .mergeMiningTag field =>
    TX_EXTRA_MERGE_MINING_TAG :: outputString (outputVarint field.depth.toNat ++ outputHash field.merkleRoot)

def extraBytes (fields : List TransactionExtraField) : List UInt8 := fields.flatMap fieldBytes

/-- A padding of `1..TX_EXTRA_PADDING_MAX_COUNT` bytes, or a nonce of at most
`TX_EXTRA_NONCE_MAX_COUNT` bytes; a key or a merge-mining tag always fits. -/
def FieldFits : TransactionExtraField → Prop
  | .padding field => 1 ≤ field.size ∧ field.size ≤ TX_EXTRA_PADDING_MAX_COUNT
  | .nonce field => field.nonce.length ≤ TX_EXTRA_NONCE_MAX_COUNT
  | _ => True

theorem fieldBytes_length_pos {field : TransactionExtraField} (fits : FieldFits field) :
    0 < (fieldBytes field).length := by
  cases field with
  | padding field =>
    simp only [FieldFits] at fits
    simp only [fieldBytes, List.length_replicate]
    omega
  | _ => simp [fieldBytes]

@[simp] theorem extraBytes_nil : extraBytes [] = [] := rfl

@[simp] theorem extraBytes_cons (field : TransactionExtraField) (fields : List TransactionExtraField) :
    extraBytes (field :: fields) = fieldBytes field ++ extraBytes fields := rfl

/-- The lists the round trip is about: one field of each kind at most, a padding only last, and
every field within its bounds. -/
structure WellFormedExtra (fields : List TransactionExtraField) : Prop where
  kinds_nodup : (fields.map TransactionExtraField.tag).Nodup
  padding_last : ∀ field ∈ fields.dropLast, field.tag ≠ TX_EXTRA_TAG_PADDING
  fits : ∀ field ∈ fields, FieldFits field

instance : DecidablePred FieldFits := fun field => by
  cases field <;> unfold FieldFits <;> infer_instance

instance (fields : List TransactionExtraField) : Decidable (WellFormedExtra fields) :=
  decidable_of_iff ((fields.map TransactionExtraField.tag).Nodup ∧
      (∀ field ∈ fields.dropLast, field.tag ≠ TX_EXTRA_TAG_PADDING) ∧ ∀ field ∈ fields, FieldFits field)
    ⟨fun ⟨kinds, last, fits⟩ => ⟨kinds, last, fits⟩, fun ⟨kinds, last, fits⟩ => ⟨kinds, last, fits⟩⟩

theorem WellFormedExtra.tail {field : TransactionExtraField} {fields : List TransactionExtraField}
    (wellFormed : WellFormedExtra (field :: fields)) : WellFormedExtra fields where
  kinds_nodup := (List.nodup_cons.mp wellFormed.kinds_nodup).2
  padding_last other member := by
    have nonempty : fields ≠ [] := by
      rintro rfl
      simp at member
    apply wellFormed.padding_last other
    rw [List.dropLast_cons_of_ne_nil nonempty]
    exact List.mem_cons_of_mem _ member
  fits other member := wellFormed.fits other (List.mem_cons_of_mem _ member)

/-- Every later field is of another kind than the first. -/
theorem WellFormedExtra.distinct {field : TransactionExtraField} {fields : List TransactionExtraField}
    (wellFormed : WellFormedExtra (field :: fields)) : ∀ other ∈ fields, field.tag ≠ other.tag := by
  intro other member same
  apply (List.nodup_cons.mp wellFormed.kinds_nodup).1
  rw [same]
  exact List.mem_map_of_mem member

/-- Nothing follows a padding. -/
theorem WellFormedExtra.after_padding {padding : TransactionExtraPadding} {fields : List TransactionExtraField}
    (wellFormed : WellFormedExtra (.padding padding :: fields)) : fields = [] := by
  by_contra nonempty
  apply wellFormed.padding_last (.padding padding) _ rfl
  rw [List.dropLast_cons_of_ne_nil nonempty]
  exact List.mem_cons_self

/-! ## The writer -/

theorem writeTransactionExtraField_eq (extra : List UInt8) {field : TransactionExtraField}
    (fits : FieldFits field) : writeTransactionExtraField extra field = some (extra ++ fieldBytes field) := by
  cases field with
  | padding field =>
    have within : ¬ field.size > TX_EXTRA_PADDING_MAX_COUNT := by
      simp only [FieldFits] at fits
      omega
    rw [writeTransactionExtraField, if_neg within, fieldBytes]
  | publicKey field => rfl
  | nonce field =>
    have within : ¬ field.nonce.length > TX_EXTRA_NONCE_MAX_COUNT := by
      simp only [FieldFits] at fits
      omega
    rw [writeTransactionExtraField, addExtraNonceToTransactionExtra, if_neg within, fieldBytes]
  | mergeMiningTag field => rfl

theorem writeTransactionExtra_eq (extra : List UInt8) {fields : List TransactionExtraField}
    (fits : ∀ field ∈ fields, FieldFits field) :
    writeTransactionExtra extra fields = some (extra ++ extraBytes fields) := by
  induction fields generalizing extra with
  | nil => simp [writeTransactionExtra, extraBytes]
  | cons field fields ih =>
    have rest := ih (extra ++ fieldBytes field) fun other member => fits other (by simp [member])
    simp only [writeTransactionExtra, writeTransactionExtraField_eq extra (fits field (by simp)),
      Option.bind_eq_bind, Option.bind_some, rest, extraBytes_cons, List.append_assoc]

/-! ## The parse loop on written bytes -/

/-- The seen flag of the field's kind. -/
def ExtraSeen.holds (seen : ExtraSeen) : TransactionExtraField → Bool
  | .padding _ => seen.padding
  | .publicKey _ => seen.pubkey
  | .nonce _ => seen.nonce
  | .mergeMiningTag _ => seen.mergeMiningTag

/-- The flags once the loop has pushed the field. -/
def ExtraSeen.mark (seen : ExtraSeen) : TransactionExtraField → ExtraSeen
  | .padding _ => { seen with padding := true }
  | .publicKey _ => { seen with pubkey := true }
  | .nonce _ => { seen with nonce := true }
  | .mergeMiningTag _ => { seen with mergeMiningTag := true }

@[simp] theorem ExtraSeen.holds_default (field : TransactionExtraField) :
    ExtraSeen.holds {} field = false := by
  cases field <;> rfl

theorem ExtraSeen.holds_mark (seen : ExtraSeen) {field other : TransactionExtraField}
    (distinct : field.tag ≠ other.tag) : (seen.mark field).holds other = seen.holds other := by
  cases field <;> cases other <;> first | rfl | exact absurd rfl distinct

/-- The zeros of a padding are read while the count stays within the bound. -/
theorem readPaddingLoop_zeros (size count : ℕ) (bound : size + count ≤ TX_EXTRA_PADDING_MAX_COUNT + 1) :
    readPaddingLoop size (List.replicate count 0) = some (size + count, []) := by
  induction count generalizing size with
  | zero => rfl
  | succ count ih =>
    have within : size ≤ TX_EXTRA_PADDING_MAX_COUNT := by omega
    rw [List.replicate_succ, readPaddingLoop, if_pos within, if_neg (by simp),
      ih (size + 1) (by omega), Nat.add_right_comm, Nat.add_assoc]

theorem mergeMiningTagBytes_length (tag : TransactionExtraMergeMiningTag) :
    (outputVarint tag.depth.toNat ++ outputHash tag.merkleRoot).length ≤ 43 := by
  have varint := writeVarintLoop_length_le 10 tag.depth.toNat
  simp only [List.length_append, outputVarint, writeVarint, outputHash, Vector.length_toList]
  omega

/-- The `"mm_tag"` string of the depth and the root, read by the nested serializer. -/
theorem inputMergeMiningTag_output (tag : TransactionExtraMergeMiningTag) (rest : List UInt8) :
    inputMergeMiningTag (outputString (outputVarint tag.depth.toNat ++ outputHash tag.merkleRoot) ++ rest) =
      .ok (tag, rest) := by
  have length := mergeMiningTagBytes_length tag
  have string := @inputString_output rest "mm_tag" (outputVarint tag.depth.toNat ++ outputHash tag.merkleRoot)
    (by unfold Fits; omega) (Or.inl (by unfold MAX_EXTRA_SIZE; omega))
  have root : inputPod 32 (outputHash tag.merkleRoot) = .ok (tag.merkleRoot.data, []) := by
    simpa [outputHash] using inputPod_output [] tag.merkleRoot.data
  have fields : inputMergeMiningTagFields (outputVarint tag.depth.toNat ++ outputHash tag.merkleRoot) =
      .ok (tag, []) := by
    simp only [inputMergeMiningTagFields]
    rw [Decoder.bind_ok (inputUInt64_output _ _), Decoder.bind_ok root]
    rfl
  rw [inputMergeMiningTag, string]
  dsimp only
  rw [fields]

/-- One field of a kind not seen yet: the loop reads its bytes and pushes it. -/
theorem parseTransactionExtraLoop_field (fuel : ℕ) (seen : ExtraSeen) (fields : List TransactionExtraField)
    {field : TransactionExtraField} {rest : List UInt8} (fresh : seen.holds field = false)
    (fits : FieldFits field) (last : ∀ padding, field = .padding padding → rest = []) :
    parseTransactionExtraLoop (fuel + 1) seen fields (fieldBytes field ++ rest) =
      parseTransactionExtraLoop fuel (seen.mark field) (fields ++ [field]) rest := by
  cases field with
  | padding field =>
    obtain ⟨size⟩ := field
    simp only [FieldFits] at fits
    simp only [ExtraSeen.holds] at fresh
    obtain ⟨count, rfl⟩ : ∃ count, size = count + 1 := ⟨size - 1, by omega⟩
    obtain rfl := last _ rfl
    -- the tag is the first zero, the loop counts it and reads the other `count`
    have zeros := readPaddingLoop_zeros 1 count (by omega)
    have short : ¬ 1 + count > TX_EXTRA_PADDING_MAX_COUNT := by omega
    have isPadding : (0 : UInt8) = TX_EXTRA_TAG_PADDING := rfl
    rw [fieldBytes, List.replicate_succ, List.cons_append, List.append_nil, parseTransactionExtraLoop.eq_3,
      if_pos isPadding, fresh, if_neg Bool.false_ne_true, zeros]
    dsimp only
    rw [if_neg short, Nat.add_comm]
    rfl
  | publicKey field =>
    simp only [ExtraSeen.holds] at fresh
    have notPadding : TX_EXTRA_TAG_PUBKEY ≠ TX_EXTRA_TAG_PADDING := by decide
    rw [fieldBytes, List.cons_append, parseTransactionExtraLoop.eq_3, if_neg notPadding, if_pos rfl, fresh,
      if_neg Bool.false_ne_true, inputPod_output]
    rfl
  | nonce field =>
    simp only [FieldFits] at fits
    simp only [ExtraSeen.holds] at fresh
    have notPadding : TX_EXTRA_NONCE ≠ TX_EXTRA_TAG_PADDING := by decide
    have notKey : TX_EXTRA_NONCE ≠ TX_EXTRA_TAG_PUBKEY := by decide
    have length : (UInt8.ofNat field.nonce.length).toNat = field.nonce.length := by
      rw [UInt8.toNat_ofNat', Nat.mod_eq_of_lt (by unfold TX_EXTRA_NONCE_MAX_COUNT at fits; omega)]
    rw [fieldBytes, List.cons_append, List.cons_append, parseTransactionExtraLoop.eq_3, if_neg notPadding,
      if_neg notKey, if_pos rfl, fresh, if_neg Bool.false_ne_true, readByte_cons]
    dsimp only
    rw [length, readBytes_append]
    rfl
  | mergeMiningTag field =>
    simp only [ExtraSeen.holds] at fresh
    have notPadding : TX_EXTRA_MERGE_MINING_TAG ≠ TX_EXTRA_TAG_PADDING := by decide
    have notKey : TX_EXTRA_MERGE_MINING_TAG ≠ TX_EXTRA_TAG_PUBKEY := by decide
    have notNonce : TX_EXTRA_MERGE_MINING_TAG ≠ TX_EXTRA_NONCE := by decide
    rw [fieldBytes, List.cons_append, parseTransactionExtraLoop.eq_3, if_neg notPadding, if_neg notKey,
      if_neg notNonce, if_pos rfl, fresh, if_neg Bool.false_ne_true, inputMergeMiningTag_output]
    rfl

/-- The run: a well-formed list of fields none of whose kinds has been seen is read back whole,
with fuel for every byte. -/
theorem parseTransactionExtraLoop_extraBytes {fields : List TransactionExtraField}
    (wellFormed : WellFormedExtra fields) (fuel : ℕ) (seen : ExtraSeen) (pushed : List TransactionExtraField)
    (fresh : ∀ field ∈ fields, seen.holds field = false) (enough : (extraBytes fields).length ≤ fuel) :
    parseTransactionExtraLoop fuel seen pushed (extraBytes fields) = (true, pushed ++ fields) := by
  induction fields generalizing fuel seen pushed with
  | nil => cases fuel <;> simp [parseTransactionExtraLoop]
  | cons field fields ih =>
    have fits := wellFormed.fits field List.mem_cons_self
    have positive := fieldBytes_length_pos fits
    simp only [extraBytes_cons, List.length_append] at enough
    obtain ⟨fuel, rfl⟩ : ∃ rest, fuel = rest + 1 := ⟨fuel - 1, by omega⟩
    have last : ∀ padding, field = .padding padding → extraBytes fields = [] := by
      rintro padding rfl
      rw [wellFormed.after_padding]
      rfl
    have freshRest : ∀ other ∈ fields, (seen.mark field).holds other = false := by
      intro other member
      rw [seen.holds_mark (wellFormed.distinct other member)]
      exact fresh other (List.mem_cons_of_mem _ member)
    rw [extraBytes_cons, parseTransactionExtraLoop_field fuel seen pushed (fresh field List.mem_cons_self) fits last,
      ih wellFormed.tail fuel (seen.mark field) (pushed ++ [field]) freshRest (by omega)]
    simp

theorem parseTransactionExtra_extraBytes {fields : List TransactionExtraField}
    (wellFormed : WellFormedExtra fields) : parseTransactionExtra (extraBytes fields) = (true, fields) :=
  parseTransactionExtraLoop_extraBytes wellFormed _ {} [] (fun field _ => ExtraSeen.holds_default field) le_rfl

/-! ## Payment ids and keys -/

theorem getPaymentIdFromTransactionExtraNonce_set (paymentId : Hash) :
    getPaymentIdFromTransactionExtraNonce (setPaymentIdToTransactionExtraNonce paymentId) = some paymentId := by
  have bytes : (⟨paymentId.data.toList.toArray, by simp⟩ : Vector UInt8 32) = paymentId.data :=
    Vector.toArray_inj.mp Vector.toArray_toList
  simp [getPaymentIdFromTransactionExtraNonce, setPaymentIdToTransactionExtraNonce, bytes]

/-- With the id parsed, the payment-id nonce is what the visitor writes for a nonce field. -/
theorem createTxExtraWithPaymentId_eq {paymentIdString : List UInt8} {paymentId : Hash}
    (parsed : parsePaymentId paymentIdString = some paymentId) (extra : List UInt8) :
    createTxExtraWithPaymentId paymentIdString extra =
      writeTransactionExtra extra [.nonce ⟨setPaymentIdToTransactionExtraNonce paymentId⟩] := by
  simp only [createTxExtraWithPaymentId, parsed, writeTransactionExtra, writeTransactionExtraField,
    Option.bind_eq_bind, Option.bind_some]
  cases addExtraNonceToTransactionExtra extra (setPaymentIdToTransactionExtraNonce paymentId) <;> rfl

theorem getPaymentIdFromTxExtra_extraBytes {fields : List TransactionExtraField}
    (wellFormed : WellFormedExtra fields) :
    getPaymentIdFromTxExtra (extraBytes fields) =
      (findNonce fields).bind fun nonce => getPaymentIdFromTransactionExtraNonce nonce.nonce := by
  rw [getPaymentIdFromTxExtra, parseTransactionExtra_extraBytes wellFormed]
  rfl

theorem getTransactionPublicKeyFromExtra_extraBytes {fields : List TransactionExtraField}
    (wellFormed : WellFormedExtra fields) {field : TransactionExtraPublicKey}
    (found : findPublicKey fields = some field) :
    getTransactionPublicKeyFromExtra (extraBytes fields) = field.publicKey := by
  rw [getTransactionPublicKeyFromExtra, parseTransactionExtra_extraBytes wellFormed, found]

end Nox.CryptoNote
