import Mathlib.Data.List.GetD
import Nox.Library.Digits
import Nox.Library.Wrapping
import Nox.Proofs.Common.IntUtil
import Nox.Model.Common.Base58

/-! # Base58 reads back what it writes, and writes back what it reads

A block of `size` bytes holds the number `blockValue` below `256 ^ size`, and `encodeBlock` writes
its `encoded_block_sizes[size]` places of base 58, which the table makes wide enough for every
block of that size. `decodeBlock` reads the places back with `mul128` and the carry test, which
refuse exactly the texts whose number passes `2 ^ 64`, and the bound of a partial block refuses
the other numbers no block holds: a block is read back from its text, and a text read as a block
is that block's text. The full blocks and the last one give the same two facts for `encode` and
`decode`.
-/

namespace Nox.Tools.Base58

open Nat (fixedDigits)

/-! ## The tables -/

theorem reverseAlphabet_alphabet : ∀ digit < 58, reverseAlphabet (alphabet.getD digit 0) = digit := by
  decide

set_option maxRecDepth 10000 in
private theorem alphabet_reverseAlphabet_ofNat : ∀ n < 256, 0 ≤ reverseAlphabet (UInt8.ofNat n) →
    reverseAlphabet (UInt8.ofNat n) < 58 ∧
      alphabet.getD (reverseAlphabet (UInt8.ofNat n)).toNat 0 = UInt8.ofNat n := by
  with_unfolding_all decide

/-- A symbol with an index is the alphabet's symbol at that index. -/
theorem alphabet_reverseAlphabet {letter : UInt8} (valid : 0 ≤ reverseAlphabet letter) :
    (reverseAlphabet letter).toNat < 58 ∧ alphabet.getD (reverseAlphabet letter).toNat 0 = letter := by
  have table := alphabet_reverseAlphabet_ofNat letter.toNat letter.toNat_lt
  rw [UInt8.ofNat_toNat] at table
  obtain ⟨below, symbol⟩ := table valid
  exact ⟨by omega, symbol⟩

theorem decodedBlockSize_encodedBlockSizes : ∀ size ≤ 8,
    decodedBlockSize (encodedBlockSizes.getD size 0) = size := by
  decide

private theorem encodedBlockSizes_table : ∀ k < 12, 0 ≤ decodedBlockSize k →
    (decodedBlockSize k).toNat ≤ 8 ∧ encodedBlockSizes.getD (decodedBlockSize k).toNat 0 = k := by
  decide

/-- A text size with a block size is that block size's text size. -/
theorem encodedBlockSizes_decodedBlockSize {k : ℕ} (valid : 0 ≤ decodedBlockSize k) :
    (decodedBlockSize k).toNat ≤ 8 ∧ encodedBlockSizes.getD (decodedBlockSize k).toNat 0 = k := by
  rcases Nat.lt_or_ge k 12 with inside | outside
  · exact encodedBlockSizes_table k inside valid
  · have length : decodedBlockSizesTable.length = 12 := by decide
    have beyond : decodedBlockSize k = -1 := List.getD_eq_default _ _ (by omega)
    omega

/-- The places of a block hold every number of its size. -/
theorem pow_le_pow_encodedBlockSizes : ∀ size ≤ 8, 256 ^ size ≤ 58 ^ encodedBlockSizes.getD size 0 := by
  decide

/-- The text sizes are distinct, at most eleven, and zero only for the empty block. -/
theorem encodedBlockSizes_facts : ∀ size ≤ 8,
    encodedBlockSizes.getD size 0 ≤ 11 ∧ (encodedBlockSizes.getD size 0 = 11 ↔ size = 8) ∧
      (encodedBlockSizes.getD size 0 = 0 ↔ size = 0) := by
  decide

/-! ## A block as a number -/

/-- The number a block holds, its first byte the most significant. -/
def blockValue (block : List UInt8) : ℕ := Nat.ofDigits 256 (block.map UInt8.toNat).reverse

private theorem bytes_lt (block : List UInt8) : ∀ digit ∈ block.map UInt8.toNat, digit < 256 := by
  intro digit member
  obtain ⟨byte, -, rfl⟩ := List.mem_map.mp member
  exact byte.toNat_lt

theorem blockValue_lt (block : List UInt8) : blockValue block < 256 ^ block.length := by
  have bound := Nat.ofDigits_reverse_lt (by norm_num) (bytes_lt block)
  rwa [List.length_map] at bound

theorem blockValue_append (front back : List UInt8) :
    blockValue (front ++ back) = blockValue back + 256 ^ back.length * blockValue front := by
  simp only [blockValue, List.map_append, List.reverse_append, Nat.ofDigits_append, List.length_reverse,
    List.length_map]

theorem blockValue_append_singleton (block : List UInt8) (byte : UInt8) :
    blockValue (block ++ [byte]) = byte.toNat + 256 * blockValue block := by
  simp only [blockValue, List.map_append, List.map_singleton, List.reverse_append, List.reverse_singleton,
    List.singleton_append, Nat.ofDigits_cons]

/-- A block is the bytes of the places of its number. -/
theorem fixedDigits_blockValue (block : List UInt8) :
    (fixedDigits 256 block.length (blockValue block)).map UInt8.ofNat = block := by
  have places := Nat.fixedDigits_ofDigits (bytes_lt block)
  rw [List.length_map] at places
  rw [blockValue, places, List.map_map]
  conv_rhs => rw [← List.map_id block]
  apply List.map_congr_left
  intro byte _
  exact UInt8.ofNat_toNat

theorem uint8beTo64_toNat {block : List UInt8} (short : block.length ≤ 8) :
    (uint8beTo64 block).toNat = blockValue block := by
  induction block using List.reverseRecOn with
  | nil => rfl
  | append_singleton block byte ih =>
    rw [List.length_append, List.length_singleton] at short
    have previous := ih (by omega)
    have below : (uint8beTo64 block).toNat < 2 ^ 56 := calc
      (uint8beTo64 block).toNat = blockValue block := previous
      _ < 256 ^ block.length := blockValue_lt block
      _ ≤ 256 ^ 7 := Nat.pow_le_pow_right (by norm_num) (by omega)
      _ = 2 ^ 56 := by norm_num
    have step : uint8beTo64 (block ++ [byte]) = (uint8beTo64 block <<< 8) ||| byte.toUInt64 := by
      simp only [uint8beTo64, List.foldl_append, List.foldl_cons, List.foldl_nil]
    rw [step, UInt64.toNat_shiftLeft_8_or _ _ below, previous, blockValue_append_singleton]
    omega

/-- `uint_64_to_8be` writes the byte places of the number's low bytes. -/
theorem uint64To8be_eq (num : UInt64) {size : ℕ} (short : size ≤ 8) :
    uint64To8be num size = (fixedDigits 256 size num.toNat).map UInt8.ofNat := by
  rw [uint64To8be, Nat.fixedDigits, List.map_map]
  apply List.map_congr_left
  intro place member
  have inside : place < 8 := by
    rw [List.mem_reverse, List.mem_range] at member
    omega
  apply UInt8.toNat_inj.mp
  rw [UInt64.toNat_shiftRight_toUInt8 num inside, Function.comp_apply, UInt8.toNat_ofNat', Nat.mod_mod]

@[simp] theorem uint64To8be_length (num : UInt64) (size : ℕ) : (uint64To8be num size).length = size := by
  simp [uint64To8be]

theorem blockValue_uint64To8be (num : UInt64) {size : ℕ} (short : size ≤ 8) :
    blockValue (uint64To8be num size) = num.toNat % 256 ^ size := by
  have places : ((fixedDigits 256 size num.toNat).map UInt8.ofNat).map UInt8.toNat =
      fixedDigits 256 size num.toNat := by
    rw [List.map_map]
    conv_rhs => rw [← List.map_id (fixedDigits 256 size num.toNat)]
    apply List.map_congr_left
    intro digit member
    have small := Nat.fixedDigits_lt (by norm_num) size num.toNat digit member
    rw [Function.comp_apply, UInt8.toNat_ofNat', Nat.mod_eq_of_lt small, id]
  rw [blockValue, uint64To8be_eq num short, places, Nat.ofDigits_fixedDigits]

/-! ## A block's text -/

/-- The digits of base 58 a text holds, its first symbol the most significant. -/
def symbolDigits (symbols : List UInt8) : List ℕ := symbols.map fun letter => (reverseAlphabet letter).toNat

theorem symbolDigits_lt {symbols : List UInt8} (valid : ∀ letter ∈ symbols, 0 ≤ reverseAlphabet letter) :
    ∀ digit ∈ symbolDigits symbols, digit < 58 := by
  intro digit member
  obtain ⟨letter, inside, rfl⟩ := List.mem_map.mp member
  exact (alphabet_reverseAlphabet (valid letter inside)).1

theorem map_symbolDigits {symbols : List UInt8} (valid : ∀ letter ∈ symbols, 0 ≤ reverseAlphabet letter) :
    (symbolDigits symbols).map (alphabet.getD · 0) = symbols := by
  rw [symbolDigits, List.map_map]
  conv_rhs => rw [← List.map_id symbols]
  apply List.map_congr_left
  intro letter inside
  exact (alphabet_reverseAlphabet (valid letter inside)).2

theorem symbolDigits_map {digits : List ℕ} (small : ∀ digit ∈ digits, digit < 58) :
    symbolDigits (digits.map (alphabet.getD · 0)) = digits := by
  rw [symbolDigits, List.map_map]
  conv_rhs => rw [← List.map_id digits]
  apply List.map_congr_left
  intro digit inside
  rw [Function.comp_apply, reverseAlphabet_alphabet digit (small digit inside)]
  rfl

theorem reverseAlphabet_map_nonneg {digits : List ℕ} (small : ∀ digit ∈ digits, digit < 58) :
    ∀ letter ∈ digits.map (alphabet.getD · 0), 0 ≤ reverseAlphabet letter := by
  intro letter member
  obtain ⟨digit, inside, rfl⟩ := List.mem_map.mp member
  rw [reverseAlphabet_alphabet digit (small digit inside)]
  omega

/-! ## One block -/

/-- The loop writes the places of `num` leftwards from the last into a block of `alphabet[0]`;
the places it stops before keep their zero. -/
theorem encodeBlockLoop_eq : ∀ (places : ℕ) (num : UInt64) (suffix : List UInt8), num.toNat < 58 ^ places →
    encodeBlockLoop places num (List.replicate places (alphabet.getD 0 0) ++ suffix) =
      (fixedDigits 58 places num.toNat).map (alphabet.getD · 0) ++ suffix := by
  intro places
  induction places with
  | zero =>
    intro num suffix _
    rfl
  | succ places ih =>
    intro num suffix below
    rcases Nat.eq_zero_or_pos num.toNat with zero | positive
    · have stops : ¬ 0 < num := by
        rw [UInt64.lt_iff_toNat_lt, zero]
        exact Nat.lt_irrefl 0
      rw [encodeBlockLoop, if_neg stops, zero, Nat.fixedDigits_of_zero, List.map_replicate]
    · have quotient : (num / 58).toNat < 58 ^ places := by
        rw [UInt64.toNat_div, pow_succ] at *
        exact Nat.div_lt_of_lt_mul (by simpa [Nat.mul_comm] using below)
      have placed : (List.replicate (places + 1) (alphabet.getD 0 0) ++ suffix).set places
          (alphabet.getD (num % 58).toNat 0) =
          List.replicate places (alphabet.getD 0 0) ++ alphabet.getD (num % 58).toNat 0 :: suffix := by
        rw [List.replicate_succ', List.append_assoc, List.singleton_append,
          List.set_append_right _ _ (by simp), List.length_replicate, Nat.sub_self, List.set_cons_zero]
      have moves : 0 < num := by
        rw [UInt64.lt_iff_toNat_lt, UInt64.toNat_zero]
        exact positive
      rw [encodeBlockLoop, if_pos moves, placed, ih _ _ quotient,
        Nat.fixedDigits_succ, List.map_append, List.map_singleton, List.append_assoc, List.singleton_append,
        UInt64.toNat_div, UInt64.toNat_mod]
      rfl

theorem encodeBlock_eq {block : List UInt8} (short : block.length ≤ 8) :
    encodeBlock block =
      (fixedDigits 58 (encodedBlockSizes.getD block.length 0) (blockValue block)).map (alphabet.getD · 0) := by
  have value := uint8beTo64_toNat short
  have below : (uint8beTo64 block).toNat < 58 ^ encodedBlockSizes.getD block.length 0 := by
    rw [value]
    exact lt_of_lt_of_le (blockValue_lt block) (pow_le_pow_encodedBlockSizes _ short)
  have loop := encodeBlockLoop_eq _ _ [] below
  rw [List.append_nil, List.append_nil, value] at loop
  exact loop

theorem encodeBlock_length {block : List UInt8} (short : block.length ≤ 8) :
    (encodeBlock block).length = encodedBlockSizes.getD block.length 0 := by
  rw [encodeBlock_eq short, List.length_map, Nat.fixedDigits_length]

/-- One symbol of `decode_block`: a symbol outside the alphabet is refused. -/
theorem decodeBlockLoop_invalid {letter : UInt8} (invalid : reverseAlphabet letter < 0) (rest : List UInt8)
    (resNum order : UInt64) : decodeBlockLoop (letter :: rest) resNum order = none := by
  rw [decodeBlockLoop, if_pos invalid]

/-- One symbol of `decode_block`: the carry test refuses exactly a sum past the word. -/
theorem decodeBlockLoop_cons {letter : UInt8} (valid : 0 ≤ reverseAlphabet letter) (rest : List UInt8)
    (resNum order : UInt64) :
    decodeBlockLoop (letter :: rest) resNum order =
      if 2 ^ 64 ≤ resNum.toNat + order.toNat * (reverseAlphabet letter).toNat then none
      else decodeBlockLoop rest (UInt64.ofNat (resNum.toNat + order.toNat * (reverseAlphabet letter).toNat))
        (order * 58) := by
  have digitWord : (UInt64.ofNat (reverseAlphabet letter).toNat).toNat = (reverseAlphabet letter).toNat := by
    have := (alphabet_reverseAlphabet valid).1
    rw [UInt64.toNat_ofNat', Nat.mod_eq_of_lt (by omega)]
  have product := IntUtil.mul128_value order (UInt64.ofNat (reverseAlphabet letter).toNat)
  rw [digitWord] at product
  rw [decodeBlockLoop, if_neg (not_lt.mpr valid)]
  generalize IntUtil.mul128 order (UInt64.ofNat (reverseAlphabet letter).toNat) = words at product ⊢
  obtain ⟨low, high⟩ := words
  dsimp only at product ⊢
  have lowBound := low.toNat_lt
  have carry := UInt64.add_lt_left_iff resNum low
  by_cases overflow : 2 ^ 64 ≤ resNum.toNat + order.toNat * (reverseAlphabet letter).toNat
  · have refused : resNum + low < resNum ∨ high ≠ 0 := by
      rcases Nat.eq_zero_or_pos high.toNat with zero | positive
      · exact .inl (carry.mpr (by omega))
      · exact .inr fun isZero => by simp [isZero] at positive
    rw [if_pos refused, if_pos overflow]
  · have highZero : high = 0 := by
      apply UInt64.toNat_inj.mp
      have : high.toNat * 2 ^ 64 < 2 ^ 64 := by omega
      simp only [UInt64.toNat_zero]
      omega
    have sum : resNum + low = UInt64.ofNat (resNum.toNat + order.toNat * (reverseAlphabet letter).toNat) := by
      apply UInt64.toNat_inj.mp
      rw [UInt64.toNat_add_of_lt (by omega), UInt64.toNat_ofNat', Nat.mod_eq_of_lt (by omega)]
      omega
    have accepted : ¬ (resNum + low < resNum ∨ high ≠ 0) := by
      rintro (wrapped | nonzero)
      · exact overflow (by have := carry.mp wrapped; omega)
      · exact nonzero highZero
    rw [if_neg accepted, if_neg overflow, sum]

/-- The loop of `decode_block` from the symbol of place `place`: it succeeds exactly on symbols of
the alphabet whose sum stays in the word, and then returns the sum. -/
theorem decodeBlockLoop_eq_some_iff : ∀ (symbols : List UInt8) (resNum order out : UInt64) (place : ℕ),
    place + symbols.length ≤ 11 → (symbols ≠ [] → order.toNat = 58 ^ place) →
    (decodeBlockLoop symbols resNum order = some out ↔
      (∀ letter ∈ symbols, 0 ≤ reverseAlphabet letter) ∧
        out.toNat = resNum.toNat + 58 ^ place * Nat.ofDigits 58 (symbolDigits symbols)) := by
  intro symbols
  induction symbols with
  | nil =>
    intro resNum order out place _ _
    simp only [decodeBlockLoop, Option.some.injEq, List.not_mem_nil, false_imp_iff, implies_true, true_and,
      symbolDigits, List.map_nil, Nat.ofDigits_nil, Nat.mul_zero, Nat.add_zero, ← UInt64.toNat_inj, eq_comm]
  | cons letter rest ih =>
    intro resNum order out place fits ordered
    have orderValue := ordered (List.cons_ne_nil _ _)
    rw [List.length_cons] at fits
    rcases Int.lt_or_le (reverseAlphabet letter) 0 with invalid | valid
    · rw [decodeBlockLoop_invalid invalid]
      simp only [reduceCtorEq, false_iff, not_and]
      intro allValid
      exact absurd (allValid letter List.mem_cons_self) (not_le.mpr invalid)
    · have digitBelow := (alphabet_reverseAlphabet valid).1
      have value : Nat.ofDigits 58 (symbolDigits (letter :: rest)) =
          (reverseAlphabet letter).toNat + 58 * Nat.ofDigits 58 (symbolDigits rest) := by
        simp only [symbolDigits, List.map_cons, Nat.ofDigits_cons]
      rw [decodeBlockLoop_cons valid, orderValue, List.forall_mem_cons, value]
      split_ifs with overflow
      · simp only [false_iff, not_and]
        intro _ result
        have := out.toNat_lt
        have more : 58 ^ place * (reverseAlphabet letter).toNat ≤
            58 ^ place * ((reverseAlphabet letter).toNat + 58 * Nat.ofDigits 58 (symbolDigits rest)) :=
          Nat.mul_le_mul_left _ (by omega)
        omega
      · have nextOrder : rest ≠ [] → (order * 58).toNat = 58 ^ (place + 1) := by
          intro nonempty
          have longer : 0 < rest.length := List.length_pos_iff.mpr nonempty
          have fitsWord : 58 ^ (place + 1) < 2 ^ 64 := calc
            58 ^ (place + 1) ≤ 58 ^ 10 := Nat.pow_le_pow_right (by norm_num) (by omega)
            _ < 2 ^ 64 := by norm_num
          rw [UInt64.toNat_mul, orderValue, show (58 : UInt64).toNat = 58 from rfl, ← pow_succ,
            Nat.mod_eq_of_lt fitsWord]
        rw [ih _ _ out (place + 1) (by omega) nextOrder, UInt64.toNat_ofNat', Nat.mod_eq_of_lt (by omega)]
        simp only [valid, true_and, pow_succ]
        constructor
        · rintro ⟨restValid, result⟩
          exact ⟨restValid, by rw [result]; ring⟩
        · rintro ⟨restValid, result⟩
          exact ⟨restValid, by rw [result]; ring⟩

theorem one_shiftLeft_toNat {size : ℕ} (short : size < 8) :
    ((1 : UInt64) <<< (8 * size).toUInt64).toNat = 256 ^ size := by
  have shift : ((8 * size).toUInt64).toNat % 64 = 8 * size := by
    rw [Nat.toUInt64_eq, UInt64.toNat_ofNat', Nat.mod_eq_of_lt (by omega), Nat.mod_eq_of_lt (by omega)]
  have fits : 256 ^ size < 2 ^ 64 := calc
    256 ^ size ≤ 256 ^ 7 := Nat.pow_le_pow_right (by norm_num) (by omega)
    _ < 2 ^ 64 := by norm_num
  rw [UInt64.toNat_shiftLeft, shift, UInt64.toNat_one, Nat.one_shiftLeft, pow_mul]
  exact Nat.mod_eq_of_lt fits

/-- A block of one to eight bytes is read back from its text. -/
theorem decodeBlock_encodeBlock {block : List UInt8} (nonempty : block ≠ []) (short : block.length ≤ 8) :
    decodeBlock (encodeBlock block) = some block := by
  have small := @Nat.fixedDigits_lt 58 (by norm_num) (encodedBlockSizes.getD block.length 0) (blockValue block)
  have below : blockValue block < 58 ^ encodedBlockSizes.getD block.length 0 :=
    lt_of_lt_of_le (blockValue_lt block) (pow_le_pow_encodedBlockSizes _ short)
  have word : blockValue block < 2 ^ 64 := calc
    blockValue block < 256 ^ block.length := blockValue_lt block
    _ ≤ 256 ^ 8 := Nat.pow_le_pow_right (by norm_num) short
    _ = 2 ^ 64 := by norm_num
  have size : decodedBlockSize (encodeBlock block).length = block.length := by
    rw [encodeBlock_length short]
    exact decodedBlockSize_encodedBlockSizes _ short
  have loop : decodeBlockLoop (encodeBlock block).reverse 0 1 = some (UInt64.ofNat (blockValue block)) := by
    have placesFit := (encodedBlockSizes_facts _ short).1
    rw [decodeBlockLoop_eq_some_iff _ _ _ _ 0 (by rw [Nat.zero_add, List.length_reverse, encodeBlock_length short]; exact placesFit)
        fun _ => rfl,
      encodeBlock_eq short, ← List.map_reverse]
    have smallReverse : ∀ digit ∈ (fixedDigits 58 (encodedBlockSizes.getD block.length 0) (blockValue block)).reverse,
        digit < 58 := fun digit member => small digit (List.mem_reverse.mp member)
    refine ⟨reverseAlphabet_map_nonneg smallReverse, ?_⟩
    rw [symbolDigits_map smallReverse, Nat.ofDigits_fixedDigits, Nat.mod_eq_of_lt below,
      UInt64.toNat_ofNat', Nat.mod_eq_of_lt word]
    simp
  have positive : ¬ (block.length : ℤ) ≤ 0 := by
    have := List.length_pos_iff.mpr nonempty
    omega
  have fitsSize : ¬ (block.length < fullBlockSize ∧
      (1 : UInt64) <<< (8 * block.length).toUInt64 ≤ UInt64.ofNat (blockValue block)) := by
    rintro ⟨partialBlock, reached⟩
    rw [UInt64.le_iff_toNat_le, one_shiftLeft_toNat partialBlock, UInt64.toNat_ofNat', Nat.mod_eq_of_lt word] at reached
    exact absurd (blockValue_lt block) (not_lt.mpr reached)
  simp only [decodeBlock, size, if_neg positive, loop, Int.toNat_natCast, Option.bind_eq_bind, Option.bind_some,
    if_neg fitsSize, uint64To8be_eq _ short, UInt64.toNat_ofNat', Nat.mod_eq_of_lt word, fixedDigits_blockValue]

/-- A text read as a block is that block's text, of the size the block's size gives. -/
theorem encodeBlock_of_decodeBlock {symbols block : List UInt8} (decoded : decodeBlock symbols = some block) :
    encodeBlock block = symbols ∧ block ≠ [] ∧ block.length ≤ 8 ∧
      encodedBlockSizes.getD block.length 0 = symbols.length := by
  dsimp only [decodeBlock] at decoded
  split_ifs at decoded with nonpositive
  obtain ⟨resNum, loop, checked⟩ := Option.bind_eq_some_iff.mp decoded
  obtain ⟨sizeBound, sizeText⟩ := encodedBlockSizes_decodedBlockSize (le_of_lt (not_le.mp nonpositive))
  set size := (decodedBlockSize symbols.length).toNat with sizeDef
  have positive : 0 < size := by omega
  have placesFit := (encodedBlockSizes_facts size sizeBound).1
  rw [decodeBlockLoop_eq_some_iff _ _ _ _ 0 (by rw [List.length_reverse]; omega) fun _ => rfl] at loop
  obtain ⟨valid, value⟩ := loop
  split_ifs at checked with tooLarge
  cases checked
  have below : resNum.toNat < 256 ^ size := by
    rcases Nat.lt_or_ge size 8 with partialBlock | full
    · rw [not_and, UInt64.le_iff_toNat_le, one_shiftLeft_toNat partialBlock] at tooLarge
      exact not_le.mp (tooLarge partialBlock)
    · have : size = 8 := by omega
      rw [this]
      exact resNum.toNat_lt
  have validSymbols : ∀ letter ∈ symbols, 0 ≤ reverseAlphabet letter :=
    fun letter member => valid letter (List.mem_reverse.mpr member)
  have digits : symbolDigits symbols.reverse = (symbolDigits symbols).reverse := List.map_reverse
  refine ⟨?_, ?_, by simpa using sizeBound, by simpa using sizeText⟩
  · rw [encodeBlock_eq (by simpa using sizeBound), uint64To8be_length, sizeText,
      blockValue_uint64To8be _ sizeBound, Nat.mod_eq_of_lt below, value, digits, UInt64.toNat_zero, Nat.zero_add,
      pow_zero, Nat.one_mul]
    have places := Nat.fixedDigits_ofDigits (symbolDigits_lt validSymbols)
    have length : (symbolDigits symbols).length = symbols.length := List.length_map _
    rw [length] at places
    rw [places, map_symbolDigits validSymbols]
  · rw [← List.length_pos_iff, uint64To8be_length]
    exact positive

/-! ## Whole texts -/

theorem encodeFullBlocks_length : ∀ (count : ℕ) (data : List UInt8), 8 * count ≤ data.length →
    (encodeFullBlocks count data).length = 11 * count := by
  intro count
  induction count with
  | zero =>
    intro data _
    rfl
  | succ count ih =>
    intro data enough
    have first : (data.take fullBlockSize).length = 8 := by
      rw [List.length_take]
      exact Nat.min_eq_left (by simp only [fullBlockSize]; omega)
    have eleven : encodedBlockSizes.getD 8 0 = 11 := rfl
    rw [encodeFullBlocks, List.length_append, encodeBlock_length (by omega), first,
      ih _ (by simp only [List.length_drop, fullBlockSize]; omega), eleven]
    ring

/-- The full blocks are written from the first `8 * count` bytes alone. -/
theorem encodeFullBlocks_append : ∀ (count : ℕ) (data rest : List UInt8), 8 * count ≤ data.length →
    encodeFullBlocks count (data ++ rest) = encodeFullBlocks count data := by
  intro count
  induction count with
  | zero =>
    intro data rest _
    rfl
  | succ count ih =>
    intro data rest enough
    have within : fullBlockSize ≤ data.length := by
      simp only [fullBlockSize]
      omega
    rw [encodeFullBlocks, encodeFullBlocks, List.take_append_of_le_length within,
      List.drop_append_of_le_length within, ih _ _ (by simp only [List.length_drop, fullBlockSize]; omega)]

theorem decodeFullBlocks_encodeFullBlocks : ∀ (count : ℕ) (data rest : List UInt8), 8 * count ≤ data.length →
    decodeFullBlocks count (encodeFullBlocks count data ++ rest) = some (data.take (8 * count)) := by
  intro count
  induction count with
  | zero =>
    intro data rest _
    rfl
  | succ count ih =>
    intro data rest enough
    have first : (data.take fullBlockSize).length = 8 := by
      rw [List.length_take]
      exact Nat.min_eq_left (by simp only [fullBlockSize]; omega)
    have firstText : (encodeBlock (data.take fullBlockSize)).length = fullEncodedBlockSize := by
      rw [encodeBlock_length (by omega), first]
      rfl
    have nonempty : data.take fullBlockSize ≠ [] := by
      rw [← List.length_pos_iff, first]
      omega
    rw [encodeFullBlocks, List.append_assoc, decodeFullBlocks, List.take_left' firstText, List.drop_left' firstText,
      decodeBlock_encodeBlock nonempty (by omega), ih _ _ (by simp only [List.length_drop, fullBlockSize]; omega),
      Nat.mul_succ, Nat.add_comm, List.take_add]
    rfl

/-- The full blocks read from a text are the blocks of its first `11 * count` symbols. -/
theorem encodeFullBlocks_of_decodeFullBlocks : ∀ (count : ℕ) (enc out : List UInt8), 11 * count ≤ enc.length →
    decodeFullBlocks count enc = some out → out.length = 8 * count ∧ encodeFullBlocks count out = enc.take (11 * count) := by
  intro count
  induction count with
  | zero =>
    intro enc out _ decoded
    cases decoded
    exact ⟨rfl, rfl⟩
  | succ count ih =>
    intro enc out enough decoded
    obtain ⟨block, first, decodedRest⟩ := Option.bind_eq_some_iff.mp decoded
    obtain ⟨rest, others, joined⟩ := Option.bind_eq_some_iff.mp decodedRest
    cases joined
    obtain ⟨written, -, short, sized⟩ := encodeBlock_of_decodeBlock first
    have firstLength : (enc.take fullEncodedBlockSize).length = 11 := by
      rw [List.length_take]
      exact Nat.min_eq_left (by simp only [fullEncodedBlockSize]; omega)
    have full : block.length = 8 := ((encodedBlockSizes_facts _ short).2.1).mp (by rw [sized, firstLength])
    obtain ⟨restLength, restWritten⟩ := ih _ rest (by simp only [List.length_drop, fullEncodedBlockSize]; omega) others
    have within : fullBlockSize ≤ block.length := by
      simp only [fullBlockSize]
      omega
    refine ⟨by rw [List.length_append, full, restLength]; ring, ?_⟩
    rw [encodeFullBlocks, List.take_append_of_le_length within, List.drop_append_of_le_length within,
      List.take_of_length_le (by simp only [fullBlockSize]; omega), List.drop_eq_nil_of_le (by simp only [fullBlockSize]; omega),
      List.nil_append, written, restWritten, Nat.mul_succ, Nat.add_comm, List.take_add]
    rfl

/-- `encode` on a nonempty text: the full blocks, then the last block, empty when there is none. -/
theorem encode_eq {data : List UInt8} (nonempty : data ≠ []) :
    encode data = encodeFullBlocks (data.length / 8) data ++ encodeBlock (data.drop (data.length / 8 * 8)) := by
  have eight : fullBlockSize = 8 := rfl
  simp only [encode, if_neg nonempty]
  rw [eight]
  rcases Nat.eq_zero_or_pos (data.length % 8) with noLast | lastBlock
  · have rest : data.drop (data.length / 8 * 8) = [] := List.drop_eq_nil_of_le (by omega)
    rw [if_neg (by omega), rest]
    rfl
  · rw [if_pos lastBlock]

/-- A text of whole blocks has eleven symbols for each eight bytes. -/
theorem encode_length_of_full {data : List UInt8} (full : data.length % 8 = 0) :
    (encode data).length = 11 * (data.length / 8) := by
  rcases eq_or_ne data [] with rfl | nonempty
  · rfl
  have noLast : data.drop (data.length / 8 * 8) = [] := List.drop_eq_nil_of_le (by omega)
  rw [encode_eq nonempty, noLast, List.length_append, encodeFullBlocks_length _ _ (by omega)]
  rfl

/-- A text of at least one full block begins with the symbols of its first block. -/
theorem take_encode {data : List UInt8} (long : 8 ≤ data.length) :
    (encode data).take 11 = encodeBlock (data.take 8) := by
  have first : (data.take fullBlockSize).length = 8 := by simp [fullBlockSize, long]
  obtain ⟨count, blocks⟩ : ∃ count, data.length / 8 = count + 1 := ⟨data.length / 8 - 1, by omega⟩
  rw [encode_eq (List.ne_nil_of_length_pos (by omega)), blocks, encodeFullBlocks, List.append_assoc]
  exact List.take_left' (by rw [encodeBlock_length (by rw [first]), first]; rfl)

/-- Every byte string is read back from its Base58 text. -/
theorem decode_encode (data : List UInt8) : decode (encode data) = some data := by
  rcases eq_or_ne data [] with rfl | nonempty
  · rfl
  · rw [encode_eq nonempty]
    set count := data.length / 8
    set last := data.drop (count * 8)
    have lastLength : last.length = data.length % 8 := by
      rw [List.length_drop]
      omega
    have lastShort : last.length ≤ 8 := by omega
    have fullLength := encodeFullBlocks_length count data (by omega)
    obtain ⟨lastFits, notFull, emptyIff⟩ := encodedBlockSizes_facts _ lastShort
    have lastText := encodeBlock_length lastShort
    have lastBelow : encodedBlockSizes.getD last.length 0 < 11 := by
      have : last.length ≠ 8 := by omega
      omega
    have textLength : (encodeFullBlocks count data ++ encodeBlock last).length =
        11 * count + encodedBlockSizes.getD last.length 0 := by
      rw [List.length_append, fullLength, lastText]
    have textNonempty : encodeFullBlocks count data ++ encodeBlock last ≠ [] := by
      rw [← List.length_pos_iff, textLength]
      have : 0 < count ∨ 0 < last.length := by
        have := List.length_pos_iff.mpr nonempty
        omega
      omega
    have countText : (encodeFullBlocks count data ++ encodeBlock last).length / fullEncodedBlockSize = count := by
      rw [textLength, fullEncodedBlockSize]
      omega
    have lastSize : (encodeFullBlocks count data ++ encodeBlock last).length % fullEncodedBlockSize =
        encodedBlockSizes.getD last.length 0 := by
      rw [textLength, fullEncodedBlockSize]
      omega
    have lastValid : ¬ decodedBlockSize (encodedBlockSizes.getD last.length 0) < 0 := by
      rw [decodedBlockSize_encodedBlockSizes _ lastShort]
      omega
    have lastPart : (encodeFullBlocks count data ++ encodeBlock last).drop (count * fullEncodedBlockSize) =
        encodeBlock last :=
      List.drop_left' (by rw [fullLength, fullEncodedBlockSize, Nat.mul_comm])
    rw [decode, if_neg textNonempty]
    dsimp only
    rw [countText, lastSize, if_neg lastValid, decodeFullBlocks_encodeFullBlocks count data _ (by omega)]
    -- `do` places the last block's read in both branches of its test
    split_ifs with present
    · rw [lastPart, decodeBlock_encodeBlock (List.length_pos_iff.mp (by omega)) lastShort]
      simp only [Option.bind_eq_bind, Option.bind_some, Option.pure_def]
      rw [Nat.mul_comm, List.take_append_drop]
    · have noLast : last = [] := List.length_eq_zero_iff.mp (by omega)
      simp only [Option.bind_eq_bind, Option.bind_some, Option.pure_def, List.append_nil]
      rw [← List.append_nil (List.take (8 * count) data), ← noLast, Nat.mul_comm, List.take_append_drop]

/-- A text `decode` reads is the Base58 text of what it reads: `decode` is injective, and every
size, symbol or block number it accepts is one `encode` writes. -/
theorem encode_of_decode {enc data : List UInt8} (decoded : decode enc = some data) : encode data = enc := by
  rcases eq_or_ne enc [] with rfl | nonempty
  · cases decoded
    rfl
  · have validSize : ¬ decodedBlockSize (enc.length % fullEncodedBlockSize) < 0 := by
      intro invalid
      rw [decode, if_neg nonempty] at decoded
      dsimp only at decoded
      rw [if_pos invalid] at decoded
      cases decoded
    rw [decode, if_neg nonempty] at decoded
    dsimp only at decoded
    rw [if_neg validSize] at decoded
    obtain ⟨full, fullRead, decodedLast⟩ := Option.bind_eq_some_iff.mp decoded
    set count := enc.length / fullEncodedBlockSize
    obtain ⟨fullLength, fullWritten⟩ := encodeFullBlocks_of_decodeFullBlocks count enc full
      (by simp only [count, fullEncodedBlockSize]; omega) fullRead
    have lastWritten : ∃ last, data = full ++ last ∧
        encodeBlock last = enc.drop (count * fullEncodedBlockSize) ∧ last.length < 8 := by
      split_ifs at decodedLast with present
      · obtain ⟨last, lastRead, joined⟩ := Option.bind_eq_some_iff.mp decodedLast
        cases joined
        obtain ⟨written, -, short, sized⟩ := encodeBlock_of_decodeBlock lastRead
        have notFull : encodedBlockSizes.getD last.length 0 ≠ 11 := by
          rw [sized, List.length_drop]
          simp only [count, fullEncodedBlockSize]
          omega
        exact ⟨last, rfl, written, by have := (encodedBlockSizes_facts _ short).2.1; omega⟩
      · cases decodedLast
        have empty : enc.drop (count * fullEncodedBlockSize) = [] := List.drop_eq_nil_of_le (by
          simp only [count, fullEncodedBlockSize] at present ⊢
          omega)
        exact ⟨[], rfl, by rw [empty]; rfl, by simp⟩
    obtain ⟨last, rfl, lastText, lastShort⟩ := lastWritten
    have dataCount : (full ++ last).length / 8 = count := by
      rw [List.length_append, fullLength]
      omega
    have dataLast : (full ++ last).drop (count * 8) = last := by
      rw [Nat.mul_comm, ← fullLength, List.drop_left]
    have dataNonempty : full ++ last ≠ [] := by
      intro empty
      have noFull : full = [] := (List.append_eq_nil_iff.mp empty).1
      have noLast : last = [] := (List.append_eq_nil_iff.mp empty).2
      have countZero : count = 0 := by
        rw [noFull] at fullLength
        simpa using fullLength.symm
      rw [noLast, countZero, Nat.zero_mul, List.drop_zero] at lastText
      exact nonempty (by rw [← lastText]; rfl)
    rw [encode_eq dataNonempty, dataCount, dataLast, encodeFullBlocks_append _ _ _ (by omega), fullWritten,
      lastText, Nat.mul_comm]
    exact List.take_append_drop _ _

end Nox.Tools.Base58
