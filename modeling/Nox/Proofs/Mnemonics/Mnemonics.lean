import Nox.Model.Mnemonics.Mnemonics
import Mathlib.Data.List.Chain
import Mathlib.Data.List.GetD
import Mathlib.Data.Char

/-! # Reading a mnemonic seed back

The words of the list are distinct, so the index of each word the encoder picks is the index it
picked; they are lowercase letters, so lowering leaves them as they are and no word holds
whitespace. Each round of the decoder then solves for the `uint32_t` the encoder split into three
indexes (`Nat.chained_places`, as `1626 ^ 3` exceeds `2 ^ 32`), and the checksum word the encoder
appended is the one the decoder computes, whatever the CRC32.

The text is split at whitespace the way it was joined: a word with no whitespace in it is read
whole, and any whitespace after it is skipped (`extractWords_word_gap`).
-/

namespace Nox.Mnemonics

open Nox.Crypto

/-! ## The word list -/

/-- A word of the codec: a nonempty string of lowercase letters. -/
def lowercaseWord (word : List Char) : Bool :=
  !word.isEmpty && word.all fun c => 'a' ≤ c && c ≤ 'z'

/-- The words from place `start` on are lowercase words, each below the next. -/
def WordsFrom (start : ℕ) : Prop :=
  (englishWords.drop start).IsChain (· < ·) ∧ (englishWords.drop start).all lowercaseWord = true

/-- The `count` words from place `start` on are lowercase words, each below the next, the last below
the word after them. -/
def WordsBlock (start count : ℕ) : Prop :=
  ((englishWords.drop start).take (count + 1)).IsChain (· < ·) ∧
    ((englishWords.drop start).take count).all lowercaseWord = true

/-- A list is a chain when its first `n + 1` elements are one and so is the rest from the `n`-th on:
the two pieces share the `n`-th element. -/
theorem isChain_of_take_drop {α : Type} {R : α → α → Prop} {l : List α} {n : ℕ}
    (front : (l.take (n + 1)).IsChain R) (back : (l.drop n).IsChain R) : l.IsChain R := by
  by_cases within : n < l.length
  · have split : l = l.take n ++ [l[n]] ++ l.drop (n + 1) := by
      rw [List.append_assoc, List.singleton_append, ← List.drop_eq_getElem_cons within, List.take_append_drop]
    rw [List.take_succ_eq_append_getElem within] at front
    rw [List.drop_eq_getElem_cons within, ← List.singleton_append] at back
    rw [split]
    exact front.append_overlap back (List.cons_ne_nil _ _)
  · rwa [List.take_of_length_le (by omega)] at front

/-- A block followed by the words after it. -/
theorem wordsFrom_of_block {start count : ℕ} (block : WordsBlock start count)
    (rest : WordsFrom (start + count)) : WordsFrom start := by
  obtain ⟨blockChain, blockLower⟩ := block
  obtain ⟨restChain, restLower⟩ := rest
  rw [← List.drop_drop] at restChain restLower
  refine ⟨isChain_of_take_drop blockChain restChain, ?_⟩
  rw [← List.take_append_drop count (englishWords.drop start), List.all_append, blockLower, restLower,
    Bool.and_self]

/-- A block read on the literals of `WordList::English`, before their characters are taken. -/
theorem wordsBlock_iff {start count : ℕ} : WordsBlock start count ↔
    (((English.drop start).take (count + 1)).map String.toList).IsChain (· < ·) ∧
      (((English.drop start).take count).map String.toList).all lowercaseWord = true := by
  rw [WordsBlock, englishWords, ← List.map_drop, ← List.map_take, ← List.map_take]

/-! The word list is checked in blocks of 271 words, each its own theorem. The kernel reads the
characters of a literal by decoding its UTF-8 bytes, and it checks one theorem at a time: a block
keeps the memory of that decoding to its own words. -/

set_option maxRecDepth 20000 in
theorem wordsBlock_0 : WordsBlock 0 271 := by
  rw [wordsBlock_iff]
  simp only [English, List.drop_zero, List.take_succ_cons, List.take_zero,
    List.map_cons, List.map_nil, String.reduceToList]
  decide

set_option maxRecDepth 20000 in
theorem wordsBlock_271 : WordsBlock 271 271 := by
  rw [wordsBlock_iff]
  simp only [English, List.drop_succ_cons, List.drop_zero, List.take_succ_cons, List.take_zero,
    List.map_cons, List.map_nil, String.reduceToList]
  decide

set_option maxRecDepth 20000 in
theorem wordsBlock_542 : WordsBlock 542 271 := by
  rw [wordsBlock_iff]
  simp only [English, List.drop_succ_cons, List.drop_zero, List.take_succ_cons, List.take_zero,
    List.map_cons, List.map_nil, String.reduceToList]
  decide

set_option maxRecDepth 20000 in
theorem wordsBlock_813 : WordsBlock 813 271 := by
  rw [wordsBlock_iff]
  simp only [English, List.drop_succ_cons, List.drop_zero, List.take_succ_cons, List.take_zero,
    List.map_cons, List.map_nil, String.reduceToList]
  decide

set_option maxRecDepth 20000 in
theorem wordsBlock_1084 : WordsBlock 1084 271 := by
  rw [wordsBlock_iff]
  simp only [English, List.drop_succ_cons, List.drop_zero, List.take_succ_cons, List.take_zero,
    List.map_cons, List.map_nil, String.reduceToList]
  decide

set_option maxRecDepth 20000 in
theorem wordsBlock_1355 : WordsBlock 1355 271 := by
  rw [wordsBlock_iff]
  simp only [English, List.drop_succ_cons, List.drop_zero, List.take_succ_cons, List.take_zero,
    List.map_cons, List.map_nil, String.reduceToList]
  decide

set_option maxRecDepth 20000 in
/-- What the codec needs of the word list, checked over its 1626 words: the count, the words in
increasing order, and each a nonempty string of lowercase letters. -/
theorem englishWords_facts : englishWords.length = 1626 ∧ englishWords.IsChain (· < ·) ∧
    englishWords.all (fun word => !word.isEmpty && word.all fun c => 'a' ≤ c && c ≤ 'z') = true := by
  have length : englishWords.length = 1626 := by
    rw [englishWords, List.length_map]
    rfl
  have past : WordsFrom 1626 := by
    rw [WordsFrom, List.drop_of_length_le (by omega)]
    exact ⟨.nil, rfl⟩
  have all : WordsFrom 0 :=
    wordsFrom_of_block wordsBlock_0 <| wordsFrom_of_block wordsBlock_271 <| wordsFrom_of_block wordsBlock_542 <|
      wordsFrom_of_block wordsBlock_813 <| wordsFrom_of_block wordsBlock_1084 <|
        wordsFrom_of_block wordsBlock_1355 past
  exact ⟨length, all.1, all.2⟩

theorem wlLen_eq : wlLen = 1626 := by
  rw [wlLen, ← englishWords_facts.1, englishWords, List.length_map]

theorem wlLen_pos : 0 < wlLen := by
  rw [wlLen_eq]
  decide

theorem length_englishWords : englishWords.length = wlLen := by
  rw [englishWords, List.length_map, wlLen]

theorem englishWords_nodup : englishWords.Nodup := by
  apply englishWords_facts.2.1.pairwise.imp
  intro word other less same
  exact List.lt_irrefl word (same ▸ less)

theorem mem_englishWords_letters {word : List Char} (member : word ∈ englishWords) :
    word ≠ [] ∧ ∀ c ∈ word, 'a' ≤ c ∧ c ≤ 'z' := by
  have letters := List.all_eq_true.mp englishWords_facts.2.2 word member
  simp only [Bool.and_eq_true, Bool.not_eq_true', List.isEmpty_eq_false_iff, List.all_eq_true,
    decide_eq_true_eq] at letters
  exact letters

theorem englishWord_mem {w : ℕ} (within : w < wlLen) : englishWord w ∈ englishWords := by
  have inside : w < englishWords.length := length_englishWords ▸ within
  rw [englishWord, List.getD_eq_getElem _ _ inside]
  exact List.getElem_mem inside

/-- The index `GetWordIndexes` finds for a word of the list is its place. -/
theorem idxOf_englishWord {w : ℕ} (within : w < wlLen) : englishWords.idxOf (englishWord w) = w := by
  have inside : w < englishWords.length := length_englishWords ▸ within
  rw [englishWord, List.getD_eq_getElem _ _ inside]
  exact englishWords_nodup.idxOf_getElem w inside

/-! ## Letters and whitespace -/

theorem toLower_of_le {c : Char} (letter : 'a' ≤ c) : c.toLower = c := by
  rw [Char.le_def] at letter
  unfold Char.toLower
  rw [dif_neg]
  rintro ⟨-, upper⟩
  exact absurd (UInt32.le_trans letter upper) (by decide)

/-- Whitespace is below the lowercase letters, and `::tolower` keeps it. -/
theorem isSpace_lt {c : Char} (space : isSpace c = true) : c.toLower = c ∧ c < 'a' := by
  simp only [isSpace, Bool.or_eq_true, beq_iff_eq] at space
  rcases space with (((((rfl | rfl) | rfl) | rfl) | rfl) | rfl) <;> decide

/-- A character that lowers to a letter is no whitespace. -/
theorem isSpace_eq_false_of_le_toLower {c : Char} (letter : 'a' ≤ c.toLower) : isSpace c = false := by
  cases space : isSpace c with
  | false => rfl
  | true =>
    obtain ⟨same, below⟩ := isSpace_lt space
    rw [same] at letter
    exact absurd letter (not_le.mpr below)

theorem map_toLower_of_mem {word : List Char} (member : word ∈ englishWords) :
    word.map Char.toLower = word := by
  conv_rhs => rw [← List.map_id word]
  exact List.map_congr_left fun c inWord => toLower_of_le ((mem_englishWords_letters member).2 c inWord).1

/-- A word spelled in any case of a word of the list is a nonempty run of letters. -/
theorem spelled_letters {spelledWord : List Char} (member : spelledWord.map Char.toLower ∈ englishWords) :
    spelledWord ≠ [] ∧ ∀ c ∈ spelledWord, isSpace c = false := by
  obtain ⟨nonempty, letters⟩ := mem_englishWords_letters member
  refine ⟨fun empty => nonempty (by rw [empty, List.map_nil]), fun c inWord => ?_⟩
  exact isSpace_eq_false_of_le_toLower (letters c.toLower (List.mem_map_of_mem inWord)).1

/-! ## Splitting at whitespace -/

/-- A run of characters with no whitespace is pushed onto the word being read. -/
theorem extractWords_append_word : ∀ (word : List Char), (∀ c ∈ word, isSpace c = false) →
    ∀ rest acc, extractWords (word ++ rest) acc = extractWords rest (word.reverse ++ acc)
  | [], _, _, _ => rfl
  | c :: word, letters, rest, acc => by
    rw [List.cons_append, extractWords, if_neg (by simp [letters c List.mem_cons_self]),
      extractWords_append_word word (fun x inWord => letters x (List.mem_cons_of_mem _ inWord)) rest (c :: acc)]
    simp

/-- Whitespace between words is skipped. -/
theorem extractWords_append_gap : ∀ (gap : List Char), (∀ c ∈ gap, isSpace c = true) →
    ∀ rest, extractWords (gap ++ rest) [] = extractWords rest []
  | [], _, _ => rfl
  | c :: gap, spaces, rest => by
    rw [List.cons_append, extractWords, if_pos (spaces c List.mem_cons_self), List.isEmpty_nil, if_pos rfl,
      extractWords_append_gap gap (fun x inGap => spaces x (List.mem_cons_of_mem _ inGap)) rest]

/-- A word and the whitespace after it: the word is read whole and the whitespace skipped, up to
the next word or the end of the text. -/
theorem extractWords_word_gap {word gap rest : List Char} (nonempty : word ≠ [])
    (letters : ∀ c ∈ word, isSpace c = false) (spaces : ∀ c ∈ gap, isSpace c = true)
    (separated : gap = [] → rest = []) :
    extractWords (word ++ gap ++ rest) [] = word :: extractWords rest [] := by
  rw [List.append_assoc, extractWords_append_word word letters, List.append_nil]
  cases gap with
  | nil =>
    -- The word ends the text: it is read at the end of the stream.
    obtain ⟨c, read, split⟩ := List.exists_cons_of_ne_nil (List.reverse_ne_nil_iff.mpr nonempty)
    have spelled : word = (c :: read).reverse := by rw [← split, List.reverse_reverse]
    rw [separated rfl, List.nil_append, split, spelled]
    rfl
  | cons c gap =>
    -- The first whitespace after the word ends it.
    have pending : word.reverse.isEmpty = false := by simpa using nonempty
    rw [List.cons_append, extractWords, if_pos (spaces c List.mem_cons_self), pending, if_neg Bool.false_ne_true,
      List.reverse_reverse,
      extractWords_append_gap gap (fun x inGap => spaces x (List.mem_cons_of_mem _ inGap)) rest]

/-- Words with whitespace before, between and after them, as much as there is, are read back:
`spelled` pairs each word with the whitespace after it, which only the last may lack. -/
theorem extractWords_spaced (leading : List Char) (spelled : List (List Char × List Char))
    (leadingSpaces : ∀ c ∈ leading, isSpace c = true)
    (words : ∀ p ∈ spelled, p.1 ≠ [] ∧ ∀ c ∈ p.1, isSpace c = false)
    (gaps : ∀ p ∈ spelled, ∀ c ∈ p.2, isSpace c = true)
    (separated : ∀ p ∈ spelled.dropLast, p.2 ≠ []) :
    extractWords (leading ++ spelled.flatMap fun p => p.1 ++ p.2) [] = spelled.map Prod.fst := by
  rw [extractWords_append_gap leading leadingSpaces]
  induction spelled with
  | nil => rfl
  | cons first rest ih =>
    obtain ⟨word, gap⟩ := first
    have separatedHere : gap = [] → (rest.flatMap fun p => p.1 ++ p.2) = [] := by
      intro empty
      cases rest with
      | nil => rfl
      | cons next more => exact absurd empty (separated (word, gap) (by simp))
    have restSeparated : ∀ p ∈ rest.dropLast, p.2 ≠ [] := by
      intro p member
      cases rest with
      | nil => simp at member
      | cons next more => exact separated p (by rw [List.dropLast_cons_cons]; exact List.mem_cons_of_mem _ member)
    obtain ⟨nonempty, letters⟩ := words (word, gap) List.mem_cons_self
    rw [List.flatMap_cons]
    dsimp only at nonempty letters ⊢
    rw [extractWords_word_gap nonempty letters (gaps (word, gap) List.mem_cons_self) separatedHere,
      ih (fun p member => words p (List.mem_cons_of_mem _ member))
        (fun p member => gaps p (List.mem_cons_of_mem _ member)) restSeparated]
    rfl

/-- Words joined by single spaces are read back. -/
theorem extractWords_intercalate : ∀ (words : List (List Char)),
    (∀ word ∈ words, word ≠ [] ∧ ∀ c ∈ word, isSpace c = false) →
    extractWords ([' '].intercalate words) [] = words
  | [], _ => rfl
  | [word], letters => by
    obtain ⟨nonempty, noSpace⟩ := letters word List.mem_cons_self
    have single : extractWords (word ++ [] ++ []) [] = word :: extractWords [] [] :=
      extractWords_word_gap nonempty noSpace (by simp) (fun _ => rfl)
    rw [List.append_nil, List.append_nil] at single
    rw [List.intercalate_singleton, single]
    rfl
  | word :: next :: more, letters => by
    obtain ⟨nonempty, noSpace⟩ := letters word List.mem_cons_self
    rw [List.intercalate_cons_cons,
      extractWords_word_gap nonempty noSpace (by simp [isSpace]) (fun space => absurd space (by simp)),
      extractWords_intercalate (next :: more) (fun w member => letters w (List.mem_cons_of_mem _ member))]

/-! ## Lowering and the checksum -/

/-- Words that lower to words of the list pass the loop that lowers them. -/
theorem lowerWords_eq : ∀ (spelled : List (List Char)), (∀ word ∈ spelled, word.map Char.toLower ∈ englishWords) →
    lowerWords spelled = .ok (spelled.map (·.map Char.toLower))
  | [], _ => rfl
  | word :: rest, members => by
    rw [lowerWords, if_neg (not_not.mpr (members word List.mem_cons_self)),
      lowerWords_eq rest (fun w member => members w (List.mem_cons_of_mem _ member))]
    rfl

theorem getChecksumWord_mem (crc32 : List Char → UInt32) {words : List (List Char)} (nonempty : words ≠ []) :
    getChecksumWord crc32 words ∈ words := by
  have inside := Nat.mod_lt (crc32 (words.flatMap (·.take 3))).toNat (List.length_pos_iff.mpr nonempty)
  rw [getChecksumWord, List.getD_eq_getElem _ _ inside]
  exact List.getElem_mem inside

/-- The checksum word appended to words is the one `HasValidChecksum` computes, whatever the
CRC32. -/
theorem hasValidChecksum_append (crc32 : List Char → UInt32) (words : List (List Char)) :
    hasValidChecksum crc32 (words ++ [getChecksumWord crc32 words]) = true := by
  simp [hasValidChecksum]

/-! ## Four bytes and three words -/

theorem bytesUint32_lt {bytes : List UInt8} (four : bytes.length = 4) : bytesUint32 bytes < 2 ^ 32 := by
  have small : ∀ digit ∈ (bytes.map UInt8.toNat).reverse, digit < 256 := by
    intro digit member
    obtain ⟨byte, -, rfl⟩ := List.mem_map.mp (List.mem_reverse.mp member)
    exact UInt8.toNat_lt byte
  have bound := Nat.ofDigits_reverse_lt (by decide) small
  rwa [List.reverse_reverse, List.length_reverse, List.length_map, four] at bound

theorem uint32Bytes_bytesUint32 {bytes : List UInt8} (four : bytes.length = 4) :
    uint32Bytes (bytesUint32 bytes) = bytes := by
  have small : ∀ digit ∈ (bytes.map UInt8.toNat).reverse, digit < 256 := by
    intro digit member
    obtain ⟨byte, -, rfl⟩ := List.mem_map.mp (List.mem_reverse.mp member)
    exact UInt8.toNat_lt byte
  have digits := Nat.fixedDigits_ofDigits small
  rw [List.reverse_reverse, List.length_reverse, List.length_map, four] at digits
  rw [uint32Bytes, bytesUint32, digits, List.reverse_reverse, List.map_map]
  exact List.map_id'' (fun _ => UInt8.ofNat_toNat) bytes

/-- The value the decoder computes from the three indexes the encoder picked for `val`. -/
theorem decode_val {val : ℕ} (small : val < 2 ^ 32) :
    (val % wlLen + wlLen * ((wlLen - val % wlLen + (val / wlLen + val % wlLen) % wlLen) % wlLen) +
      wlLen * wlLen * ((wlLen - (val / wlLen + val % wlLen) % wlLen +
        (val / wlLen / wlLen + (val / wlLen + val % wlLen) % wlLen) % wlLen) % wlLen)) % 2 ^ 32 = val := by
  have cube : val < wlLen ^ 3 := by
    rw [wlLen_eq]
    omega
  rw [Nat.chained_places val wlLen_pos cube, Nat.mod_eq_of_lt small]

theorem length_keyWords : ∀ bytes : List UInt8, (keyWords bytes).length = 3 * (bytes.length / 4)
  | _ :: _ :: _ :: _ :: rest => by
    rw [keyWords, List.length_cons, List.length_cons, List.length_cons, length_keyWords rest]
    simp only [List.length_cons]
    omega
  | [] | [_] | [_, _] | [_, _, _] => by simp [keyWords]

theorem keyWords_mem : ∀ (bytes : List UInt8), ∀ word ∈ keyWords bytes, word ∈ englishWords
  | _ :: _ :: _ :: _ :: rest, word, member => by
    rw [keyWords] at member
    rcases List.mem_cons.mp member with rfl | member
    · exact englishWord_mem (Nat.mod_lt _ wlLen_pos)
    rcases List.mem_cons.mp member with rfl | member
    · exact englishWord_mem (Nat.mod_lt _ wlLen_pos)
    rcases List.mem_cons.mp member with rfl | member
    · exact englishWord_mem (Nat.mod_lt _ wlLen_pos)
    exact keyWords_mem rest word member
  | [], _, member | [_], _, member | [_, _], _, member | [_, _, _], _, member => by
    simp [keyWords] at member

/-- Each round of the decoder gives back the four bytes of the three words the encoder wrote for
them; the index of the checksum word, left over, ends the loop. -/
theorem decodeIndexes_keyWords : ∀ (bytes : List UInt8), bytes.length % 4 = 0 →
    ∀ tail : List (List Char), tail.length < 3 → decodeIndexes (getWordIndexes (keyWords bytes ++ tail)) = .ok bytes
  | b0 :: b1 :: b2 :: b3 :: rest, whole, tail, short => by
    have four : [b0, b1, b2, b3].length = 4 := rfl
    have restWhole : rest.length % 4 = 0 := by
      simp only [List.length_cons] at whole
      omega
    have indexes : getWordIndexes (keyWords (b0 :: b1 :: b2 :: b3 :: rest) ++ tail) =
        bytesUint32 [b0, b1, b2, b3] % wlLen ::
          (bytesUint32 [b0, b1, b2, b3] / wlLen + bytesUint32 [b0, b1, b2, b3] % wlLen) % wlLen ::
          (bytesUint32 [b0, b1, b2, b3] / wlLen / wlLen +
            (bytesUint32 [b0, b1, b2, b3] / wlLen + bytesUint32 [b0, b1, b2, b3] % wlLen) % wlLen) % wlLen ::
          getWordIndexes (keyWords rest ++ tail) := by
      simp only [keyWords, getWordIndexes, List.cons_append, List.map_cons,
        idxOf_englishWord (Nat.mod_lt _ wlLen_pos)]
    rw [indexes, decodeIndexes]
    simp only [decode_val (bytesUint32_lt four), ne_eq, not_true_eq_false, if_false,
      uint32Bytes_bytesUint32 four, decodeIndexes_keyWords rest restWhole tail short]
    rfl
  | [], _, tail, short => by
    change decodeIndexes (getWordIndexes tail) = .ok []
    match tail, short with
    | [], _ | [_], _ | [_, _], _ => rfl
  | [_], whole, _, _ | [_, _], whole, _, _ | [_, _, _], whole, _, _ => by
    simp at whole

/-! ## The words of a key -/

theorem length_mnemonicWords (crc32 : List Char → UInt32) (privateKey : SecretKey) :
    (mnemonicWords crc32 privateKey).length = 25 := by
  rw [mnemonicWords, List.length_append, length_keyWords, Vector.length_toList]
  rfl

theorem mnemonicWords_mem (crc32 : List Char → UInt32) (privateKey : SecretKey) :
    ∀ word ∈ mnemonicWords crc32 privateKey, word ∈ englishWords := by
  intro word member
  rw [mnemonicWords, List.mem_append, List.mem_singleton] at member
  rcases member with member | rfl
  · exact keyWords_mem _ word member
  · have nonempty : keyWords privateKey.data.toList ≠ [] := by
      rw [← List.length_pos_iff, length_keyWords, Vector.length_toList]
      decide
    exact keyWords_mem _ _ (getChecksumWord_mem crc32 nonempty)

/-- The words of a key are already lowercase. -/
theorem map_toLower_mnemonicWords (crc32 : List Char → UInt32) (privateKey : SecretKey) :
    (mnemonicWords crc32 privateKey).map (·.map Char.toLower) = mnemonicWords crc32 privateKey := by
  conv_rhs => rw [← List.map_id (mnemonicWords crc32 privateKey)]
  exact List.map_congr_left fun word member => map_toLower_of_mem (mnemonicWords_mem crc32 privateKey word member)

theorem mnemonicWords_letters (crc32 : List Char → UInt32) (privateKey : SecretKey) :
    ∀ word ∈ mnemonicWords crc32 privateKey, word ≠ [] ∧ ∀ c ∈ word, isSpace c = false := by
  intro word member
  have lowercase := mnemonicWords_mem crc32 privateKey word member
  apply spelled_letters
  rw [map_toLower_of_mem lowercase]
  exact lowercase

/-- Words that lower to the words of a key are read back to the key. -/
theorem mnemonicWordsToPrivateKey_eq (crc32 : List Char → UInt32) (privateKey : SecretKey)
    (spelled : List (List Char)) (lowered : spelled.map (·.map Char.toLower) = mnemonicWords crc32 privateKey) :
    mnemonicWordsToPrivateKey crc32 spelled = ("", some privateKey) := by
  have len : spelled.length = 25 := by
    have lengths := congrArg List.length lowered
    rwa [List.length_map, length_mnemonicWords] at lengths
  have members : ∀ word ∈ spelled, word.map Char.toLower ∈ englishWords := fun word member =>
    mnemonicWords_mem crc32 privateKey _ (lowered ▸ List.mem_map_of_mem member)
  have decoded : decodeIndexes (getWordIndexes (mnemonicWords crc32 privateKey)) = .ok privateKey.data.toList :=
    decodeIndexes_keyWords _ (by rw [Vector.length_toList]) _ (by simp)
  have checksum := hasValidChecksum_append crc32 (keyWords privateKey.data.toList)
  rw [← mnemonicWords] at checksum
  simp only [mnemonicWordsToPrivateKey, len, ne_eq, not_true_eq_false, if_false, lowerWords_eq spelled members,
    lowered, checksum, Bool.not_true, Bool.false_eq_true, decoded, Vector.length_toList, dif_pos]
  rfl

end Nox.Mnemonics
