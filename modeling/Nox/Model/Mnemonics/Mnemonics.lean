import Nox.Model.Mnemonics.WordList
import Nox.Model.CryptoNoteCore.BlockTemplate
import Nox.Library.Digits

/-! # Mnemonic seeds: `Mnemonics/Mnemonics.cpp`

A secret key of 32 bytes is written as 25 words of the English word list: each four bytes, read
as a little-endian `uint32_t`, are three words, whose indexes are the value's three digits in
base 1626 with each digit added to the one before it; the 25th word is a checksum, one of the 24
words picked by the CRC32 of their first three letters. Reading a seed back splits the text at
whitespace, lowers each word, checks that it is in the list and that the checksum word is right,
and solves for the value of each triple of words.

A `std::string` is the list of its characters, one `char` each, and `::tolower` and the
whitespace `operator>>` skips are those of the C locale. The CRC32 of `boost::crc_32_type` is a
parameter, a function of the characters it reads. The key the code returns next to an error
message was never written, and is `none` here.
-/

namespace Nox.Mnemonics

open Nox.Crypto

/-- `WordList::English.size()`. -/
def wlLen : ℕ := English.length

/-- The words of the list as the strings the code compares. -/
def englishWords : List (List Char) := English.map String.toList

/-- `WordList::English[w]`: every index the code reads is below the size of the list, so the
empty default is never taken. -/
def englishWord (w : ℕ) : List Char := englishWords.getD w []

/-- `isspace` of the C locale: what `operator>>` skips between words. -/
def isSpace (c : Char) : Bool :=
  c == ' ' || c == '\t' || c == '\n' || c == '\x0B' || c == '\x0C' || c == '\r'

/-- `for (std::string s; stream >> s;) wordsList.push_back(s);`, with `word` the characters of
the word being read, the last first. -/
def extractWords : List Char → List Char → List (List Char)
  | [], [] => []
  | [], word => [word.reverse]
  | c :: rest, word =>
    if isSpace c then
      -- `operator>>` skips the whitespace before a word and stops at the first after it.
      if word.isEmpty then extractWords rest [] else word.reverse :: extractWords rest []
    else extractWords rest (c :: word)

/-- `GetChecksumWord(words)`: the word at the CRC32 of the first three characters of each word,
modulo the count of words. Both callers pass the 24 words of a key, so the default is never
taken. -/
def getChecksumWord (crc32 : List Char → UInt32) (words : List (List Char)) : List Char :=
  let trimmed := words.flatMap (·.take 3)
  words.getD ((crc32 trimmed).toNat % words.length) []

/-- `HasValidChecksum(words)`: the last word is the checksum word of the others. -/
def hasValidChecksum (crc32 : List Char → UInt32) (words : List (List Char)) : Bool :=
  words.getLast? == some (getChecksumWord crc32 words.dropLast)

/-- `GetWordIndexes(words)`: the place of each word in the list, the size of the list where it is
missing. -/
def getWordIndexes (words : List (List Char)) : List ℕ :=
  words.map englishWords.idxOf

/-- The four bytes of a `uint32_t` as `reinterpret_cast<const uint8_t *>` reads them on a
little-endian machine, the lowest first. -/
def uint32Bytes (val : ℕ) : List UInt8 :=
  (Nat.fixedDigits 256 4 val).reverse.map UInt8.ofNat

/-- The `uint32_t` of four bytes in memory, the lowest first. -/
def bytesUint32 (bytes : List UInt8) : ℕ :=
  Nat.ofDigits 256 (bytes.map UInt8.toNat)

/-- The loop `for (size_t i = 0; i < words.size() - 1; i += 3)` of `MnemonicToPrivateKey` over the
indexes of the 25 words, three at a time: the 24 words of the key make eight rounds and the
index of the checksum word is left over. `val` is computed in `size_t`, where it stays below
`wlLen ^ 3 < 2 ^ 64`, and kept in a `uint32_t`. Every index is below `wlLen` here, as each word
was found in the list, so `wlLen - w1` does not wrap. -/
def decodeIndexes : List ℕ → Except String (List UInt8)
  | w1 :: w2 :: w3 :: rest =>
    let val := (w1 + wlLen * ((wlLen - w1 + w2) % wlLen) + wlLen * wlLen * ((wlLen - w2 + w3) % wlLen)) % 2 ^ 32
    if val % wlLen ≠ w1 then .error "Mnemonic seed is invalid!"
    else (uint32Bytes val ++ ·) <$> decodeIndexes rest
  | _ => .ok []

/-- The loop `for (auto &word : words)` of `MnemonicToPrivateKey`: each word is lowered in place
with `::tolower`, and the first that is not in the list stops the loop. -/
def lowerWords : List (List Char) → Except String (List (List Char))
  | [] => .ok []
  | word :: rest =>
    let word := word.map Char.toLower
    if word ∉ englishWords then
      .error ("Mnemonic seed has invalid word - " ++ String.ofList word ++ " is not in the English word list!")
    else (word :: ·) <$> lowerWords rest

/-- The error of a seed that is not 25 words long. -/
def wrongLengthMessage (len : ℕ) : String :=
  let wordPlural := if len = 1 then "word" else "words"
  "Mnemonic seed is wrong length - It should be 25 words " ++ "long, but it is " ++ toString len ++ " " ++
    wordPlural ++ " long!"

/-- `MnemonicToPrivateKey(std::vector<std::string> words)`: an error message and no key, or the
empty message and the key. `std::copy` writes the bytes of the eight rounds over the 32 bytes of
the key. -/
def mnemonicWordsToPrivateKey (crc32 : List Char → UInt32) (words : List (List Char)) :
    String × Option SecretKey :=
  let len := words.length
  if len ≠ 25 then (wrongLengthMessage len, none)
  else
    match lowerWords words with
    | .error message => (message, none)
    | .ok words =>
      if !hasValidChecksum crc32 words then ("Mnemonic seed has incorrect checksum!", none)
      else
        match decodeIndexes (getWordIndexes words) with
        | .error message => (message, none)
        | .ok data =>
          if fits : data.length = 32 then ("", some ⟨⟨data.toArray, fits⟩⟩) else ("", none)

/-- `MnemonicToPrivateKey(const std::string words)`: the words of the text, separated by
whitespace. -/
def mnemonicToPrivateKey (crc32 : List Char → UInt32) (words : List Char) : String × Option SecretKey :=
  mnemonicWordsToPrivateKey crc32 (extractWords words [])

/-- The loop `for (int i = 0; i < 32 - 1; i += 4)` of `PrivateKeyToMnemonic` over the bytes of
the key, four at a time: the three words of each `uint32_t`. -/
def keyWords : List UInt8 → List (List Char)
  | b0 :: b1 :: b2 :: b3 :: rest =>
    let val := bytesUint32 [b0, b1, b2, b3]
    let w1 := val % wlLen
    let w2 := (val / wlLen + w1) % wlLen
    let w3 := (val / wlLen / wlLen + w2) % wlLen
    englishWord w1 :: englishWord w2 :: englishWord w3 :: keyWords rest
  | _ => []

/-- The `words` of `PrivateKeyToMnemonic`: the 24 words of the key and their checksum word. -/
def mnemonicWords (crc32 : List Char → UInt32) (privateKey : SecretKey) : List (List Char) :=
  let words := keyWords privateKey.data.toList
  words ++ [getChecksumWord crc32 words]

/-- `PrivateKeyToMnemonic(privateKey)`: the words joined by single spaces, as the loop that puts
`" "` before every word but the first does. -/
def privateKeyToMnemonic (crc32 : List Char → UInt32) (privateKey : SecretKey) : List Char :=
  [' '].intercalate (mnemonicWords crc32 privateKey)

end Nox.Mnemonics
