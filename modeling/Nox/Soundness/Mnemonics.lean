import Nox.Proofs.Mnemonics.Mnemonics

/-! # A mnemonic seed gives back its key

A wallet restored from its 25 words must hold the key the words were made from. For every key and
every CRC32, `MnemonicToPrivateKey` reads the text `PrivateKeyToMnemonic` writes back to the key
with no error, and so it does for every text that spells the same words in any mix of upper and
lower case, with any whitespace of the C locale before, between and after them.
-/

namespace Nox.Mnemonics

open Nox.Crypto

/-- The mnemonic of a key is read back to the key, also spelled in any case with any whitespace:
`spelled` pairs each word with the whitespace that follows it, which only the last word may
lack. -/
theorem mnemonicToPrivateKey_privateKeyToMnemonic (crc32 : List Char → UInt32) (privateKey : SecretKey) :
    mnemonicToPrivateKey crc32 (privateKeyToMnemonic crc32 privateKey) = ("", some privateKey) ∧
      ∀ (leading : List Char) (spelled : List (List Char × List Char)),
        (∀ c ∈ leading, isSpace c = true) →
        (∀ p ∈ spelled, ∀ c ∈ p.2, isSpace c = true) →
        (∀ p ∈ spelled.dropLast, p.2 ≠ []) →
        spelled.map (fun p => p.1.map Char.toLower) = mnemonicWords crc32 privateKey →
        mnemonicToPrivateKey crc32 (leading ++ spelled.flatMap fun p => p.1 ++ p.2) = ("", some privateKey) := by
  refine ⟨?_, ?_⟩
  · rw [mnemonicToPrivateKey, privateKeyToMnemonic,
      extractWords_intercalate _ (mnemonicWords_letters crc32 privateKey)]
    exact mnemonicWordsToPrivateKey_eq crc32 privateKey _ (map_toLower_mnemonicWords crc32 privateKey)
  · intro leading spelled leadingSpaces gaps separated lowered
    -- Each spelled word lowers to a word of the key, so it is a run of letters.
    have words : ∀ p ∈ spelled, p.1 ≠ [] ∧ ∀ c ∈ p.1, isSpace c = false := by
      intro p member
      have inKey : p.1.map Char.toLower ∈ spelled.map (fun p => p.1.map Char.toLower) := List.mem_map_of_mem member
      rw [lowered] at inKey
      exact spelled_letters (mnemonicWords_mem crc32 privateKey _ inKey)
    rw [mnemonicToPrivateKey, extractWords_spaced leading spelled leadingSpaces words gaps separated]
    apply mnemonicWordsToPrivateKey_eq
    rw [List.map_map]
    exact lowered

namespace Scenario

/-- A CRC32 that is zero everywhere: the checksum word is then the first word. -/
def zeroCrc (_ : List Char) : UInt32 := 0

/-- The key of 32 zero bytes, whose words are all the first word of the list. -/
def zeroKey : SecretKey := ⟨Vector.replicate 32 0⟩

/-- Whitespace before the first word. -/
def seedLeading : List Char := ['\r', ' ']

/-- The 25 words of the zero key in mixed case, with tabs, spaces and a newline after them. -/
def shoutedSeed : List (List Char × List Char) :=
  List.replicate 24 ("ABBEY".toList, [' ', '\t']) ++ [("aBbEy".toList, ['\n'])]

set_option maxRecDepth 10000 in
theorem mnemonicToPrivateKey_privateKeyToMnemonic_shouted :
    (∀ c ∈ seedLeading, isSpace c = true) ∧ (∀ p ∈ shoutedSeed, ∀ c ∈ p.2, isSpace c = true) ∧
      (∀ p ∈ shoutedSeed.dropLast, p.2 ≠ []) ∧
      shoutedSeed.map (fun p => p.1.map Char.toLower) = mnemonicWords zeroCrc zeroKey ∧
      mnemonicToPrivateKey zeroCrc (seedLeading ++ shoutedSeed.flatMap fun p => p.1 ++ p.2) = ("", some zeroKey) :=
  have leading : ∀ c ∈ seedLeading, isSpace c = true := by decide
  have gaps : ∀ p ∈ shoutedSeed, ∀ c ∈ p.2, isSpace c = true := by decide
  have separated : ∀ p ∈ shoutedSeed.dropLast, p.2 ≠ [] := by decide
  have lowered : shoutedSeed.map (fun p => p.1.map Char.toLower) = mnemonicWords zeroCrc zeroKey := by
    with_unfolding_all decide
  ⟨leading, gaps, separated, lowered,
    (mnemonicToPrivateKey_privateKeyToMnemonic zeroCrc zeroKey).2 seedLeading shoutedSeed leading gaps separated
      lowered⟩

end Scenario

end Nox.Mnemonics
