import Nox.Model.CryptoNoteCore.WordArithmetic
import Nox.Proofs.Common.IntUtil

/-! # The proof-of-work check is the 256-bit comparison

`check_hash` accepts a hash `H` for a difficulty `d` exactly when `H * d < 2 ^ 256`. The product
of each hash word with the difficulty is a high and a low word; the product of the whole hash
is their sum shifted by words, so it stays below `2 ^ 256` when the top word's product has no high
word and the three middle additions carry nothing out of the top. `cadd` and `cadc` compute those
carries. The argument needs only that `mul` returns the two words of the product, which holds of
the `unsigned __int128` product and of `mul128`.
-/

namespace Nox.CryptoNote

open Nox.Crypto

/-- The hash as the little-endian 256-bit number `check_hash` compares. -/
def hashValue (hash : Hash) : ℕ := Nat.ofDigits 256 (hash.data.toList.map UInt8.toNat)

/-- A multiplication that returns the low and the high word of the product. -/
def MulSpec (mul : UInt64 → UInt64 → UInt64 × UInt64) : Prop :=
  ∀ a b, (mul a b).2.toNat * 2 ^ 64 + (mul a b).1.toNat = a.toNat * b.toNat

theorem mulInt128_spec : MulSpec mulInt128 := by
  intro a b
  have product := Nat.mul_lt_mul'' a.toNat_lt b.toNat_lt
  simp only [mulInt128, UInt64.toNat_ofNat', Nat.shiftRight_eq_div_pow]
  omega

theorem mulFallback_spec : MulSpec mulFallback := IntUtil.mul128_value

theorem toNat_cadd (a b : UInt64) : (cadd a b).toNat = (a.toNat + b.toNat) / 2 ^ 64 := by
  have := a.toNat_lt
  have := b.toNat_lt
  by_cases carry : 2 ^ 64 ≤ a.toNat + b.toNat
  · have set : cadd a b = true := decide_eq_true ((UInt64.add_lt_left_iff a b).mpr carry)
    rw [set, Bool.toNat_true]
    omega
  · have clear : cadd a b = false := decide_eq_false (mt (UInt64.add_lt_left_iff a b).mp carry)
    rw [clear, Bool.toNat_false]
    omega

theorem toNat_cadc (a b : UInt64) (c : Bool) : (cadc a b c).toNat = (a.toNat + b.toNat + c.toNat) / 2 ^ 64 := by
  have := a.toNat_lt
  have := b.toNat_lt
  have := c.toNat_lt
  have flag : cadc a b c = true ↔ 2 ^ 64 ≤ a.toNat + b.toNat + c.toNat := by
    rw [← UInt64.carry_iff]
    simp only [cadc, Bool.or_eq_true, decide_eq_true_eq, Bool.and_eq_true, beq_iff_eq]
    rfl
  by_cases carry : 2 ^ 64 ≤ a.toNat + b.toNat + c.toNat
  · rw [flag.mpr carry, Bool.toNat_true]
    omega
  · rw [Bool.eq_false_iff.mpr (mt flag.mp carry), Bool.toNat_false]
    omega

/-- Each word of the hash is below `2 ^ 64` before it is cast. -/
theorem toNat_hashWord (hash : Hash) (index : ℕ) :
    (hashWord hash index).toNat =
      Nat.ofDigits 256 (((hash.data.toList.drop (8 * index)).take 8).map UInt8.toNat) := by
  have bytes : ∀ x ∈ ((hash.data.toList.drop (8 * index)).take 8).map UInt8.toNat, x < 256 := by
    intro x member
    obtain ⟨byte, -, rfl⟩ := List.mem_map.mp member
    exact byte.toNat_lt
  have fits := Nat.ofDigits_lt_base_pow_length (by norm_num) bytes
  have short : (((hash.data.toList.drop (8 * index)).take 8).map UInt8.toNat).length ≤ 8 := by
    simp
  have bound : (256 : ℕ) ^ (((hash.data.toList.drop (8 * index)).take 8).map UInt8.toNat).length ≤ 2 ^ 64 :=
    calc _ ≤ (256 : ℕ) ^ 8 := Nat.pow_le_pow_right (by norm_num) short
      _ = 2 ^ 64 := by norm_num
  rw [hashWord, UInt64.toNat_ofNat', Nat.mod_eq_of_lt (by omega)]

/-- The hash is its four words, lowest first. -/
theorem hashValue_eq_words (hash : Hash) :
    hashValue hash = (hashWord hash 0).toNat + 2 ^ 64 * ((hashWord hash 1).toNat +
      2 ^ 64 * ((hashWord hash 2).toNat + 2 ^ 64 * (hashWord hash 3).toNat)) := by
  have length : (hash.data.toList.map UInt8.toNat).length = 32 := by simp
  have split (offset next : ℕ) (step : offset + 8 = next) (inside : next ≤ 32) :
      Nat.ofDigits 256 ((hash.data.toList.map UInt8.toNat).drop offset) =
        Nat.ofDigits 256 (((hash.data.toList.map UInt8.toNat).drop offset).take 8) +
          2 ^ 64 * Nat.ofDigits 256 ((hash.data.toList.map UInt8.toNat).drop next) := by
    rw [Nat.ofDigits_take_drop 256 8 _ (by simp only [List.length_drop, length]; omega), List.drop_drop, step]
    norm_num
  have first : Nat.ofDigits 256 (hash.data.toList.map UInt8.toNat) =
      Nat.ofDigits 256 ((hash.data.toList.map UInt8.toNat).drop 0) := by
    rw [List.drop_zero]
  have last : (hash.data.toList.map UInt8.toNat).drop 32 = [] := by simp
  simp only [hashValue, toNat_hashWord, List.map_take, List.map_drop, Nat.mul_zero, Nat.reduceMul]
  rw [first, split 0 8 rfl (by norm_num), split 8 16 rfl (by norm_num), split 16 24 rfl (by norm_num),
    split 24 32 rfl le_rfl, last, Nat.ofDigits_nil, Nat.mul_zero, Nat.add_zero]

/-- `check_hash` over any multiplication that returns the two words of the product accepts
exactly the hashes whose product with the difficulty is below `2 ^ 256`. -/
theorem checkHashWith_eq {mul : UInt64 → UInt64 → UInt64 × UInt64} (spec : MulSpec mul) (hash : Hash)
    (difficulty : UInt64) :
    checkHashWith mul hash difficulty = decide (hashValue hash * difficulty.toNat < 2 ^ 256) := by
  obtain ⟨low0, high0, product0⟩ : ∃ lo hi, mul (hashWord hash 0) difficulty = (lo, hi) := ⟨_, _, rfl⟩
  obtain ⟨low1, high1, product1⟩ : ∃ lo hi, mul (hashWord hash 1) difficulty = (lo, hi) := ⟨_, _, rfl⟩
  obtain ⟨low2, high2, product2⟩ : ∃ lo hi, mul (hashWord hash 2) difficulty = (lo, hi) := ⟨_, _, rfl⟩
  obtain ⟨top, high3, product3⟩ : ∃ lo hi, mul (hashWord hash 3) difficulty = (lo, hi) := ⟨_, _, rfl⟩
  have value0 := spec (hashWord hash 0) difficulty
  have value1 := spec (hashWord hash 1) difficulty
  have value2 := spec (hashWord hash 2) difficulty
  have value3 := spec (hashWord hash 3) difficulty
  rw [product0] at value0
  rw [product1] at value1
  rw [product2] at value2
  rw [product3] at value3
  -- the product of the hash is the sum of the words' products, shifted by words
  have whole : hashValue hash * difficulty.toNat =
      (hashWord hash 0).toNat * difficulty.toNat + 2 ^ 64 * ((hashWord hash 1).toNat * difficulty.toNat) +
        2 ^ 128 * ((hashWord hash 2).toNat * difficulty.toNat) +
        2 ^ 192 * ((hashWord hash 3).toNat * difficulty.toNat) := by
    rw [hashValue_eq_words]
    ring
  dsimp only at value0 value1 value2 value3
  have := low0.toNat_lt
  have := low1.toNat_lt
  have := low2.toNat_lt
  have := top.toNat_lt
  have := high0.toNat_lt
  have := high1.toNat_lt
  have := high2.toNat_lt
  unfold checkHashWith
  rw [product3]
  dsimp only
  by_cases overflow : high3 = 0
  · rw [if_neg (not_not.mpr overflow), product0, product1, product2]
    dsimp only
    rw [overflow, UInt64.toNat_zero, Nat.zero_mul, Nat.zero_add] at value3
    have carry1 := toNat_cadd high0 low1
    have carry2 := toNat_cadc high1 low2 (cadd high0 low1)
    have carry3 := toNat_cadc high2 top (cadc high1 low2 (cadd high0 low1))
    -- the sum stays below `2 ^ 256` exactly when the last addition carries nothing
    cases last : cadc high2 top (cadc high1 low2 (cadd high0 low1))
    · rw [last, Bool.toNat_false] at carry3
      exact (decide_eq_true (by omega)).symm
    · rw [last, Bool.toNat_true] at carry3
      exact (decide_eq_false (by omega)).symm
  · rw [if_pos overflow]
    have positive : 0 < high3.toNat := Nat.pos_of_ne_zero fun zero => overflow (UInt64.toNat_inj.mp zero)
    exact (decide_eq_false (by omega)).symm

/-- `check_hash` is the exact comparison `H * d < 2 ^ 256`, where `unsigned __int128` exists and
on the `mul128` fallback. -/
theorem checkHash_iff_lt (hash : Hash) (difficulty : UInt64) :
    (checkHash hash difficulty = true ↔ hashValue hash * difficulty.toNat < 2 ^ 256) ∧
      (checkHashFallback hash difficulty = true ↔ hashValue hash * difficulty.toNat < 2 ^ 256) := by
  rw [checkHash, checkHashFallback, checkHashWith_eq mulInt128_spec, checkHashWith_eq mulFallback_spec]
  exact ⟨decide_eq_true_iff, decide_eq_true_iff⟩

-- the largest hash passes difficulty 1 only
example : checkHash ⟨Vector.replicate 32 0xFF⟩ 1 = true ∧ checkHashFallback ⟨Vector.replicate 32 0xFF⟩ 2 = false := by
  decide

end Nox.CryptoNote
