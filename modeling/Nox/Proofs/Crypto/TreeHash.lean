import Nox.Model.Crypto.TreeHash
import Nox.Library.MerkleTree
import Nox.Library.Bits

/-! # What the loops of `tree-hash.c` compute

A buffer whose first entries hold the list `xs` and whose other entries `rest` are anything is
`xs.map some ++ rest`; every loop of the file keeps its buffers in that form. `hashPairsLoop_run`
says once that the pair loop runs its body as many times as `stop - j`; the two ways it is called,
reading the input array or reading `ints` itself, then each give the level above as
`MerkleTree.pairUp`. From these `tree_hash` computes `MerkleTree.root`.
-/

namespace Nox.Crypto

open Nox.CryptoNote MerkleTree

section Buffers

theorem readEntry_map_some_append {xs : List Hash} (rest : HashBuffer) {k : ℕ} (within : k < xs.length) :
    readEntry (xs.map some ++ rest) k = some xs[k] := by
  rw [readEntry, List.getElem?_append_left (by simpa using within)]
  simp [within]

theorem readEntry_append_of_le {pre : HashBuffer} (rest : HashBuffer) {k : ℕ} (past : pre.length ≤ k) :
    readEntry (pre ++ rest) k = readEntry rest (k - pre.length) := by
  rw [readEntry, readEntry, List.getElem?_append_right past]

theorem readEntry_drop (buffer : HashBuffer) (t k : ℕ) : readEntry (buffer.drop t) k = readEntry buffer (t + k) := by
  rw [readEntry, readEntry, List.getElem?_drop]

theorem writeEntry_map_some_append_cons {xs : List Hash} {k : ℕ} (entry : Option Hash) (rest : HashBuffer)
    (hash : Hash) (at_end : xs.length = k) :
    writeEntry (xs.map some ++ entry :: rest) k hash = some ((xs ++ [hash]).map some ++ rest) := by
  subst at_end
  rw [writeEntry, if_pos (by simp), List.set_append_right _ _ (by simp)]
  simp

theorem copyEntries_eq (source : List Hash) (offset : ℕ) :
    ∀ (n : ℕ) (buffer : HashBuffer), n ≤ buffer.length → offset + n ≤ source.length →
      copyEntries source offset n buffer = some (((source.drop offset).take n).map some ++ buffer.drop n)
  | 0, buffer, _, _ => by simp [copyEntries]
  | n + 1, buffer, fits, within => by
    have entry : buffer.drop n = buffer[n] :: buffer.drop (n + 1) := List.drop_eq_getElem_cons (by omega)
    have length : ((source.drop offset).take n).length = n := by
      rw [List.length_take, List.length_drop]
      omega
    rw [copyEntries, copyEntries_eq source offset n buffer (by omega) (by omega),
      List.getElem?_eq_getElem (show offset + n < source.length by omega)]
    simp only [Option.bind_eq_bind, Option.bind_some]
    rw [entry, writeEntry_map_some_append_cons _ _ _ length,
      List.take_succ_eq_append_getElem (by rw [List.length_drop]; omega), List.getElem_drop]

end Buffers

section Loops

variable (cnFastHash : Vector UInt8 64 → Hash)

/-- The pair loop runs its body `stop - j` times: given the buffer `states t` before each run and
that each run reads two hashes and writes the next state, it ends in the last state. -/
theorem hashPairsLoop_run (read : HashBuffer → ℕ → Option Hash) (stop : ℕ) :
    ∀ (n i j : ℕ) (states : ℕ → HashBuffer), stop - j = n →
      (∀ t < n, ∃ first second, read (states t) (i + 2 * t) = some first ∧
        read (states t) (i + 2 * t + 1) = some second ∧
        writeEntry (states t) (j + t) (hashPair cnFastHash first second) = some (states (t + 1))) →
      hashPairsLoop cnFastHash read stop i j (states 0) = some (i + 2 * n, states n)
  | 0, i, j, states, finished, _ => by
    rw [hashPairsLoop, if_neg (by omega)]
    rfl
  | n + 1, i, j, states, remaining, step => by
    obtain ⟨first, second, readFirst, readSecond, written⟩ := step 0 (by omega)
    have rest := hashPairsLoop_run read stop n (i + 2) (j + 1) (fun t => states (t + 1)) (by omega)
      (fun t below => by
        obtain ⟨first, second, readFirst, readSecond, written⟩ := step (t + 1) (by omega)
        refine ⟨first, second, ?_, ?_, ?_⟩
        · rwa [show i + 2 + 2 * t = i + 2 * (t + 1) by omega]
        · rwa [show i + 2 + 2 * t + 1 = i + 2 * (t + 1) + 1 by omega]
        · rwa [show j + 1 + t = j + (t + 1) by omega])
    rw [hashPairsLoop, if_pos (by omega)]
    simp only [Nat.mul_zero, Nat.add_zero] at readFirst readSecond written
    simp only [readFirst, readSecond, written, Option.bind_eq_bind, Option.bind_some]
    rw [rest, show i + 2 + 2 * n = i + 2 * (n + 1) by omega]

/-- Hashing pairs of the input array into a buffer after the entries `done`: the buffer gains the
level above the pairs read. -/
theorem hashPairsLoop_from_array (hashes done : List Hash) (blank : HashBuffer) (i n : ℕ)
    (fits : n ≤ blank.length) (within : i + 2 * n ≤ hashes.length) :
    hashPairsLoop cnFastHash (fun _ k => hashes[k]?) (done.length + n) i done.length (done.map some ++ blank) =
      some (i + 2 * n, (done ++ pairUp (hashPair cnFastHash) ((hashes.drop i).take (2 * n))).map some ++ blank.drop n) := by
  let states : ℕ → HashBuffer := fun t =>
    (done ++ pairUp (hashPair cnFastHash) ((hashes.drop i).take (2 * t))).map some ++ blank.drop t
  have start : states 0 = done.map some ++ blank := by simp [states]
  rw [← start]
  apply hashPairsLoop_run cnFastHash _ _ n i done.length states (by omega)
  intro t below
  refine ⟨hashes[i + 2 * t], hashes[i + 2 * t + 1], List.getElem?_eq_getElem (by omega),
    List.getElem?_eq_getElem (by omega), ?_⟩
  have entry : blank.drop t = blank[t] :: blank.drop (t + 1) := List.drop_eq_getElem_cons (by omega)
  have length : (done ++ pairUp (hashPair cnFastHash) ((hashes.drop i).take (2 * t))).length = done.length + t := by
    simp only [List.length_append, length_pairUp, List.length_take, List.length_drop]
    omega
  have next := pairUp_take_succ (hashPair cnFastHash) (l := hashes.drop i) (t := t)
    (by rw [List.length_drop]; omega)
  simp only [List.getElem_drop, ← Nat.add_assoc] at next
  simp only [states]
  rw [entry, writeEntry_map_some_append_cons _ _ _ length, next, List.append_assoc]

/-- Hashing pairs of a buffer into itself from its start: entry `t` is written after the entries
`offset + 2 * t` and `offset + 2 * t + 1` are read, which no earlier write has reached. -/
theorem hashPairsLoop_in_place (level : List Hash) (stale : HashBuffer) (offset n : ℕ)
    (within : offset + 2 * n ≤ level.length) :
    hashPairsLoop cnFastHash readEntry n offset 0 (level.map some ++ stale) =
      some (offset + 2 * n,
        (pairUp (hashPair cnFastHash) ((level.drop offset).take (2 * n))).map some ++ (level.map some ++ stale).drop n) := by
  let states : ℕ → HashBuffer := fun t =>
    (pairUp (hashPair cnFastHash) ((level.drop offset).take (2 * t))).map some ++ (level.map some ++ stale).drop t
  have start : states 0 = level.map some ++ stale := by simp [states]
  rw [← start]
  apply hashPairsLoop_run cnFastHash _ _ n offset 0 states (by omega)
  intro t below
  have length : (pairUp (hashPair cnFastHash) ((level.drop offset).take (2 * t))).length = t := by
    simp only [length_pairUp, List.length_take, List.length_drop]
    omega
  have unread : ∀ k (_ : t ≤ k) (inside : k < level.length), readEntry (states t) k = some level[k] := by
    intro k above inside
    simp only [states]
    rw [readEntry_append_of_le _ (by rw [List.length_map, length]; exact above), List.length_map, length,
      readEntry_drop, show t + (k - t) = k by omega, readEntry_map_some_append _ inside]
  refine ⟨level[offset + 2 * t], level[offset + 2 * t + 1], unread _ (by omega) (by omega),
    unread _ (by omega) (by omega), ?_⟩
  have entry : (level.map some ++ stale).drop t = some level[t] :: (level.map some ++ stale).drop (t + 1) := by
    rw [List.drop_eq_getElem_cons (by simp; omega)]
    simp [List.getElem_append_left (show t < (level.map some).length by simp; omega)]
  have next := pairUp_take_succ (hashPair cnFastHash) (l := level.drop offset) (t := t)
    (by rw [List.length_drop]; omega)
  simp only [List.getElem_drop, ← Nat.add_assoc] at next
  simp only [states]
  rw [entry, Nat.zero_add, writeEntry_map_some_append_cons _ _ _ length, next]

end Loops

section TreeHash

variable (cnFastHash : Vector UInt8 64 → Hash)

/-- Each round of the reduction hashes the level at the front of `ints` into the level above. -/
theorem reduceLoop_eq : ∀ (k : ℕ) (level : List Hash) (stale : HashBuffer), level.length = 2 ^ (k + 1) →
    ∃ stale', reduceLoop cnFastHash (2 ^ (k + 1)) (level.map some ++ stale) =
      some (((pairUp (hashPair cnFastHash))^[k] level).map some ++ stale')
  | 0, _, stale, _ => ⟨stale, by rw [reduceLoop, if_neg (by decide)]; rfl⟩
  | k + 1, level, stale, perfect => by
    have half : 2 ^ (k + 1 + 1) >>> 1 = 2 ^ (k + 1) := by
      rw [Nat.shiftRight_eq_div_pow, Nat.pow_succ, Nat.pow_one, Nat.mul_div_cancel _ (by decide)]
    have whole : 2 * 2 ^ (k + 1) = level.length := (perfect.trans Nat.pow_succ').symm
    have round := hashPairsLoop_in_place cnFastHash level stale 0 (2 ^ (k + 1)) (by omega)
    rw [List.drop_zero, List.take_of_length_le (by omega)] at round
    obtain ⟨stale', rest⟩ := reduceLoop_eq k (pairUp (hashPair cnFastHash) level)
      ((level.map some ++ stale).drop (2 ^ (k + 1))) (by rw [length_pairUp]; omega)
    refine ⟨stale', ?_⟩
    have more : 2 ^ (k + 1 + 1) > 2 := by
      have := Nat.one_le_two_pow (n := k)
      rw [Nat.pow_succ, Nat.pow_succ]
      omega
    rw [reduceLoop, if_pos more, half, round]
    simp only [Option.bind_eq_bind, Option.bind_some]
    rw [rest, Function.iterate_succ_apply]

theorem smearBits_eq {x : ℕ} (positive : 0 < x) (fits : x ≤ SIZE_MAX) : smearBits x = 2 ^ (x.log2 + 1) - 1 := by
  have shifts : [1, 2, 4, 8, 16, 32] = (List.range 6).map (2 ^ ·) := by decide
  rw [smearBits, shifts]
  exact Nat.foldl_or_shiftRight_eq 6 positive (by unfold SIZE_MAX at fits; omega)

/-- The `cnt` of `tree_hash`: the greatest power of two below the count. -/
theorem treeHash_cnt {count : ℕ} (two_le : 2 ≤ count) (fits : count ≤ SIZE_MAX) :
    smearBits (count - 1) &&& (SIZE_MAX ^^^ (smearBits (count - 1) >>> 1)) = 2 ^ (count - 1).log2 := by
  have depth : (count - 1).log2 < 64 :=
    (Nat.log2_lt (by omega)).mpr (by unfold SIZE_MAX at fits; omega)
  rw [smearBits_eq (by omega) (by omega), SIZE_MAX]
  exact Nat.and_xor_shiftRight_eq depth

/-- Past two hashes, `tree_hash` hashes the level of the power of two below the count up to two
entries and hashes those. -/
theorem treeHash_eq_of_three_le (hashes : List Hash) (three_le : 3 ≤ hashes.length) (fits : hashes.length ≤ SIZE_MAX) :
    treeHash cnFastHash hashes hashes.length = root (hashPair cnFastHash) hashes := by
  obtain ⟨k, depth⟩ : ∃ k, (hashes.length - 1).log2 = k + 1 := by
    have := (Nat.le_log2 (n := hashes.length - 1) (k := 1) (by omega)).mpr (by omega)
    exact ⟨(hashes.length - 1).log2 - 1, by omega⟩
  have bounds := (Nat.log2_eq_iff (n := hashes.length - 1) (by omega)).mp depth
  have wide : 2 ^ (k + 1 + 1) = 2 * 2 ^ (k + 1) := Nat.pow_succ'
  have top := treeHash_cnt (show 2 ≤ hashes.length by omega) fits
  rw [depth] at top
  have copy := copyEntries_eq hashes 0 (2 * 2 ^ (k + 1) - hashes.length) (List.replicate (2 ^ (k + 1)) none)
    (by rw [List.length_replicate]; omega) (by omega)
  rw [List.drop_zero, List.drop_replicate] at copy
  have taken : (hashes.take (2 * 2 ^ (k + 1) - hashes.length)).length = 2 * 2 ^ (k + 1) - hashes.length := by
    rw [List.length_take]
    omega
  have loop := hashPairsLoop_from_array cnFastHash hashes (hashes.take (2 * 2 ^ (k + 1) - hashes.length))
    (List.replicate (2 ^ (k + 1) - (2 * 2 ^ (k + 1) - hashes.length)) none) (2 * 2 ^ (k + 1) - hashes.length)
    (2 ^ (k + 1) - (2 * 2 ^ (k + 1) - hashes.length)) (by rw [List.length_replicate]) (by omega)
  have level : hashes.take (2 * 2 ^ (k + 1) - hashes.length) ++
      pairUp (hashPair cnFastHash) (hashes.drop (2 * 2 ^ (k + 1) - hashes.length)) =
      levelOf (hashPair cnFastHash) (2 ^ (k + 1)) hashes := rfl
  rw [taken, show 2 * 2 ^ (k + 1) - hashes.length + (2 ^ (k + 1) - (2 * 2 ^ (k + 1) - hashes.length)) = 2 ^ (k + 1) by omega,
    show 2 * 2 ^ (k + 1) - hashes.length + 2 * (2 ^ (k + 1) - (2 * 2 ^ (k + 1) - hashes.length)) = hashes.length by omega,
    List.take_of_length_le (l := hashes.drop (2 * 2 ^ (k + 1) - hashes.length)) (by rw [List.length_drop]; omega), level, List.drop_replicate, Nat.sub_self,
    List.replicate_zero, List.append_nil] at loop
  obtain ⟨stale, reduced⟩ := reduceLoop_eq cnFastHash k (levelOf (hashPair cnFastHash) (2 ^ (k + 1)) hashes) []
    (length_levelOf _ (by omega) (by omega))
  obtain ⟨x, y, pair⟩ := List.length_eq_two.mp
    (length_iterate_pairUp (hashPair cnFastHash) 1 k (levelOf (hashPair cnFastHash) (2 ^ (k + 1)) hashes)
      (by rw [length_levelOf _ (by omega) (by omega), Nat.add_comm]))
  rw [List.append_nil] at reduced
  rw [treeHash, if_neg (by omega), if_neg (by omega), if_neg (by omega)]
  simp only [top, copy, loop, reduced, pair, Option.bind_eq_bind, Option.bind_some, ne_eq, not_true_eq_false,
    if_false]
  rw [root_eq_head?_iterate_pred _ hashes (by omega), depth, Function.iterate_succ_apply', pair]
  simp [readEntry]

/-- `tree_hash` computes the root of the tree over its hashes, for every count a `size_t` holds. -/
theorem treeHash_eq_root (hashes : List Hash) (positive : 0 < hashes.length) (fits : hashes.length ≤ SIZE_MAX) :
    treeHash cnFastHash hashes hashes.length = root (hashPair cnFastHash) hashes := by
  match hashes, positive with
  | [a], _ =>
    have one : (1 : ℕ).log2 = 0 := Nat.log2_two_pow (n := 0)
    simp [treeHash, root_eq_foldl_firstBranch, one]
  | [a, b], _ =>
    have two : (2 : ℕ).log2 = 1 := Nat.log2_two_pow (n := 1)
    simp [treeHash, root_eq_foldl_firstBranch, two, levelOf, firstBranch_succ]
  | a :: b :: c :: rest, _ => exact treeHash_eq_of_three_le cnFastHash _ (by simp) fits

end TreeHash

end Nox.Crypto
