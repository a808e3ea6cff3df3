import Nox.Proofs.Crypto.TreeHash

/-! # What `tree_branch` and `tree_hash_from_branch` compute

Both binary searches of the file, `tree_depth` and the shift loop of `tree_branch`, find the highest
set bit of the count: each halves the number of bits still to search. `tree_branch` then keeps the
level of the tree without its first entry in `ints` and writes the branch of the first leaf from
its top down; `tree_hash_from_branch` with no path folds a leaf with the branch from its bottom up.
-/

namespace Nox.Crypto

open Nox.CryptoNote MerkleTree

/-- The shifts `2 ^ (k - 1), …, 2, 1` of a binary search over `2 ^ k` bits. -/
theorem range_succ_reverse_map (k : ℕ) :
    ((List.range (k + 1)).reverse.map (2 ^ ·)) = 2 ^ k :: (List.range k).reverse.map (2 ^ ·) := by
  rw [List.range_succ, List.reverse_append, List.reverse_singleton, List.singleton_append, List.map_cons]

theorem searchShifts_eq : [32, 16, 8, 4, 2, 1] = (List.range 6).reverse.map (2 ^ ·) := by decide

section Depth

/-- `tree_depth` adds `log2` of the count to the depth, when the count has at most `2 ^ k` bits. -/
theorem treeDepthLoop_eq : ∀ (k count depth : ℕ), 0 < count → count < 2 ^ 2 ^ k →
    treeDepthLoop ((List.range k).reverse.map (2 ^ ·)) count depth = depth + count.log2
  | 0, count, depth, positive, small => by
    have one : count = 1 := by
      rw [Nat.pow_zero, Nat.pow_one] at small
      omega
    subst one
    rw [show (1 : ℕ) = 2 ^ 0 from rfl, Nat.log2_two_pow]
    rfl
  | k + 1, count, depth, positive, small => by
    have square : 2 ^ 2 ^ (k + 1) = 2 ^ 2 ^ k * 2 ^ 2 ^ k := by rw [← Nat.pow_add, ← Nat.two_mul, Nat.pow_succ']
    rw [range_succ_reverse_map, treeDepthLoop]
    split_ifs with shifted
    · have lowered : count >>> 2 ^ k < 2 ^ 2 ^ k := by
        rw [Nat.shiftRight_eq_div_pow, Nat.div_lt_iff_lt_mul (Nat.two_pow_pos _), ← square]
        exact small
      have within : 2 ^ k ≤ count.log2 := by
        have nonzero : count ≠ 0 := by omega
        rw [Nat.shiftRight_eq_div_pow] at shifted
        exact (Nat.le_log2 nonzero).mpr ((Nat.one_le_div_iff (Nat.two_pow_pos _)).mp shifted)
      rw [treeDepthLoop_eq k (count >>> 2 ^ k) (depth + 2 ^ k) shifted lowered, Nat.log2_shiftRight shifted]
      omega
    · have small' : count < 2 ^ 2 ^ k := by
        rw [Nat.shiftRight_eq_div_pow, gt_iff_lt, Nat.pos_iff_ne_zero, ne_eq, not_not,
          Nat.div_eq_zero_iff_lt (Nat.two_pow_pos _)] at shifted
        exact shifted
      exact treeDepthLoop_eq k count depth positive small'

/-- `tree_depth` of every count a `size_t` holds is its `log2`. -/
theorem treeDepth_eq_log2 {count : ℕ} (positive : 0 < count) (fits : count ≤ SIZE_MAX) :
    treeDepth count = count.log2 := by
  rw [treeDepth, searchShifts_eq, treeDepthLoop_eq 6 count 0 positive (by unfold SIZE_MAX at fits; omega),
    Nat.zero_add]

/-- The shift loop of `tree_branch` reaches the greatest power of two up to the count, when `2 ^ k`
shifts are left to try above `2 ^ depth`. -/
theorem treeBranchShiftLoop_eq (count : ℕ) : ∀ (k depth : ℕ), 2 ^ depth ≤ count → count < 2 ^ (depth + 2 ^ k) →
    treeBranchShiftLoop count ((List.range k).reverse.map (2 ^ ·)) (2 ^ depth) depth = (2 ^ count.log2, count.log2)
  | 0, depth, reached, below => by
    have nonzero : count ≠ 0 := Nat.ne_of_gt (Nat.lt_of_lt_of_le (Nat.two_pow_pos depth) reached)
    have exact : count.log2 = depth := (Nat.log2_eq_iff nonzero).mpr ⟨reached, by simpa using below⟩
    rw [exact]
    rfl
  | k + 1, depth, reached, below => by
    have shift : 2 ^ depth <<< 2 ^ k = 2 ^ (depth + 2 ^ k) := by rw [Nat.shiftLeft_eq, Nat.pow_add]
    rw [range_succ_reverse_map, treeBranchShiftLoop, shift]
    split_ifs with fits
    · apply treeBranchShiftLoop_eq count k (depth + 2 ^ k) fits
      rwa [Nat.add_assoc, ← Nat.two_mul, ← Nat.pow_succ']
    · exact treeBranchShiftLoop_eq count k depth reached (by omega)

end Depth

section Branch

variable (cnFastHash : Vector UInt8 64 → Hash)

theorem drop_set_self {branch : HashBuffer} {d : ℕ} (within : d < branch.length) (entry : Option Hash) :
    (branch.set d entry).drop d = entry :: branch.drop (d + 1) := by
  rw [List.drop_set, if_neg (Nat.lt_irrefl d), Nat.sub_self, List.drop_eq_getElem_cons within, List.set_cons_zero]

/-- Each round of `tree_branch` writes the second entry of the level and hashes the rest of it into
the level above without its first entry; over a level of depth `d` it writes the first branch of
the level, top entry first, to `branch[0 .. d - 1]`. -/
theorem treeBranchLoop_eq : ∀ (d : ℕ) (level : List Hash) (stale branch : HashBuffer), level.length = 2 ^ d →
    d ≤ branch.length →
    treeBranchLoop cnFastHash d (2 ^ d) (level.tail.map some ++ stale) branch =
      some ((firstBranch (hashPair cnFastHash) d level).reverse.map some ++ branch.drop d)
  | 0, level, stale, branch, _, _ => by simp [treeBranchLoop]
  | d + 1, [], _, _, empty, _ => absurd empty (Nat.ne_of_lt (Nat.two_pow_pos _))
  | d + 1, [_], _, _, single, _ => by
    have := Nat.one_le_two_pow (n := d)
    simp only [List.length_singleton, Nat.pow_succ] at single
    omega
  | d + 1, a :: b :: rest, stale, branch, perfect, fits => by
    have positive := Nat.one_le_two_pow (n := d)
    have restLength : rest.length = 2 * (2 ^ d - 1) := by
      simp only [List.length_cons, Nat.pow_succ] at perfect
      omega
    have half : 2 ^ (d + 1) >>> 1 = 2 ^ d := by
      rw [Nat.shiftRight_eq_div_pow, Nat.pow_succ, Nat.pow_one, Nat.mul_div_cancel _ (by decide)]
    have round := hashPairsLoop_in_place cnFastHash (b :: rest) stale 1 (2 ^ d - 1)
      (by rw [List.length_cons]; omega)
    rw [List.drop_succ_cons, List.drop_zero, List.take_of_length_le (by omega)] at round
    have sibling : readEntry ((b :: rest).map some ++ stale) 0 = some b :=
      readEntry_map_some_append _ (by simp)
    have written : writeEntry branch d b = some (branch.set d (some b)) := by
      rw [writeEntry, if_pos (by omega)]
    have above := treeBranchLoop_eq d (hashPair cnFastHash a b :: pairUp (hashPair cnFastHash) rest)
      (((b :: rest).map some ++ stale).drop (2 ^ d - 1)) (branch.set d (some b))
      (by rw [List.length_cons, length_pairUp]; omega) (by rw [List.length_set]; omega)
    rw [List.tail_cons, drop_set_self (by omega)] at above
    rw [treeBranchLoop, if_neg (by rw [Nat.one_shiftLeft]; exact fun differs => differs rfl), List.tail_cons]
    simp only [sibling, written, half, round, Option.bind_eq_bind, Option.bind_some]
    rw [above, firstBranch_succ, List.reverse_cons, List.map_append, List.append_assoc]
    rfl

/-- `tree_branch` writes, to the first `log2 count` entries of the caller's array, the first
branch of the level of the tree, top entry first, and leaves the other entries as they were. -/
theorem treeBranch_eq (hashes : List Hash) (positive : 0 < hashes.length) (fits : hashes.length ≤ SIZE_MAX)
    (branch : HashBuffer) (room : hashes.length.log2 ≤ branch.length) :
    treeBranch cnFastHash hashes hashes.length branch =
      some ((firstBranch (hashPair cnFastHash) hashes.length.log2
        (levelOf (hashPair cnFastHash) (2 ^ hashes.length.log2) hashes)).reverse.map some ++
          branch.drop hashes.length.log2) := by
  have nonzero : hashes.length ≠ 0 := by omega
  obtain ⟨L, depth⟩ : ∃ L, hashes.length.log2 = L := ⟨_, rfl⟩
  have bounds := (Nat.log2_eq_iff nonzero).mp depth
  have wide : 2 ^ (L + 1) = 2 * 2 ^ L := Nat.pow_succ'
  rw [depth] at room ⊢
  have search : treeBranchShiftLoop hashes.length [32, 16, 8, 4, 2, 1] 1 0 = (2 ^ L, L) := by
    rw [searchShifts_eq, show (1 : ℕ) = 2 ^ 0 from rfl, ← depth]
    exact treeBranchShiftLoop_eq hashes.length 6 0 (by simp; omega) (by unfold SIZE_MAX at fits; simp; omega)
  have copy := copyEntries_eq hashes 1 (2 * 2 ^ L - hashes.length - 1) (List.replicate (2 ^ L - 1) none)
    (by rw [List.length_replicate]; omega) (by omega)
  rw [List.drop_replicate] at copy
  have taken : ((hashes.drop 1).take (2 * 2 ^ L - hashes.length - 1)).length = 2 * 2 ^ L - hashes.length - 1 := by
    rw [List.length_take, List.length_drop]
    omega
  have loop := hashPairsLoop_from_array cnFastHash hashes ((hashes.drop 1).take (2 * 2 ^ L - hashes.length - 1))
    (List.replicate (2 ^ L - 1 - (2 * 2 ^ L - hashes.length - 1)) none) (2 * 2 ^ L - hashes.length)
    (2 ^ L - (2 * 2 ^ L - hashes.length)) (by rw [List.length_replicate]; omega) (by omega)
  have stop : 2 * 2 ^ L - hashes.length - 1 + (2 ^ L - (2 * 2 ^ L - hashes.length)) = 2 ^ L - 1 := by omega
  have final : 2 * 2 ^ L - hashes.length + 2 * (2 ^ L - (2 * 2 ^ L - hashes.length)) = hashes.length := by omega
  have spent : 2 ^ L - 1 - (2 * 2 ^ L - hashes.length - 1) - (2 ^ L - (2 * 2 ^ L - hashes.length)) = 0 := by omega
  rw [taken, stop, final, List.take_of_length_le (l := hashes.drop (2 * 2 ^ L - hashes.length))
    (by rw [List.length_drop]; omega), List.drop_replicate, spent, List.replicate_zero, List.append_nil,
    ← tail_levelOf _ (by omega)] at loop
  have written := treeBranchLoop_eq cnFastHash L (levelOf (hashPair cnFastHash) (2 ^ L) hashes) [] branch
    (length_levelOf _ bounds.1 (by omega)) room
  rw [List.append_nil] at written
  rw [treeBranch, if_neg nonzero, search]
  simp only [Nat.one_shiftLeft, ne_eq, not_true_eq_false, if_false, treeDepth_eq_log2 positive fits, depth, copy,
    loop, written, Option.bind_eq_bind, Option.bind_some]

end Branch

section FromBranch

variable (cnFastHash : Vector UInt8 64 → Hash)

/-- With no path, each round of `tree_hash_from_branch` hashes the buffer into its first entry and
puts the next sibling in its second: the final pair hashes to the buffer's first hash folded with
the siblings `branch[k - 1], …, branch[0]`. -/
theorem treeHashFromBranchLoop_eq (branch : List Hash) (leaf : Hash) :
    ∀ (k : ℕ) (first second : Hash), k ≤ branch.length →
      ∃ u v, treeHashFromBranchLoop cnFastHash branch leaf none k false [some first, some second] =
          some [some u, some v] ∧
        hashPair cnFastHash u v = (branch.take k).reverse.foldl (hashPair cnFastHash) (hashPair cnFastHash first second)
  | 0, first, second, _ => ⟨first, second, rfl, rfl⟩
  | k + 1, first, second, fits => by
    obtain ⟨u, v, run, folded⟩ :=
      treeHashFromBranchLoop_eq branch leaf k (hashPair cnFastHash first second) branch[k] (by omega)
    refine ⟨u, v, ?_, ?_⟩
    · rw [treeHashFromBranchLoop]
      simp [readEntry, writeEntry, List.getElem?_eq_getElem (show k < branch.length by omega), run]
    · rw [folded, List.take_succ_eq_append_getElem (by omega), List.reverse_append]
      rfl

/-- With no path, `tree_hash_from_branch` over a whole branch folds the leaf with the branch from
its last entry to its first. -/
theorem treeHashFromBranch_eq (branch : List Hash) (leaf : Hash) :
    treeHashFromBranch cnFastHash branch branch.length leaf none =
      some (branch.reverse.foldl (hashPair cnFastHash) leaf) := by
  cases length : branch.length with
  | zero =>
    rw [List.length_eq_zero_iff.mp length, treeHashFromBranch, if_pos rfl]
    rfl
  | succ k =>
    obtain ⟨u, v, run, folded⟩ :=
      treeHashFromBranchLoop_eq cnFastHash branch leaf k leaf branch[k] (by omega)
    have whole : branch.reverse = branch[k] :: (branch.take k).reverse := by
      conv_lhs => rw [← List.take_of_length_le (show branch.length ≤ k + 1 by omega)]
      rw [List.take_succ_eq_append_getElem (by omega), List.reverse_append]
      rfl
    rw [treeHashFromBranch, if_neg (Nat.succ_ne_zero k), treeHashFromBranchLoop, whole, List.foldl_cons, ← folded]
    simp [readEntry, writeEntry, List.getElem?_eq_getElem (show k < branch.length by omega), run]

end FromBranch

end Nox.Crypto
