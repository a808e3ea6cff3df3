import Nox.Proofs.Crypto.TreeBranch

/-! # The branch of the first transaction leads back to the tree hash

A merge-mined block proves that its coinbase is the first leaf of its parent's transaction tree
with the branch `tree_branch` computes, and the parent's hash is checked against the root
`tree_hash_from_branch` rebuilds from it. The two agree with `tree_hash` for every count of
transactions a `size_t` holds: both compute the root of the tree, `tree_hash` by hashing its levels
and the branch walk by folding the first leaf with the siblings `tree_branch` collects. On the way
every read and write of `tree_hash` and `tree_branch` stays within the hashes and the buffers, and
each of their asserts holds.
-/

namespace Nox.Crypto

open Nox.CryptoNote MerkleTree

/-- For every count a `size_t` holds, `tree_depth` is `log2` of the count, `tree_branch` writes that
many hashes at the front of the caller's array and leaves the rest, and the root
`tree_hash_from_branch` rebuilds from them and the first hash is the root of `tree_hash`. -/
theorem treeHashFromBranch_treeBranch_eq_treeHash (cnFastHash : Vector UInt8 64 → Hash) (hashes : List Hash)
    (count : ℕ) (positive : 0 < count) (fits : count ≤ SIZE_MAX) (length : hashes.length = count) :
    treeDepth count = count.log2 ∧
      ∃ root branch, treeHash cnFastHash hashes count = some root ∧ branch.length = treeDepth count ∧
        (∀ buffer : HashBuffer, treeDepth count ≤ buffer.length →
          treeBranch cnFastHash hashes count buffer = some (branch.map some ++ buffer.drop (treeDepth count))) ∧
        treeHashFromBranch cnFastHash branch (treeDepth count) hashes[0] none = some root := by
  subst length
  have depth := treeDepth_eq_log2 positive fits
  cases hashes with
  | nil => exact absurd positive (Nat.lt_irrefl 0)
  | cons a rest =>
    have nonzero : (a :: rest).length ≠ 0 := by omega
    have level := length_levelOf (hashPair cnFastHash) (Nat.log2_self_le nonzero)
      (by rw [← Nat.pow_succ']; exact Nat.le_of_lt Nat.lt_log2_self)
    have branchLength := length_firstBranch (hashPair cnFastHash) _ _ level
    refine ⟨depth, (firstBranch (hashPair cnFastHash) (a :: rest).length.log2
      (levelOf (hashPair cnFastHash) (2 ^ (a :: rest).length.log2) (a :: rest))).foldl (hashPair cnFastHash) a,
      (firstBranch (hashPair cnFastHash) (a :: rest).length.log2
        (levelOf (hashPair cnFastHash) (2 ^ (a :: rest).length.log2) (a :: rest))).reverse, ?_, ?_, ?_, ?_⟩
    · rw [treeHash_eq_root cnFastHash _ positive fits, root_eq_foldl_firstBranch]
    · rw [List.length_reverse, branchLength, depth]
    · intro buffer room
      rw [depth] at room ⊢
      exact treeBranch_eq cnFastHash _ positive fits buffer room
    · have walk := treeHashFromBranch_eq cnFastHash (firstBranch (hashPair cnFastHash) (a :: rest).length.log2
        (levelOf (hashPair cnFastHash) (2 ^ (a :: rest).length.log2) (a :: rest))).reverse a
      rw [List.length_reverse, branchLength, List.reverse_reverse] at walk
      rw [depth]
      exact walk

namespace Scenario

/-- A hash of two hashes that adds them byte by byte. -/
def addingHash (pair : Vector UInt8 64) : Hash := ⟨Vector.ofFn fun i => pair[i] + pair[i.val + 32]⟩

/-- Three transaction hashes, a count that is no power of two. -/
def threeHashes : List Hash := [⟨Vector.replicate 32 1⟩, ⟨Vector.replicate 32 2⟩, ⟨Vector.replicate 32 3⟩]

theorem treeHashFromBranch_treeBranch_eq_treeHash_three :
    treeDepth 3 = Nat.log2 3 ∧
      ∃ root branch, treeHash addingHash threeHashes 3 = some root ∧ branch.length = treeDepth 3 ∧
        (∀ buffer : HashBuffer, treeDepth 3 ≤ buffer.length →
          treeBranch addingHash threeHashes 3 buffer = some (branch.map some ++ buffer.drop (treeDepth 3))) ∧
        treeHashFromBranch addingHash branch (treeDepth 3) threeHashes[0] none = some root :=
  treeHashFromBranch_treeBranch_eq_treeHash addingHash threeHashes 3 (by decide) (by decide) rfl

end Scenario

end Nox.Crypto
