import Nox.Model.CryptoNoteCore.CryptoNoteSerialization

/-! # The transaction tree of `crypto/tree-hash.c`

`tree_hash` hashes a list of hashes into one root. Past two hashes it finds the greatest power of
two below the count by smearing bits, hashes in pairs as many of the last hashes as the count
exceeds it, and then hashes that level in pairs, in place, until two entries are left.
`tree_branch` finds the greatest power of two up to the count by a binary search and collects the
second entry of each level, the sibling of the first hash; `tree_hash_from_branch` hashes a leaf up
along such a branch, to the left or the right as the bits of `path` say.

`cn_fast_hash` is a parameter, a function of the 64 bytes of two adjacent hashes. The scratch
buffers of `alloca` and the caller's output arrays are lists of entries, `none` where nothing has
been written. A read past the end of an array or a buffer, a read of an entry never written, a write
past the end and a failed `assert` all make the result `none`. A `size_t` is a natural number: for
every count a `size_t` holds, the values computed here stay below `2 ^ 64`.
-/

namespace Nox.Crypto

open Nox.CryptoNote

/-- `SIZE_MAX` of a 64-bit `size_t`. -/
def SIZE_MAX : ℕ := 2 ^ 64 - 1

/-- An array of hashes in memory, `none` at an entry nothing was written to. -/
abbrev HashBuffer := List (Option Hash)

/-- Entry `k` of a buffer: `none` past its end or where nothing was written. -/
def readEntry (buffer : HashBuffer) (k : ℕ) : Option Hash := (buffer[k]?).join

/-- A write of entry `k` of a buffer: `none` past its end. -/
def writeEntry (buffer : HashBuffer) (k : ℕ) (hash : Hash) : Option HashBuffer :=
  if k < buffer.length then some (buffer.set k (some hash)) else none

/-- `memcpy(buffer, source + offset, n * HASH_SIZE)`: entries `0` to `n - 1` of the buffer take
the entries of the source from `offset` on. -/
def copyEntries (source : List Hash) (offset : ℕ) : ℕ → HashBuffer → Option HashBuffer
  | 0, buffer => some buffer
  | n + 1, buffer => do
    let buffer ← copyEntries source offset n buffer
    let hash ← source[offset + n]?
    writeEntry buffer n hash

variable (cnFastHash : Vector UInt8 64 → Hash)

/-- `cn_fast_hash(pair, 2 * HASH_SIZE, out)` on two adjacent hashes. -/
def hashPair (first second : Hash) : Hash := cnFastHash (first.data ++ second.data)

/-- The loop `for (; j < stop; i += 2, ++j) cn_fast_hash(source[i], 2 * HASH_SIZE, ints[j]);`.
`read ints i` reads entry `i` of the source, which is the input array or `ints` itself. The final
`i` is returned for the callers' asserts. -/
def hashPairsLoop (read : HashBuffer → ℕ → Option Hash) (stop : ℕ) (i j : ℕ) (ints : HashBuffer) :
    Option (ℕ × HashBuffer) :=
  if j < stop then do
    let first ← read ints i
    let second ← read ints (i + 1)
    let ints ← writeEntry ints j (hashPair cnFastHash first second)
    hashPairsLoop read stop (i + 2) (j + 1) ints
  else some (i, ints)
termination_by stop - j

/-- The loop `for (i = 1; i < 8 * sizeof(size_t); i <<= 1) cnt |= cnt >> i;` of `tree_hash`. -/
def smearBits (cnt : ℕ) : ℕ := [1, 2, 4, 8, 16, 32].foldl (fun cnt i => cnt ||| cnt >>> i) cnt

/-- The loop `while (cnt > 2)` of `tree_hash`: each round halves `cnt` and hashes the first
`2 * cnt` entries of `ints` in pairs into its first `cnt`. -/
def reduceLoop (cnt : ℕ) (ints : HashBuffer) : Option HashBuffer :=
  if cnt > 2 then do
    let (_, ints) ← hashPairsLoop cnFastHash readEntry (cnt >>> 1) 0 0 ints
    reduceLoop (cnt >>> 1) ints
  else some ints
termination_by cnt
decreasing_by
  rw [Nat.shiftRight_eq_div_pow]
  omega

/-- `tree_hash(hashes, count, root_hash)`. -/
def treeHash (hashes : List Hash) (count : ℕ) : Option Hash :=
  if count = 0 then none
  else if count = 1 then hashes[0]?
  else if count = 2 then do
    let first ← hashes[0]?
    let second ← hashes[1]?
    pure (hashPair cnFastHash first second)
  else do
    let cnt := smearBits (count - 1)
    let cnt := cnt &&& (SIZE_MAX ^^^ (cnt >>> 1))
    let ints ← copyEntries hashes 0 (2 * cnt - count) (List.replicate cnt none)
    let (i, ints) ← hashPairsLoop cnFastHash (fun _ i => hashes[i]?) cnt (2 * cnt - count) (2 * cnt - count) ints
    if i ≠ count then none
    let ints ← reduceLoop cnFastHash cnt ints
    let first ← readEntry ints 0
    let second ← readEntry ints 1
    pure (hashPair cnFastHash first second)

/-- The loop `for (i = sizeof(size_t) << 2; i > 0; i >>= 1) if (cnt << i <= count) { cnt <<= i;
depth += i; }` of `tree_branch`. Before the shift by `i`, `cnt` is at most `2 ^ (64 - 2 * i)`, so
`cnt << i` does not overflow. -/
def treeBranchShiftLoop (count : ℕ) : List ℕ → ℕ → ℕ → ℕ × ℕ
  | [], cnt, depth => (cnt, depth)
  | i :: shifts, cnt, depth =>
    if cnt <<< i ≤ count then treeBranchShiftLoop count shifts (cnt <<< i) (depth + i)
    else treeBranchShiftLoop count shifts cnt depth

/-- The loop `while (depth > 0)` of `tree_branch`: each round writes `ints[0]`, the second entry of
the level, to `branch[depth - 1]` and hashes the rest of the level in pairs into `ints`. -/
def treeBranchLoop : ℕ → ℕ → HashBuffer → HashBuffer → Option HashBuffer
  | 0, _, _, branch => some branch
  | depth + 1, cnt, ints, branch =>
    if cnt ≠ 1 <<< (depth + 1) then none
    else do
      let sibling ← readEntry ints 0
      let branch ← writeEntry branch depth sibling
      let (_, ints) ← hashPairsLoop cnFastHash readEntry ((cnt >>> 1) - 1) 1 0 ints
      treeBranchLoop depth (cnt >>> 1) ints branch

/-- `tree_branch(hashes, count, branch)`, with `branch` the caller's array as the code leaves it. -/
def treeBranch (hashes : List Hash) (count : ℕ) (branch : HashBuffer) : Option HashBuffer :=
  if count = 0 then none
  else
    match treeBranchShiftLoop count [32, 16, 8, 4, 2, 1] 1 0 with
    | (cnt, depth) =>
      if cnt ≠ 1 <<< depth then none
      else if depth ≠ treeDepth count then none
      else do
        let ints ← copyEntries hashes 1 (2 * cnt - count - 1) (List.replicate (cnt - 1) none)
        let (i, ints) ← hashPairsLoop cnFastHash (fun _ i => hashes[i]?) (cnt - 1) (2 * cnt - count)
          (2 * cnt - count - 1) ints
        if i ≠ count then none
        treeBranchLoop cnFastHash depth cnt ints branch

/-- The loop `while (depth > 0)` of `tree_hash_from_branch` over its buffer of two entries. Bit
`depth` of `path`, when there is a path, says that the hash so far is the right one of the pair. -/
def treeHashFromBranchLoop (branch : List Hash) (leaf : Hash) (path : Option (List UInt8)) :
    ℕ → Bool → HashBuffer → Option HashBuffer
  | 0, _, buffer => some buffer
  | depth + 1, fromLeaf, buffer => do
    let right ← match path with
      | none => some false
      | some path => (path[depth >>> 3]?).map fun byte => byte.toNat.testBit (depth &&& 7)
    let (leafPath, branchPath) := if right then (1, 0) else (0, 1)
    let buffer ←
      if fromLeaf then writeEntry buffer leafPath leaf
      else do
        let first ← readEntry buffer 0
        let second ← readEntry buffer 1
        writeEntry buffer leafPath (hashPair cnFastHash first second)
    let sibling ← branch[depth]?
    let buffer ← writeEntry buffer branchPath sibling
    treeHashFromBranchLoop branch leaf path depth false buffer

/-- `tree_hash_from_branch(branch, depth, leaf, path, root_hash)`, with `path` `none` for a null
pointer. -/
def treeHashFromBranch (branch : List Hash) (depth : ℕ) (leaf : Hash) (path : Option (List UInt8)) :
    Option Hash :=
  if depth = 0 then some leaf
  else do
    let buffer ← treeHashFromBranchLoop cnFastHash branch leaf path depth true [none, none]
    let first ← readEntry buffer 0
    let second ← readEntry buffer 1
    pure (hashPair cnFastHash first second)

end Nox.Crypto
