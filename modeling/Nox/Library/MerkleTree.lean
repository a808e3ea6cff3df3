import Mathlib.Logic.Function.Iterate
import Mathlib.Data.List.Basic
import Nox.Library.BoundedQuantifiers

/-! # Levels of a binary hash tree

A level of a binary hash tree is hashed into the level above by pairing its entries in order. A
perfect level of `2 ^ d` entries reaches its root in `d` rounds, and the root is its first entry
folded with the siblings met on the way up, the branch of the first leaf.

A count of leaves that is no power of two is brought to one by a ragged first round: with `width`
the power of two below the count, the first `2 * width - count` leaves stand alone and the others
are hashed in pairs, which leaves a perfect level of `width` entries. The root of the tree is the
root of that level.
-/

namespace MerkleTree

variable {α : Type} (f : α → α → α)

/-- The level above: the hash of the first two entries, of the next two, and so on; an odd last
entry is dropped. -/
def pairUp : List α → List α
  | a :: b :: rest => f a b :: pairUp rest
  | _ => []

@[simp] theorem pairUp_nil : pairUp f ([] : List α) = [] := rfl

@[simp] theorem pairUp_singleton (a : α) : pairUp f [a] = [] := rfl

@[simp] theorem pairUp_cons_cons (a b : α) (rest : List α) :
    pairUp f (a :: b :: rest) = f a b :: pairUp f rest := rfl

@[simp] theorem length_pairUp : ∀ l : List α, (pairUp f l).length = l.length / 2
  | a :: b :: rest => by
    simp only [pairUp_cons_cons, List.length_cons, length_pairUp rest]
    omega
  | [_] => by simp
  | [] => by simp

theorem pairUp_append : ∀ {l₁ : List α} (l₂ : List α), l₁.length % 2 = 0 →
    pairUp f (l₁ ++ l₂) = pairUp f l₁ ++ pairUp f l₂
  | [], _, _ => rfl
  | [_], _, odd => by simp at odd
  | a :: b :: rest, l₂, even => by
    have restEven : rest.length % 2 = 0 := by
      simp only [List.length_cons] at even
      omega
    rw [List.cons_append, List.cons_append, pairUp_cons_cons, pairUp_cons_cons, pairUp_append l₂ restEven]
    rfl

/-- The pairs of the first `2 * t + 2` entries are those of the first `2 * t` and one more: the
level above grows by one entry for each pair hashed. -/
theorem pairUp_take_succ {l : List α} {t : ℕ} (within : 2 * t + 1 < l.length) :
    pairUp f (l.take (2 * (t + 1))) = pairUp f (l.take (2 * t)) ++ [f l[2 * t] l[2 * t + 1]] := by
  have pair : l.take (2 * (t + 1)) = l.take (2 * t) ++ [l[2 * t], l[2 * t + 1]] := by
    rw [show 2 * (t + 1) = 2 * t + 2 by omega, List.take_add, List.drop_eq_getElem_cons (by omega),
      List.drop_eq_getElem_cons (by omega)]
    rfl
  have even : (l.take (2 * t)).length % 2 = 0 := by
    rw [List.length_take]
    omega
  rw [pair, pairUp_append f _ even]
  rfl

theorem length_iterate_pairUp (d : ℕ) : ∀ (k : ℕ) (l : List α), l.length = 2 ^ (d + k) →
    ((pairUp f)^[k] l).length = 2 ^ d
  | 0, _, perfect => perfect
  | k + 1, l, perfect => by
    rw [Function.iterate_succ_apply]
    apply length_iterate_pairUp d k
    rw [length_pairUp, perfect, ← Nat.add_assoc, Nat.pow_succ, Nat.mul_div_cancel _ (by decide)]

theorem pairUp_drop_two (l : List α) : pairUp f (l.drop 2) = (pairUp f l).tail := by
  match l with
  | _ :: _ :: _ => rfl
  | [_] => rfl
  | [] => rfl

/-- The siblings met on the way from the first leaf of a perfect level of depth `d` to its root,
from the bottom. -/
def firstBranch : ℕ → List α → List α
  | d + 1, a :: b :: rest => b :: firstBranch d (pairUp f (a :: b :: rest))
  | _, _ => []

@[simp] theorem firstBranch_zero (l : List α) : firstBranch f 0 l = [] := by
  cases l <;> rfl

theorem firstBranch_succ (d : ℕ) (a b : α) (rest : List α) :
    firstBranch f (d + 1) (a :: b :: rest) = b :: firstBranch f d (f a b :: pairUp f rest) := rfl

theorem length_firstBranch : ∀ (d : ℕ) (l : List α), l.length = 2 ^ d → (firstBranch f d l).length = d
  | 0, _, _ => by simp
  | d + 1, [], empty => absurd empty (Nat.ne_of_lt (Nat.two_pow_pos (d + 1)))
  | d + 1, [_], single => by
    have := Nat.one_le_two_pow (n := d)
    simp only [List.length_singleton, Nat.pow_succ] at single
    omega
  | d + 1, a :: b :: rest, perfect => by
    have half : (f a b :: pairUp f rest).length = 2 ^ d := by
      simp only [List.length_cons, length_pairUp] at perfect ⊢
      rw [Nat.pow_succ] at perfect
      omega
    rw [firstBranch_succ, List.length_cons, length_firstBranch d _ half]

/-- A perfect level of depth `d` hashes in `d` rounds to the fold of its first entry with its
first branch. -/
theorem iterate_pairUp_eq_foldl_firstBranch : ∀ (d : ℕ) (a : α) (rest : List α), (a :: rest).length = 2 ^ d →
    (pairUp f)^[d] (a :: rest) = [(firstBranch f d (a :: rest)).foldl f a]
  | 0, a, rest, single => by
    have empty : rest = [] := by simpa using single
    subst empty
    rfl
  | d + 1, a, [], single => by
    have := Nat.one_le_two_pow (n := d)
    simp only [List.length_singleton, Nat.pow_succ] at single
    omega
  | d + 1, a, b :: rest, perfect => by
    have half : (f a b :: pairUp f rest).length = 2 ^ d := by
      simp only [List.length_cons, length_pairUp] at perfect ⊢
      rw [Nat.pow_succ] at perfect
      omega
    rw [Function.iterate_succ_apply, pairUp_cons_cons,
      iterate_pairUp_eq_foldl_firstBranch d (f a b) (pairUp f rest) half, firstBranch_succ]
    rfl

/-- The level of `width` entries the tree over `leaves` starts from: the first
`2 * width - count` leaves alone, then the others hashed in pairs. -/
def levelOf (width : ℕ) (leaves : List α) : List α :=
  leaves.take (2 * width - leaves.length) ++ pairUp f (leaves.drop (2 * width - leaves.length))

/-- The root of the tree over `leaves`: its level of the greatest power of two up to their count,
hashed up to one entry; `none` for no leaves. -/
def root (leaves : List α) : Option α :=
  ((pairUp f)^[leaves.length.log2] (levelOf f (2 ^ leaves.length.log2) leaves)).head?

theorem length_levelOf {width : ℕ} {leaves : List α} (fits : width ≤ leaves.length)
    (within : leaves.length ≤ 2 * width) : (levelOf f width leaves).length = width := by
  simp only [levelOf, List.length_append, List.length_take, length_pairUp, List.length_drop]
  omega

theorem levelOf_of_length_eq {width : ℕ} {leaves : List α} (perfect : leaves.length = width) :
    levelOf f width leaves = leaves := by
  rw [levelOf, perfect, show 2 * width - width = width by omega, ← perfect, List.take_length, List.drop_length,
    pairUp_nil, List.append_nil]

theorem levelOf_of_length_eq_two_mul {width : ℕ} {leaves : List α} (full : leaves.length = 2 * width) :
    levelOf f width leaves = pairUp f leaves := by
  simp [levelOf, full]

theorem head?_levelOf {width : ℕ} {leaves : List α} (below : leaves.length < 2 * width) :
    (levelOf f width leaves).head? = leaves.head? := by
  cases leaves with
  | nil => simp [levelOf]
  | cons a rest =>
    obtain ⟨m, split⟩ : ∃ m, 2 * width - (a :: rest).length = m + 1 := ⟨2 * width - (a :: rest).length - 1, by omega⟩
    rw [levelOf, split, List.take_succ_cons, List.cons_append, List.head?_cons, List.head?_cons]

/-- Past its first entry, the level of a tree is the leaves after the first that stand alone, then
the pairs. -/
theorem tail_levelOf {width : ℕ} {leaves : List α} (below : leaves.length < 2 * width) :
    (levelOf f width leaves).tail =
      (leaves.drop 1).take (2 * width - leaves.length - 1) ++ pairUp f (leaves.drop (2 * width - leaves.length)) := by
  cases leaves with
  | nil => simp [levelOf]
  | cons a rest =>
    obtain ⟨m, split⟩ : ∃ m, 2 * width - (a :: rest).length = m + 1 := ⟨2 * width - (a :: rest).length - 1, by omega⟩
    rw [levelOf, split, List.take_succ_cons, List.cons_append, List.tail_cons, List.drop_one, List.tail_cons,
      Nat.add_sub_cancel]

/-- The root of a nonempty tree is its first leaf folded with the first branch of its level. -/
theorem root_eq_foldl_firstBranch (a : α) (rest : List α) :
    root f (a :: rest) =
      some ((firstBranch f (a :: rest).length.log2 (levelOf f (2 ^ (a :: rest).length.log2) (a :: rest))).foldl f a) := by
  have nonzero : (a :: rest).length ≠ 0 := by simp
  have length : (levelOf f (2 ^ (a :: rest).length.log2) (a :: rest)).length = 2 ^ (a :: rest).length.log2 :=
    length_levelOf f (Nat.log2_self_le nonzero) (by rw [← Nat.pow_succ']; exact Nat.le_of_lt Nat.lt_log2_self)
  have head : (levelOf f (2 ^ (a :: rest).length.log2) (a :: rest)).head? = some a := by
    rw [head?_levelOf f (by rw [← Nat.pow_succ']; exact Nat.lt_log2_self), List.head?_cons]
  obtain ⟨level, split⟩ := List.head?_eq_some_iff.mp head
  rw [root, split, iterate_pairUp_eq_foldl_firstBranch f _ a level (split ▸ length)]
  rfl

/-- Counting down from one less than the leaves: for two leaves or more, the root is also the
level of the greatest power of two below the count hashed up to one entry. For a count that is a
power of two that level is the leaves hashed in pairs, one round above the leaves themselves. -/
theorem root_eq_head?_iterate_pred (leaves : List α) (two_le : 2 ≤ leaves.length) :
    root f leaves =
      ((pairUp f)^[(leaves.length - 1).log2] (levelOf f (2 ^ (leaves.length - 1).log2) leaves)).head? := by
  have below := (Nat.log2_eq_iff (n := leaves.length - 1) (by omega)).mp rfl
  by_cases full : leaves.length = 2 ^ ((leaves.length - 1).log2 + 1)
  · have depth : leaves.length.log2 = (leaves.length - 1).log2 + 1 :=
      (congrArg Nat.log2 full).trans Nat.log2_two_pow
    rw [root, depth, levelOf_of_length_eq f full,
      Function.iterate_succ_apply,
      levelOf_of_length_eq_two_mul f (full.trans (Nat.pow_succ' ..))]
  · have depth : leaves.length.log2 = (leaves.length - 1).log2 :=
      (Nat.log2_eq_iff (by omega)).mpr ⟨by omega, by omega⟩
    rw [root, depth]

end MerkleTree
