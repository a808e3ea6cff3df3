import Mathlib.Algebra.Order.BigOperators.Group.List
import Mathlib.Data.List.Perm.Subperm
import Mathlib.Algebra.Order.Group.Nat
import Nox.Library.BoundedQuantifiers

/-! # Ledgers of blocks that spend earlier outputs

Each block of a ledger spends some amounts and creates others. When every block spends only
amounts that blocks before it created, and none twice, the amounts spent up to a block form a
sub-multiset of those created before it. The balance of a ledger, created less spent, is then never
negative, and a block spends at most the balance of the blocks before it.
-/

namespace Ledger

variable {Block : Type} (spent created : Block → List ℕ)

/-- The amounts created less the amounts spent. -/
def balance (blocks : List Block) : ℤ :=
  ((blocks.flatMap created).sum : ℤ) - ((blocks.flatMap spent).sum : ℤ)

/-- Every block spends amounts created by blocks before it, each created amount at most once. -/
def SpendsEarlier (blocks : List Block) : Prop :=
  ∀ i, List.Subperm ((blocks.take (i + 1)).flatMap spent) ((blocks.take i).flatMap created)

@[simp] theorem balance_nil : balance spent created [] = 0 := by
  simp [balance]

theorem balance_append (blocks blocks' : List Block) :
    balance spent created (blocks ++ blocks') = balance spent created blocks + balance spent created blocks' := by
  simp only [balance, List.flatMap_append, List.sum_append]
  omega

theorem balance_singleton (block : Block) :
    balance spent created [block] = ((created block).sum : ℤ) - ((spent block).sum : ℤ) := by
  simp [balance]

theorem sum_le_of_subperm {amounts amounts' : List ℕ} (sub : List.Subperm amounts amounts') :
    amounts.sum ≤ amounts'.sum := by
  obtain ⟨permuted, perm, sublist⟩ := sub
  rw [← perm.sum_eq]
  exact sublist.sum_le_sum fun _ _ => Nat.zero_le _

variable {spent created}

/-- A block spends at most the balance of the blocks before it. -/
theorem spent_le_balance {blocks : List Block} {block : Block}
    (sub : List.Subperm ((blocks ++ [block]).flatMap spent) (blocks.flatMap created)) :
    ((spent block).sum : ℤ) ≤ balance spent created blocks := by
  have sums := sum_le_of_subperm sub
  simp only [List.flatMap_append, List.flatMap_singleton, List.sum_append] at sums
  simp only [balance]
  omega

/-- A ledger that spends only what it created has a balance that is not negative. -/
theorem balance_nonneg {blocks : List Block} (sub : List.Subperm (blocks.flatMap spent) (blocks.flatMap created)) :
    0 ≤ balance spent created blocks := by
  have sums := sum_le_of_subperm sub
  simp only [balance]
  omega

/-- In a ledger whose blocks spend earlier outputs, block `i` spends at most the balance before it,
and the balance after it is not negative. -/
theorem SpendsEarlier.step {blocks : List Block} (earlier : SpendsEarlier spent created blocks) {i : ℕ}
    (valid : i < blocks.length) :
    ((spent blocks[i]).sum : ℤ) ≤ balance spent created (blocks.take i) ∧
      0 ≤ balance spent created (blocks.take (i + 1)) := by
  have prefixEq : blocks.take (i + 1) = blocks.take i ++ [blocks[i]] := List.take_succ_eq_append_getElem valid
  have grows : List.Sublist ((blocks.take i).flatMap created) ((blocks.take (i + 1)).flatMap created) := by
    rw [prefixEq, List.flatMap_append]
    exact List.sublist_append_left _ _
  refine ⟨spent_le_balance ?_, balance_nonneg ((earlier i).trans grows.subperm)⟩
  rw [← prefixEq]
  exact earlier i

end Ledger
