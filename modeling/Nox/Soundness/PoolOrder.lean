import Nox.Proofs.CryptoNoteCore.PoolOrder
import Nox.Soundness.RingMembers

/-! # The pool's priority order

On pending transactions with a nonzero blob, `TransactionPriorityComparator` is a strict weak order:
exactly the order of a higher fee per byte, compared without rounding through the 128-bit cross
products, then of a smaller blob, then of an earlier receive time. The cost index over it is
therefore well defined, and `getPoolTransactions` returns the pool with fees per byte that never
increase.
-/

namespace Nox.CryptoNote

open Nox.Crypto

/-- The comparator is a strict weak order on transactions with a nonzero blob, it orders by fee per
byte, then by size, then by receive time, and the pool lists its transactions in that order. -/
theorem transactionPriorityComparator_strict_weak_order :
    IsStrictWeakOrder SizedPending (fun lhs rhs => transactionPriorityComparator lhs.1 rhs.1 = true) ∧
      (∀ lhs rhs : SizedPending, transactionPriorityComparator lhs.1 rhs.1 = true ↔
        rhs.1.cachedTransaction.feePerByte < lhs.1.cachedTransaction.feePerByte ∨
          lhs.1.cachedTransaction.feePerByte = rhs.1.cachedTransaction.feePerByte ∧
            (lhs.1.blobSize < rhs.1.blobSize ∨
              lhs.1.blobSize = rhs.1.blobSize ∧ lhs.1.receiveTime.toNat < rhs.1.receiveTime.toNat)) ∧
      ∀ pool : TransactionPool, (∀ info ∈ pool.transactions, 0 < info.blobSize ∧ info.blobSize < 2 ^ 64) →
        pool.getPoolTransactions.Pairwise fun earlier later => later.feePerByte ≤ earlier.feePerByte :=
  ⟨transactionPriorityComparator_isStrictWeakOrder,
    fun lhs rhs => (transactionPriorityComparator_iff_priorityKey lhs rhs).trans (priorityKey_lt_iff lhs.1 rhs.1),
    getPoolTransactions_feePerByte⟩

namespace Scenario

/-- A transaction spending 100 under the key image `keyImageOf n`, paying out `100 - fee`, with a
blob of `size` bytes. -/
def paying (n : ℕ) (fee : UInt64) (size : ℕ) : CachedTransaction :=
  ⟨{ version := 1, unlockTime := 0, inputs := [.key ⟨100, [0], keyImageOf n⟩],
     outputs := [⟨100 - fee, .key ⟨keyOf n⟩⟩], extra := [], signatures := [[⟨Vector.replicate 64 0⟩]] },
    List.replicate size 0⟩

/-- A pool holding a transaction paying 10 for 2 bytes, then one paying 30 for 3. -/
def twoRatesPool : TransactionPool :=
  ⟨[⟨0, paying 1 10 2, none⟩, ⟨5, paying 2 30 3, none⟩], ⟨[keyImageOf 1, keyImageOf 2]⟩⟩

/-- The transaction paying 10 per byte comes before the one paying 5, and the pool lists them so. -/
theorem transactionPriorityComparator_strict_weak_order_two_rates :
    (∀ info ∈ twoRatesPool.transactions, 0 < info.blobSize ∧ info.blobSize < 2 ^ 64) ∧
      transactionPriorityComparator ⟨5, paying 2 30 3, none⟩ ⟨0, paying 1 10 2, none⟩ = true ∧
      twoRatesPool.getPoolTransactions.Pairwise fun earlier later => later.feePerByte ≤ earlier.feePerByte := by
  have sized : ∀ info ∈ twoRatesPool.transactions, 0 < info.blobSize ∧ info.blobSize < 2 ^ 64 := by
    decide
  exact ⟨sized, by decide, transactionPriorityComparator_strict_weak_order.2.2 twoRatesPool sized⟩

end Scenario

end Nox.CryptoNote
