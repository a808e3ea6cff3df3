import Nox.Model.CryptoNoteCore.TransactionPool
import Nox.Proofs.Common.IntUtil
import Mathlib.Algebra.Order.Field.Rat
import Mathlib.Data.Prod.Lex

/-! # The order of the pool's cost index

`TransactionPriorityComparator` compares the fees per byte of two transactions without dividing:
it multiplies each fee by the other transaction's size with `mul128` and compares the two-word
products, high word first. As `mul128` is exact, that is the comparison of the two cross products,
and for nonzero sizes the comparison of the fees per byte as rationals. Ties go to the smaller
transaction, then to the older one. So the comparator is the strict order of a key in a linear
order, `priorityKey`: on transactions with a nonzero blob it is a strict weak order, and the cost
index, which `getPoolTransactions` walks, lists the pool with fees per byte that never increase.
-/

namespace Nox.CryptoNote

/-- `getTransactionBinaryArray().size()` of a pending transaction. -/
def PendingTransactionInfo.blobSize (info : PendingTransactionInfo) : ℕ :=
  info.cachedTransaction.transactionBinaryArray.length

/-- A transaction's fee per byte of its blob. -/
def CachedTransaction.feePerByte (transaction : CachedTransaction) : ℚ :=
  (transaction.getTransactionFee.toNat : ℚ) / transaction.transactionBinaryArray.length

/-- What the cost index orders by: the fee per byte, highest first, then the blob size and the
receive time, smallest first. -/
def priorityKey (info : PendingTransactionInfo) : Lex (ℚᵒᵈ × Lex (ℕ × ℕ)) :=
  toLex (OrderDual.toDual info.cachedTransaction.feePerByte, toLex (info.blobSize, info.receiveTime.toNat))

/-- A pending transaction whose blob is neither empty nor beyond a `size_t`. -/
abbrev SizedPending : Type := {info : PendingTransactionInfo // 0 < info.blobSize ∧ info.blobSize < 2 ^ 64}

/-! ## Two-word products -/

/-- Products split by `mul128` compare as their high words, then as their low words. -/
theorem mul128_lex_lt_iff (a b c d : UInt64) :
    ((IntUtil.mul128 a b).2 > (IntUtil.mul128 c d).2 ∨
        (IntUtil.mul128 a b).2 = (IntUtil.mul128 c d).2 ∧ (IntUtil.mul128 a b).1 > (IntUtil.mul128 c d).1) ↔
      c.toNat * d.toNat < a.toNat * b.toNat := by
  have left := IntUtil.mul128_value a b
  have right := IntUtil.mul128_value c d
  have leftLow := (IntUtil.mul128 a b).1.toNat_lt
  have rightLow := (IntUtil.mul128 c d).1.toNat_lt
  rw [gt_iff_lt, gt_iff_lt, UInt64.lt_iff_toNat_lt, UInt64.lt_iff_toNat_lt, ← UInt64.toNat_inj]
  generalize a.toNat * b.toNat = leftProduct at left ⊢
  generalize c.toNat * d.toNat = rightProduct at right ⊢
  omega

/-- Products split by `mul128` are equal exactly when both their words are. -/
theorem mul128_eq_iff (a b c d : UInt64) :
    ((IntUtil.mul128 a b).2 = (IntUtil.mul128 c d).2 ∧ (IntUtil.mul128 a b).1 = (IntUtil.mul128 c d).1) ↔
      a.toNat * b.toNat = c.toNat * d.toNat := by
  have left := IntUtil.mul128_value a b
  have right := IntUtil.mul128_value c d
  have leftLow := (IntUtil.mul128 a b).1.toNat_lt
  have rightLow := (IntUtil.mul128 c d).1.toNat_lt
  rw [← UInt64.toNat_inj, ← UInt64.toNat_inj]
  generalize a.toNat * b.toNat = leftProduct at left ⊢
  generalize c.toNat * d.toNat = rightProduct at right ⊢
  omega

/-! ## The comparator as cross products, then as fees per byte -/

/-- The comparator reads the two words of each product. -/
theorem transactionPriorityComparator_eq (lhs rhs : PendingTransactionInfo) :
    transactionPriorityComparator lhs rhs =
      (decide ((IntUtil.mul128 lhs.cachedTransaction.getTransactionFee (UInt64.ofNat rhs.blobSize)).2 >
          (IntUtil.mul128 rhs.cachedTransaction.getTransactionFee (UInt64.ofNat lhs.blobSize)).2) ||
        ((IntUtil.mul128 lhs.cachedTransaction.getTransactionFee (UInt64.ofNat rhs.blobSize)).2 ==
            (IntUtil.mul128 rhs.cachedTransaction.getTransactionFee (UInt64.ofNat lhs.blobSize)).2 &&
          decide ((IntUtil.mul128 lhs.cachedTransaction.getTransactionFee (UInt64.ofNat rhs.blobSize)).1 >
            (IntUtil.mul128 rhs.cachedTransaction.getTransactionFee (UInt64.ofNat lhs.blobSize)).1)) ||
        ((IntUtil.mul128 lhs.cachedTransaction.getTransactionFee (UInt64.ofNat rhs.blobSize)).2 ==
            (IntUtil.mul128 rhs.cachedTransaction.getTransactionFee (UInt64.ofNat lhs.blobSize)).2 &&
          (IntUtil.mul128 lhs.cachedTransaction.getTransactionFee (UInt64.ofNat rhs.blobSize)).1 ==
            (IntUtil.mul128 rhs.cachedTransaction.getTransactionFee (UInt64.ofNat lhs.blobSize)).1 &&
          decide (lhs.blobSize < rhs.blobSize)) ||
        ((IntUtil.mul128 lhs.cachedTransaction.getTransactionFee (UInt64.ofNat rhs.blobSize)).2 ==
            (IntUtil.mul128 rhs.cachedTransaction.getTransactionFee (UInt64.ofNat lhs.blobSize)).2 &&
          (IntUtil.mul128 lhs.cachedTransaction.getTransactionFee (UInt64.ofNat rhs.blobSize)).1 ==
            (IntUtil.mul128 rhs.cachedTransaction.getTransactionFee (UInt64.ofNat lhs.blobSize)).1 &&
          lhs.blobSize == rhs.blobSize && decide (lhs.receiveTime < rhs.receiveTime))) := rfl

/-- The comparator compares the cross products of fees and sizes exactly, then the sizes and the
receive times. -/
theorem transactionPriorityComparator_iff {lhs rhs : PendingTransactionInfo} (lhsFits : lhs.blobSize < 2 ^ 64)
    (rhsFits : rhs.blobSize < 2 ^ 64) :
    transactionPriorityComparator lhs rhs = true ↔
      rhs.cachedTransaction.getTransactionFee.toNat * lhs.blobSize <
          lhs.cachedTransaction.getTransactionFee.toNat * rhs.blobSize ∨
        lhs.cachedTransaction.getTransactionFee.toNat * rhs.blobSize =
            rhs.cachedTransaction.getTransactionFee.toNat * lhs.blobSize ∧
          (lhs.blobSize < rhs.blobSize ∨ lhs.blobSize = rhs.blobSize ∧ lhs.receiveTime.toNat < rhs.receiveTime.toNat) := by
  have lhsSize : (UInt64.ofNat lhs.blobSize).toNat = lhs.blobSize := by
    rw [UInt64.toNat_ofNat', Nat.mod_eq_of_lt lhsFits]
  have rhsSize : (UInt64.ofNat rhs.blobSize).toNat = rhs.blobSize := by
    rw [UInt64.toNat_ofNat', Nat.mod_eq_of_lt rhsFits]
  have higher := mul128_lex_lt_iff lhs.cachedTransaction.getTransactionFee (UInt64.ofNat rhs.blobSize)
    rhs.cachedTransaction.getTransactionFee (UInt64.ofNat lhs.blobSize)
  have same := mul128_eq_iff lhs.cachedTransaction.getTransactionFee (UInt64.ofNat rhs.blobSize)
    rhs.cachedTransaction.getTransactionFee (UInt64.ofNat lhs.blobSize)
  rw [lhsSize, rhsSize] at higher same
  rw [transactionPriorityComparator_eq]
  simp only [Bool.or_eq_true, Bool.and_eq_true, decide_eq_true_eq, beq_iff_eq]
  -- the first two tests compare the products, the other two start from their equality
  rw [higher, same, UInt64.lt_iff_toNat_lt]
  constructor
  · rintro ((before | ⟨equal, smaller⟩) | ⟨⟨equal, sameSize⟩, older⟩)
    · exact .inl before
    · exact .inr ⟨equal, .inl smaller⟩
    · exact .inr ⟨equal, .inr ⟨sameSize, older⟩⟩
  · rintro (before | ⟨equal, smaller | ⟨sameSize, older⟩⟩)
    · exact .inl (.inl before)
    · exact .inl (.inr ⟨equal, smaller⟩)
    · exact .inr ⟨⟨equal, sameSize⟩, older⟩

/-- For nonzero sizes the cross products compare the fees per byte. -/
theorem feePerByte_lt_iff {lhs rhs : PendingTransactionInfo} (lhsPositive : 0 < lhs.blobSize)
    (rhsPositive : 0 < rhs.blobSize) :
    rhs.cachedTransaction.feePerByte < lhs.cachedTransaction.feePerByte ↔
      rhs.cachedTransaction.getTransactionFee.toNat * lhs.blobSize <
        lhs.cachedTransaction.getTransactionFee.toNat * rhs.blobSize := by
  unfold CachedTransaction.feePerByte
  rw [div_lt_div_iff₀ (by exact_mod_cast rhsPositive) (by exact_mod_cast lhsPositive)]
  unfold PendingTransactionInfo.blobSize
  norm_cast

theorem feePerByte_eq_iff {lhs rhs : PendingTransactionInfo} (lhsPositive : 0 < lhs.blobSize)
    (rhsPositive : 0 < rhs.blobSize) :
    lhs.cachedTransaction.feePerByte = rhs.cachedTransaction.feePerByte ↔
      lhs.cachedTransaction.getTransactionFee.toNat * rhs.blobSize =
        rhs.cachedTransaction.getTransactionFee.toNat * lhs.blobSize := by
  unfold CachedTransaction.feePerByte
  rw [div_eq_div_iff (by exact_mod_cast lhsPositive.ne') (by exact_mod_cast rhsPositive.ne')]
  unfold PendingTransactionInfo.blobSize
  norm_cast

/-- The key's order: a higher fee per byte, or the same and a smaller blob, or both the same and an
earlier receive time. -/
theorem priorityKey_lt_iff (lhs rhs : PendingTransactionInfo) :
    priorityKey lhs < priorityKey rhs ↔
      rhs.cachedTransaction.feePerByte < lhs.cachedTransaction.feePerByte ∨
        lhs.cachedTransaction.feePerByte = rhs.cachedTransaction.feePerByte ∧
          (lhs.blobSize < rhs.blobSize ∨ lhs.blobSize = rhs.blobSize ∧ lhs.receiveTime.toNat < rhs.receiveTime.toNat) := by
  unfold priorityKey
  rw [Prod.Lex.lt_iff]
  simp only [ofLex_toLex, OrderDual.toDual_lt_toDual, OrderDual.toDual_inj, Prod.Lex.lt_iff]

/-- On transactions with a nonzero blob the comparator is the order of their keys. -/
theorem transactionPriorityComparator_iff_priorityKey (lhs rhs : SizedPending) :
    transactionPriorityComparator lhs.1 rhs.1 = true ↔ priorityKey lhs.1 < priorityKey rhs.1 := by
  rw [transactionPriorityComparator_iff lhs.2.2 rhs.2.2, priorityKey_lt_iff,
    feePerByte_lt_iff lhs.2.1 rhs.2.1, feePerByte_eq_iff lhs.2.1 rhs.2.1]

/-! ## A strict weak order, and the order of the index -/

/-- The comparator is a strict weak order on transactions with a nonzero blob: incomparable
transactions are those with the same key. -/
theorem transactionPriorityComparator_isStrictWeakOrder :
    IsStrictWeakOrder SizedPending (fun lhs rhs => transactionPriorityComparator lhs.1 rhs.1 = true) where
  irrefl info before := lt_irrefl _ ((transactionPriorityComparator_iff_priorityKey info info).mp before)
  trans a b c first second := (transactionPriorityComparator_iff_priorityKey a c).mpr
    (((transactionPriorityComparator_iff_priorityKey a b).mp first).trans
      ((transactionPriorityComparator_iff_priorityKey b c).mp second))
  incomp_trans a b c first second := by
    simp only [transactionPriorityComparator_iff_priorityKey, not_lt] at first second ⊢
    have sameAB := le_antisymm first.2 first.1
    have sameBC := le_antisymm second.2 second.1
    rw [sameAB, sameBC]
    exact ⟨le_refl _, le_refl _⟩

/-- The cost index puts `lhs` no later than `rhs` when `rhs` does not come first. -/
theorem not_transactionPriorityComparator_iff (lhs rhs : SizedPending) :
    (!transactionPriorityComparator rhs.1 lhs.1) = true ↔ priorityKey lhs.1 ≤ priorityKey rhs.1 := by
  rw [Bool.not_eq_true', ← Bool.not_eq_true, transactionPriorityComparator_iff_priorityKey, not_lt]

/-- The sort of the cost index over transactions with a nonzero blob puts their keys in order. -/
theorem pairwise_mergeSort_priorityKey (infos : List SizedPending) :
    (infos.mergeSort fun lhs rhs => !transactionPriorityComparator rhs.1 lhs.1).Pairwise
      fun lhs rhs => priorityKey lhs.1 ≤ priorityKey rhs.1 := by
  have sorted := @List.pairwise_mergeSort SizedPending
    (fun lhs rhs => !transactionPriorityComparator rhs.1 lhs.1)
    (fun a b c first second => by
      rw [not_transactionPriorityComparator_iff] at first second ⊢
      exact first.trans second)
    (fun a b => by
      rw [Bool.or_eq_true, not_transactionPriorityComparator_iff, not_transactionPriorityComparator_iff]
      exact le_total _ _)
    infos
  exact sorted.imp fun ordered => (not_transactionPriorityComparator_iff _ _).mp ordered

/-- `getPoolTransactions` lists a pool of transactions with nonzero blobs in the order of their
keys, so with fees per byte that never increase. -/
theorem getPoolTransactions_feePerByte (pool : TransactionPool)
    (sized : ∀ info ∈ pool.transactions, 0 < info.blobSize ∧ info.blobSize < 2 ^ 64) :
    pool.getPoolTransactions.Pairwise fun earlier later => later.feePerByte ≤ earlier.feePerByte := by
  let infos : List SizedPending := pool.transactions.attach.map fun info => ⟨info.1, sized info.1 info.2⟩
  -- the sort of the pool is the sort of its transactions with their sizes attached
  have lifted : (infos.mergeSort fun lhs rhs => !transactionPriorityComparator rhs.1 lhs.1).map Subtype.val =
      pool.transactions.mergeSort fun lhs rhs => !transactionPriorityComparator rhs lhs := by
    rw [@List.map_mergeSort SizedPending PendingTransactionInfo (fun lhs rhs => !transactionPriorityComparator rhs.1 lhs.1)
      (fun lhs rhs => !transactionPriorityComparator rhs lhs) Subtype.val infos (fun _ _ _ _ => rfl)]
    simp only [infos, List.map_map, Function.comp_def, List.attach_map_subtype_val]
  have sorted := pairwise_mergeSort_priorityKey infos
  unfold TransactionPool.getPoolTransactions
  rw [← lifted, List.map_map, List.pairwise_map]
  exact sorted.imp fun ordered => Prod.Lex.monotone_fst _ _ ordered

end Nox.CryptoNote
