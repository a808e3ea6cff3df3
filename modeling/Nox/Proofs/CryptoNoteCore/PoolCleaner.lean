import Nox.Proofs.CryptoNoteCore.TransactionPool

/-! # What the cleaner deletes from a pool within its live time

While no transaction of the pool has reached its live time, the age test of `clean` deletes nothing
and every hash the loop reads is still in the pool when it reads it. Each transaction is then
deleted exactly when its mixin fails, and its hash is reported once: the hashes come from the pool,
each once, and the loop reports only the hash in hand.
-/

namespace Nox.CryptoNote

open Nox.Crypto

section Pool

variable {primitives : Primitives}

/-- Removing a hash leaves exactly the transactions with another hash. -/
theorem mem_removeTransaction_iff {pool : TransactionPool} (invariant : PoolInvariant primitives pool)
    {hash : Hash} {info : PendingTransactionInfo} :
    info ∈ (pool.removeTransaction primitives hash).1.transactions ↔
      info ∈ pool.transactions ∧ info.getTransactionHash primitives ≠ hash := by
  constructor
  · intro member
    refine ⟨?_, find_eq_none_iff.mp (find_removeTransaction_self invariant hash) info member⟩
    rw [TransactionPool.removeTransaction] at member
    split at member
    · exact member
    · exact List.mem_of_mem_erase member
  · rintro ⟨member, other⟩
    exact mem_removeTransaction_of_ne member other

/-- Two transactions of a pool with one hash are one. -/
theorem eq_of_getTransactionHash_eq {pool : TransactionPool} (invariant : PoolInvariant primitives pool)
    {info info' : PendingTransactionInfo} (member : info ∈ pool.transactions) (member' : info' ∈ pool.transactions)
    (same : info'.getTransactionHash primitives = info.getTransactionHash primitives) : info' = info := by
  have found := find_of_mem invariant.hashes_nodup member
  have found' := find_of_mem invariant.hashes_nodup member'
  rw [same, found] at found'
  exact (Option.some.inj found').symm

end Pool

/-- What the loop leaves and reports, from a pool within its live time, over distinct hashes of
transactions in the pool. -/
structure SweepsFresh (primitives : Primitives) (validateMixins : List CachedTransaction → ℕ → Bool) (height : ℕ)
    (hashes : List Hash) (wrapper wrapper' : TransactionPoolCleanWrapper) (newlyDeleted : List Hash) : Prop where
  sublist : newlyDeleted.Sublist hashes
  timeout : wrapper'.timeout = wrapper.timeout
  deleted_iff : ∀ info ∈ wrapper.transactionPool.transactions, info.getTransactionHash primitives ∈ hashes →
    (info.getTransactionHash primitives ∈ newlyDeleted ↔ validateMixins [info.cachedTransaction] height = false)
  mem_iff : ∀ info, info ∈ wrapper'.transactionPool.transactions ↔ info ∈ wrapper.transactionPool.transactions ∧
    (info.getTransactionHash primitives ∈ hashes → validateMixins [info.cachedTransaction] height = true)

section Cleaner

variable {primitives : Primitives} (validateMixins : List CachedTransaction → ℕ → Bool) (height : ℕ)
  (currentTime : UInt64)

/-- Every transaction of the wrapper's pool is within its live time at `currentTime`. -/
def Fresh (wrapper : TransactionPoolCleanWrapper) : Prop :=
  ∀ info ∈ wrapper.transactionPool.transactions, currentTime - info.receiveTime < wrapper.timeout

/-- On a transaction within its live time the age test deletes nothing, and the mixin test deletes
it exactly when it fails. -/
theorem cleanLoop_cons_of_young {wrapper : TransactionPoolCleanWrapper} {deleted hashes : List Hash}
    {info : PendingTransactionInfo} (invariant : PoolInvariant primitives wrapper.transactionPool)
    (member : info ∈ wrapper.transactionPool.transactions) (young : currentTime - info.receiveTime < wrapper.timeout) :
    TransactionPoolCleanWrapper.cleanLoop primitives validateMixins height currentTime
        (info.getTransactionHash primitives :: hashes) wrapper deleted =
      if validateMixins [info.cachedTransaction] height then
        TransactionPoolCleanWrapper.cleanLoop primitives validateMixins height currentTime hashes wrapper deleted
      else
        TransactionPoolCleanWrapper.cleanLoop primitives validateMixins height currentTime hashes
          (wrapper.deleteTransaction primitives (info.getTransactionHash primitives) currentTime deleted).1
          (deleted ++ [info.getTransactionHash primitives]) := by
  have found := find_of_mem invariant.hashes_nodup member
  have notAged : ¬ currentTime - info.receiveTime ≥ wrapper.timeout := UInt64.not_le.mpr young
  rw [TransactionPoolCleanWrapper.cleanLoop]
  simp only [TransactionPool.getTransactionReceiveTime, TransactionPool.getTransaction, found, Option.map_some,
    Option.bind_eq_bind, Option.bind_some, if_neg notAged]
  cases validateMixins [info.cachedTransaction] height <;> rfl

theorem SweepsFresh.nil (wrapper : TransactionPoolCleanWrapper) :
    SweepsFresh primitives validateMixins height [] wrapper wrapper [] where
  sublist := List.Sublist.slnil
  timeout := rfl
  deleted_iff := fun _ _ listed => absurd listed List.not_mem_nil
  mem_iff := fun _ => by simp

/-- A transaction kept at the head of the loop. -/
theorem SweepsFresh.keep {hashes : List Hash} {wrapper wrapper' : TransactionPoolCleanWrapper}
    {newlyDeleted : List Hash} {info : PendingTransactionInfo} (invariant : PoolInvariant primitives wrapper.transactionPool)
    (member : info ∈ wrapper.transactionPool.transactions) (fresh : info.getTransactionHash primitives ∉ hashes)
    (valid : validateMixins [info.cachedTransaction] height = true)
    (rest : SweepsFresh primitives validateMixins height hashes wrapper wrapper' newlyDeleted) :
    SweepsFresh primitives validateMixins height (info.getTransactionHash primitives :: hashes) wrapper wrapper' newlyDeleted where
  sublist := rest.sublist.cons _
  timeout := rest.timeout
  deleted_iff := by
    intro other otherMember listed
    rcases List.mem_cons.mp listed with same | later
    · -- the head itself: kept, and never reported by the rest
      rw [eq_of_getTransactionHash_eq invariant member otherMember same, valid]
      exact iff_of_false (fun reported => fresh (rest.sublist.subset reported)) (by decide)
    · exact rest.deleted_iff other otherMember later
  mem_iff := by
    intro other
    rw [rest.mem_iff]
    constructor
    · rintro ⟨otherMember, later⟩
      refine ⟨otherMember, fun listed => ?_⟩
      rcases List.mem_cons.mp listed with same | listed
      · rw [eq_of_getTransactionHash_eq invariant member otherMember same]
        exact valid
      · exact later listed
    · rintro ⟨otherMember, listed⟩
      exact ⟨otherMember, fun later => listed (List.mem_cons_of_mem _ later)⟩

/-- A transaction deleted at the head of the loop. -/
theorem SweepsFresh.delete {hashes : List Hash} {wrapper wrapper' : TransactionPoolCleanWrapper}
    {newlyDeleted deleted : List Hash} {info : PendingTransactionInfo}
    (invariant : PoolInvariant primitives wrapper.transactionPool) (member : info ∈ wrapper.transactionPool.transactions)
    (invalid : validateMixins [info.cachedTransaction] height = false)
    (rest : SweepsFresh primitives validateMixins height hashes
      (wrapper.deleteTransaction primitives (info.getTransactionHash primitives) currentTime deleted).1 wrapper'
      newlyDeleted) :
    SweepsFresh primitives validateMixins height (info.getTransactionHash primitives :: hashes) wrapper wrapper'
      (info.getTransactionHash primitives :: newlyDeleted) where
  sublist := rest.sublist.cons_cons _
  timeout := by rw [rest.timeout, deleteTransaction_timeout]
  deleted_iff := by
    intro other otherMember listed
    by_cases same : other.getTransactionHash primitives = info.getTransactionHash primitives
    · rw [eq_of_getTransactionHash_eq invariant member otherMember same, invalid]
      exact iff_of_true (List.mem_cons_self ..) rfl
    · have kept : other ∈ (wrapper.deleteTransaction primitives (info.getTransactionHash primitives) currentTime
          deleted).1.transactionPool.transactions := by
        rw [deleteTransaction_transactionPool]
        exact mem_removeTransaction_of_ne otherMember same
      rw [List.mem_cons, or_iff_right same]
      exact rest.deleted_iff other kept ((List.mem_cons.mp listed).resolve_left same)
  mem_iff := by
    intro other
    rw [rest.mem_iff, deleteTransaction_transactionPool, mem_removeTransaction_iff invariant]
    by_cases same : other.getTransactionHash primitives = info.getTransactionHash primitives
    · -- the deleted transaction is the only one with its hash
      simp only [same, ne_eq, not_true_eq_false, and_false, false_and, false_iff, not_and]
      intro otherMember
      rw [eq_of_getTransactionHash_eq invariant member otherMember same, invalid]
      exact fun passes => Bool.false_ne_true (passes (List.mem_cons_self ..))
    · simp only [ne_eq, same, not_false_eq_true, and_true, List.mem_cons, false_or]

/-- From a pool within its live time, over distinct hashes of transactions in it, the loop is
defined and deletes exactly the transactions whose mixin fails. -/
theorem cleanLoop_fresh :
    ∀ {hashes : List Hash} {wrapper : TransactionPoolCleanWrapper} {deleted : List Hash},
      PoolInvariant primitives wrapper.transactionPool → Fresh currentTime wrapper → hashes.Nodup →
      (∀ hash ∈ hashes, ∃ info ∈ wrapper.transactionPool.transactions, info.getTransactionHash primitives = hash) →
      ∃ wrapper' newlyDeleted,
        TransactionPoolCleanWrapper.cleanLoop primitives validateMixins height currentTime hashes wrapper deleted =
          some (wrapper', deleted ++ newlyDeleted) ∧
        SweepsFresh primitives validateMixins height hashes wrapper wrapper' newlyDeleted := by
  intro hashes
  induction hashes with
  | nil =>
    intro wrapper deleted _ _ _ _
    exact ⟨wrapper, [], by simp [TransactionPoolCleanWrapper.cleanLoop], SweepsFresh.nil validateMixins height wrapper⟩
  | cons hash hashes ih =>
    intro wrapper deleted invariant fresh distinct present
    obtain ⟨info, member, rfl⟩ := present _ (List.mem_cons_self ..)
    obtain ⟨notLater, distinctLater⟩ := List.nodup_cons.mp distinct
    rw [cleanLoop_cons_of_young validateMixins height currentTime invariant member (fresh info member)]
    cases valid : validateMixins [info.cachedTransaction] height
    · -- deleted for its mixin: the rest runs on the pool without it
      rw [if_neg Bool.false_ne_true]
      have removedInvariant := removeTransaction_invariant invariant (info.getTransactionHash primitives)
      have removedFresh : Fresh currentTime
          (wrapper.deleteTransaction primitives (info.getTransactionHash primitives) currentTime deleted).1 := by
        intro other otherMember
        rw [deleteTransaction_transactionPool, mem_removeTransaction_iff invariant] at otherMember
        rw [deleteTransaction_timeout]
        exact fresh other otherMember.1
      have removedPresent : ∀ hash ∈ hashes, ∃ other ∈ (wrapper.deleteTransaction primitives
          (info.getTransactionHash primitives) currentTime deleted).1.transactionPool.transactions,
          other.getTransactionHash primitives = hash := by
        intro hash later
        obtain ⟨other, otherMember, rfl⟩ := present hash (List.mem_cons_of_mem _ later)
        refine ⟨other, ?_, rfl⟩
        rw [deleteTransaction_transactionPool]
        exact mem_removeTransaction_of_ne otherMember (fun same => notLater (same ▸ later))
      rw [← deleteTransaction_transactionPool wrapper _ currentTime deleted] at removedInvariant
      obtain ⟨wrapper', newlyDeleted, run, sweeps⟩ := ih removedInvariant removedFresh distinctLater removedPresent
      refine ⟨wrapper', info.getTransactionHash primitives :: newlyDeleted, ?_,
        sweeps.delete validateMixins height currentTime invariant member valid⟩
      rw [run, List.append_assoc, List.singleton_append]
    · rw [if_pos rfl]
      have keptPresent : ∀ hash ∈ hashes, ∃ other ∈ wrapper.transactionPool.transactions,
          other.getTransactionHash primitives = hash := fun hash later => present hash (List.mem_cons_of_mem _ later)
      obtain ⟨wrapper', newlyDeleted, run, sweeps⟩ := ih invariant fresh distinctLater keptPresent
      exact ⟨wrapper', newlyDeleted, run, sweeps.keep validateMixins height invariant member notLater valid⟩

/-- From a pool within its live time, `clean` is defined. It reports each transaction whose mixin
fails, once, and leaves exactly those whose mixin passes. -/
theorem clean_fresh {wrapper : TransactionPoolCleanWrapper} (invariant : PoolInvariant primitives wrapper.transactionPool)
    (fresh : Fresh currentTime wrapper) :
    ∃ wrapper' deleted, wrapper.clean primitives validateMixins height currentTime = some (wrapper', deleted) ∧
      deleted.Nodup ∧ wrapper'.timeout = wrapper.timeout ∧
      (∀ hash, hash ∈ deleted ↔ ∃ info ∈ wrapper.transactionPool.transactions,
        info.getTransactionHash primitives = hash ∧ validateMixins [info.cachedTransaction] height = false) ∧
      (∀ info, info ∈ wrapper'.transactionPool.transactions ↔
        info ∈ wrapper.transactionPool.transactions ∧ validateMixins [info.cachedTransaction] height = true) := by
  have hashes : (wrapper.transactionPool.getTransactionHashes primitives).Perm
      (wrapper.transactionPool.transactions.map (·.getTransactionHash primitives)) :=
    getTransactionHashes_perm wrapper.transactionPool
  have distinct := hashes.nodup_iff.mpr invariant.hashes_nodup
  have present : ∀ hash ∈ wrapper.transactionPool.getTransactionHashes primitives,
      ∃ info ∈ wrapper.transactionPool.transactions, info.getTransactionHash primitives = hash := by
    intro hash listed
    exact List.mem_map.mp (hashes.mem_iff.mp listed)
  obtain ⟨swept, deleted, run, sweeps⟩ := cleanLoop_fresh validateMixins height currentTime invariant fresh distinct present
  refine ⟨swept.cleanRecentlyDeletedTransactions currentTime, deleted, ?_, ?_, sweeps.timeout, ?_, ?_⟩
  · rw [TransactionPoolCleanWrapper.clean, run]
    simp
  · exact distinct.sublist sweeps.sublist
  · intro hash
    constructor
    · intro reported
      obtain ⟨info, member, rfl⟩ := present hash (sweeps.sublist.subset reported)
      exact ⟨info, member, rfl, (sweeps.deleted_iff info member (mem_getTransactionHashes member)).mp reported⟩
    · rintro ⟨info, member, rfl, invalid⟩
      exact (sweeps.deleted_iff info member (mem_getTransactionHashes member)).mpr invalid
  · intro info
    rw [cleanRecentlyDeletedTransactions_transactionPool, sweeps.mem_iff]
    exact and_congr_right fun member => ⟨fun passes => passes (mem_getTransactionHashes member), fun passes _ => passes⟩

end Cleaner

end Nox.CryptoNote
