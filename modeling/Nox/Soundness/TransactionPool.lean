import Nox.Proofs.CryptoNoteCore.PoolCleaner
import Nox.Model.CryptoNoteCore.Mixins
import Nox.Soundness.RingMembers

/-! # The key images of the pool over every run

Every call that `Core` and the cleaner make on the pool keeps `PoolInvariant`, and every call but
the cleaner is defined on such a pool. The pool state holds
exactly the key images of the pool's transactions. No image is spent twice, and no hash is held
twice. The cleaner, though, reads each transaction again after it has deleted it for its age.
It reads through `TransactionPool::getTransaction`, which asserts that the hash is present and
otherwise dereferences the end of the index. So a pool holding a transaction past its live time
is not cleaned: it is read out of bounds. Before any transaction reaches its live time, the cleaner
does what it should: it deletes exactly the transactions whose mixin fails and reports each once.
-/

namespace Nox.CryptoNote

open Nox.Crypto

/-- Every defined run of the pool's calls keeps the invariant, and on a pool of the invariant every
call but the cleaner is defined. The cleaner is undefined on any pool that holds a transaction past
its live time. -/
theorem pool_key_images_invariant_until_clean (context : CoreContext) :
    (∀ (operations : List PoolOperation) (pool pool' : TransactionPoolCleanWrapper),
      PoolInvariant context.primitives pool.transactionPool →
      runPool context operations pool = some pool' →
      PoolInvariant context.primitives pool'.transactionPool) ∧
    (∀ (pool : TransactionPoolCleanWrapper) (operation : PoolOperation),
      PoolInvariant context.primitives pool.transactionPool →
      (∀ height currentTime, operation ≠ .clean height currentTime) →
      (operation.apply context pool).isSome) ∧
    (∀ (pool : TransactionPoolCleanWrapper) (height : ℕ) (currentTime : UInt64),
      PoolInvariant context.primitives pool.transactionPool →
      (∃ info ∈ pool.transactionPool.transactions, currentTime - info.receiveTime ≥ pool.timeout) →
      (PoolOperation.clean height currentTime).apply context pool = none) := by
  refine ⟨?_, ?_, ?_⟩
  · intro operations pool pool' invariant run
    exact runPool_invariant invariant run
  · intro pool operation invariant notClean
    exact apply_isSome invariant notClean
  · rintro pool height currentTime invariant ⟨info, member, expired⟩
    rw [PoolOperation.apply,
      clean_eq_none_of_expired context.validateMixins height currentTime invariant member expired]
    rfl

/-- Before any transaction of the pool reaches its live time, `clean` is defined: it reports each
transaction whose mixin fails, once, and leaves exactly the others. Once one has reached it, the
cleaner reads that transaction after deleting it and is undefined. -/
theorem clean_deletes_invalid_before_expiry (primitives : Primitives)
    (validateMixins : List CachedTransaction → ℕ → Bool) (wrapper : TransactionPoolCleanWrapper) (height : ℕ)
    (currentTime : UInt64) (invariant : PoolInvariant primitives wrapper.transactionPool) :
    ((∀ info ∈ wrapper.transactionPool.transactions, currentTime - info.receiveTime < wrapper.timeout) →
      ∃ wrapper' deleted, wrapper.clean primitives validateMixins height currentTime = some (wrapper', deleted) ∧
        deleted.Nodup ∧
        (∀ hash, hash ∈ deleted ↔ ∃ info ∈ wrapper.transactionPool.transactions,
          info.getTransactionHash primitives = hash ∧ validateMixins [info.cachedTransaction] height = false) ∧
        (∀ info, info ∈ wrapper'.transactionPool.transactions ↔
          info ∈ wrapper.transactionPool.transactions ∧ validateMixins [info.cachedTransaction] height = true)) ∧
    ((∃ info ∈ wrapper.transactionPool.transactions, currentTime - info.receiveTime ≥ wrapper.timeout) →
      wrapper.clean primitives validateMixins height currentTime = none) := by
  constructor
  · intro fresh
    obtain ⟨wrapper', deleted, cleaned, distinct, -, reported, kept⟩ :=
      clean_fresh validateMixins height currentTime invariant fresh
    exact ⟨wrapper', deleted, cleaned, distinct, reported, kept⟩
  · rintro ⟨info, member, expired⟩
    exact clean_eq_none_of_expired validateMixins height currentTime invariant member expired

namespace Scenario

/-- A transaction spending one ring member under the key image `keyImageOf 1`. -/
def pendingSpend : CachedTransaction :=
  ⟨{ version := 1, unlockTime := 0, inputs := [.key ⟨genesisCoins, [0], keyImageOf 1⟩],
     outputs := [⟨genesisCoins, .key ⟨keyOf 90⟩⟩], extra := [], signatures := [[⟨Vector.replicate 64 0⟩]] }, []⟩

/-- The pool `Core` creates, after `pendingSpend` was pushed into it at time 0. -/
def agedPool : TransactionPoolCleanWrapper :=
  { TransactionPoolCleanWrapper.empty with transactionPool := ⟨[⟨0, pendingSpend, none⟩], ⟨[keyImageOf 1]⟩⟩ }

theorem agedPool_invariant : PoolInvariant primitives agedPool.transactionPool :=
  ⟨List.nodup_singleton _, List.nodup_singleton _, List.Perm.refl _⟩

/-- The cleaner, run one live time after the transaction came in, reads it after deleting it. -/
theorem clean_undefined_one_live_time_later :
    PoolInvariant primitives agedPool.transactionPool ∧
      (PoolOperation.clean 0 CRYPTONOTE_MEMPOOL_TX_LIVETIME).apply (context noCheckpoints) agedPool = none :=
  ⟨agedPool_invariant,
    (pool_key_images_invariant_until_clean (context noCheckpoints)).2.2 agedPool 0 CRYPTONOTE_MEMPOOL_TX_LIVETIME
      agedPool_invariant ⟨_, List.mem_singleton_self _, by decide⟩⟩

/-- A transaction spending another ring member, told apart from `pendingSpend` by its unlock time. -/
def laterSpend : CachedTransaction :=
  ⟨{ version := 1, unlockTime := 1, inputs := [.key ⟨genesisCoins, [1], keyImageOf 2⟩],
     outputs := [⟨genesisCoins, .key ⟨keyOf 91⟩⟩], extra := [], signatures := [[⟨Vector.replicate 64 0⟩]] }, []⟩

/-- The pool `Core` creates, after `pendingSpend` came in at time 0 and `laterSpend` half a day
later. -/
def twoPendingPool : TransactionPoolCleanWrapper :=
  { TransactionPoolCleanWrapper.empty with
    transactionPool := ⟨[⟨0, pendingSpend, none⟩, ⟨43200, laterSpend, none⟩], ⟨[keyImageOf 1, keyImageOf 2]⟩⟩ }

theorem twoPendingPool_invariant : PoolInvariant primitives twoPendingPool.transactionPool :=
  ⟨by decide, by decide, List.Perm.refl _⟩

/-- One live time after the first transaction came in, the cleaner with the mixin rules of height
0 is undefined, although the second transaction is still young. -/
theorem clean_undefined_with_one_expired :
    PoolInvariant primitives twoPendingPool.transactionPool ∧
      twoPendingPool.clean primitives (Mixins.success primitives) 0 CRYPTONOTE_MEMPOOL_TX_LIVETIME = none :=
  ⟨twoPendingPool_invariant,
    (clean_deletes_invalid_before_expiry primitives (Mixins.success primitives) twoPendingPool 0
      CRYPTONOTE_MEMPOOL_TX_LIVETIME twoPendingPool_invariant).2 ⟨_, List.mem_cons_self .., by decide⟩⟩

end Scenario

end Nox.CryptoNote
