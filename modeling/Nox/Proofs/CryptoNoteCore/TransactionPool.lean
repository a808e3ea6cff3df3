import Mathlib.Data.List.Pairwise
import Nox.Library.Except
import Nox.Model.CryptoNoteCore.TransactionPool

/-! # The key images of the pool

`PoolInvariant` says what `poolState` is for: it holds each key image a pool transaction spends,
once, no two pool transactions spend one image, and no two share a hash. A transaction that
`Core` validates from an empty state leaves the state holding its own key images, each once, so
`pushTransaction` with that state appends exactly them, and `removeTransaction` erases exactly
them. Every operation on the pool is built of these two, and keeps the invariant.
-/

namespace Nox.CryptoNote

open Nox.Crypto

/-- The key images of the key inputs of a list of inputs. -/
def inputsKeyImages (inputs : List TransactionInput) : List KeyImage :=
  inputs.filterMap fun
    | .key input => some input.keyImage
    | .base _ => none

@[simp] theorem inputsKeyImages_nil : inputsKeyImages [] = [] := rfl

@[simp] theorem inputsKeyImages_key (input : KeyInput) (inputs : List TransactionInput) :
    inputsKeyImages (.key input :: inputs) = input.keyImage :: inputsKeyImages inputs := rfl

@[simp] theorem inputsKeyImages_base (input : BaseInput) (inputs : List TransactionInput) :
    inputsKeyImages (.base input :: inputs) = inputsKeyImages inputs := rfl

/-- The key images a transaction spends. -/
def CachedTransaction.keyImages (transaction : CachedTransaction) : List KeyImage :=
  inputsKeyImages transaction.transaction.inputs

/-- The key images the pool's transactions spend, in pool order. -/
def TransactionPool.keyImages (pool : TransactionPool) : List KeyImage :=
  pool.transactions.flatMap (·.cachedTransaction.keyImages)

/-- What `poolState` is for: the key images of the pool's transactions, each once, and a pool
unique by hash. -/
structure PoolInvariant (primitives : Primitives) (pool : TransactionPool) : Prop where
  hashes_nodup : (pool.transactions.map (·.getTransactionHash primitives)).Nodup
  keyImages_nodup : pool.keyImages.Nodup
  poolState_perm : pool.poolState.spentKeyImages.Perm pool.keyImages

/-! ## Validator states -/

theorem insertKeyImage_of_not_mem {images : List KeyImage} {keyImage : KeyImage} (absent : keyImage ∉ images) :
    insertKeyImage images keyImage = images ++ [keyImage] := by
  rw [insertKeyImage, if_neg absent]

/-- Merging images none of which the destination holds, each once, appends them. -/
theorem foldl_insertKeyImage_of_disjoint : ∀ {source : List KeyImage} (destination : List KeyImage),
    source.Nodup → (∀ keyImage ∈ source, keyImage ∉ destination) →
    source.foldl insertKeyImage destination = destination ++ source := by
  intro source
  induction source with
  | nil =>
    intro destination _ _
    simp
  | cons keyImage source ih =>
    intro destination distinct disjoint
    obtain ⟨notLater, restDistinct⟩ := List.nodup_cons.mp distinct
    rw [List.foldl_cons, insertKeyImage_of_not_mem (disjoint keyImage List.mem_cons_self)]
    rw [ih _ restDistinct]
    · simp
    · intro other member
      rw [List.mem_append, List.mem_singleton, not_or]
      exact ⟨disjoint other (List.mem_cons_of_mem _ member), fun same => notLater (same ▸ member)⟩

theorem hasIntersections_eq_false {destination source : TransactionValidatorState} :
    hasIntersections destination source = false ↔
      ∀ keyImage ∈ source.spentKeyImages, keyImage ∉ destination.spentKeyImages := by
  simp [hasIntersections]

theorem excludeFromState_spentKeyImages (state : TransactionValidatorState) (transaction : CachedTransaction) :
    (excludeFromState state transaction).spentKeyImages =
      transaction.keyImages.foldl List.erase state.spentKeyImages := by
  rw [excludeFromState, CachedTransaction.keyImages]
  induction transaction.transaction.inputs generalizing state with
  | nil => rfl
  | cons input inputs ih =>
    cases input with
    | base input => exact ih state
    | key input => exact ih _

/-- Erasing, one by one, images held once in the middle of a list leaves the rest. -/
theorem foldl_erase_perm {removed : List KeyImage} :
    ∀ {images before after : List KeyImage}, images.Perm (before ++ removed ++ after) →
      (before ++ removed ++ after).Nodup → (removed.foldl List.erase images).Perm (before ++ after) := by
  induction removed with
  | nil =>
    intro images before after perm _
    simpa using perm
  | cons keyImage removed ih =>
    intro images before after perm distinct
    have notBefore : keyImage ∉ before := by
      intro member
      have split : (before ++ (keyImage :: removed) ++ after) = before ++ keyImage :: (removed ++ after) := by simp
      rw [split, List.nodup_append] at distinct
      exact distinct.2.2 keyImage member keyImage List.mem_cons_self rfl
    have erased : (before ++ keyImage :: removed ++ after).erase keyImage = before ++ removed ++ after := by
      rw [List.append_assoc, List.erase_append_right _ notBefore, List.cons_append, List.erase_cons_head,
        List.append_assoc]
    rw [List.foldl_cons]
    apply ih (perm.erase keyImage |>.trans (by rw [erased]))
    exact (List.Sublist.append_left (List.Sublist.append_right (List.sublist_cons_self _ _) _) _).nodup
      (by simpa using distinct) |> fun sub => by simpa [List.append_assoc] using sub

/-! ## Validation from an empty state -/

section Validation

variable (context : CoreContext) (cache : List Segment) (transaction : Transaction) (blockIndex : ℕ)

/-- A key input that passes had an image the block had not spent, and the inputs after it pass
from the state with the image added. -/
theorem validateKeyInputs_key_ok {input : KeyInput} {inputs : List TransactionInput} {inputIndex : ℕ}
    {state state' : TransactionValidatorState}
    (valid : context.validateKeyInputs cache transaction blockIndex (.key input :: inputs) inputIndex state =
      .ok state') :
    input.keyImage ∉ state.spentKeyImages ∧
      context.validateKeyInputs cache transaction blockIndex inputs (inputIndex + 1)
        ⟨state.spentKeyImages ++ [input.keyImage]⟩ = .ok state' := by
  have fresh : input.keyImage ∉ state.spentKeyImages := by
    intro spent
    rw [CoreContext.validateKeyInputs, if_pos spent] at valid
    cases valid
  refine ⟨fresh, ?_⟩
  rw [CoreContext.validateKeyInputs, if_neg fresh] at valid
  dsimp only at valid
  split_ifs at valid
  · exact valid
  · -- the ring must resolve and its signature verify; every other branch is an error
    split at valid
    · cases valid
    · cases valid
    · split_ifs at valid
      exact valid

/-- The key input loop appends the images of the inputs to the state and keeps it free of
repeats. -/
theorem validateKeyInputs_spentKeyImages : ∀ {inputs : List TransactionInput} {inputIndex : ℕ}
    {state state' : TransactionValidatorState},
    context.validateKeyInputs cache transaction blockIndex inputs inputIndex state = .ok state' →
    state'.spentKeyImages = state.spentKeyImages ++ inputsKeyImages inputs ∧
      (state.spentKeyImages.Nodup → state'.spentKeyImages.Nodup) := by
  intro inputs
  induction inputs with
  | nil =>
    intro inputIndex state state' valid
    rw [CoreContext.validateKeyInputs] at valid
    cases valid
    simp
  | cons input inputs ih =>
    intro inputIndex state state' valid
    cases input with
    | base input =>
      rw [CoreContext.validateKeyInputs] at valid
      cases valid
    | key input =>
      obtain ⟨fresh, rest⟩ := validateKeyInputs_key_ok context cache transaction blockIndex valid
      obtain ⟨images, distinct⟩ := ih rest
      constructor
      · rw [images, inputsKeyImages_key, List.append_assoc, List.singleton_append]
      · intro nodup
        apply distinct
        rw [List.nodup_append]
        refine ⟨nodup, List.nodup_singleton _, ?_⟩
        rintro other member keyImage single rfl
        rw [List.mem_singleton] at single
        exact fresh (single ▸ member)

/-- A transaction that validates from an empty state leaves its own key images, each once. -/
theorem validateTransaction_spentKeyImages {cachedTransaction : CachedTransaction} {fee : UInt64}
    {state : TransactionValidatorState}
    (valid : context.validateTransaction cache cachedTransaction ⟨[]⟩ blockIndex = .ok (fee, state)) :
    state.spentKeyImages = cachedTransaction.keyImages ∧ state.spentKeyImages.Nodup := by
  obtain ⟨semanticFee, -, rest⟩ := (Except.bind_eq_ok _ _ _).mp valid
  obtain ⟨state', keyInputs, result⟩ := (Except.bind_eq_ok _ _ _).mp rest
  cases result
  obtain ⟨images, distinct⟩ := validateKeyInputs_spentKeyImages context cache _ blockIndex keyInputs
  refine ⟨?_, distinct List.nodup_nil⟩
  rw [images, List.nil_append, CachedTransaction.keyImages]

end Validation

/-- The state `isTransactionValidForPool` leaves is the transaction's key images, each once. -/
theorem isTransactionValidForPool_spentKeyImages {context : CoreContext} {view : PoolChainView}
    {cachedTransaction : CachedTransaction} {state : TransactionValidatorState}
    (valid : isTransactionValidForPool context view cachedTransaction = some state) :
    state.spentKeyImages = cachedTransaction.keyImages ∧ state.spentKeyImages.Nodup := by
  rw [isTransactionValidForPool] at valid
  split at valid
  · cases valid
  split at valid
  · cases valid
  rename_i validated
  -- past the size and fee checks the state is the validator's
  dsimp only at valid
  split at valid
  · cases valid
  split at valid
  · cases valid
  cases valid
  exact validateTransaction_spentKeyImages context _ _ validated

/-! ## Lookup by hash -/

section Pool

variable {primitives : Primitives}

theorem find_eq_none_iff {pool : TransactionPool} {hash : Hash} :
    pool.find primitives hash = none ↔ ∀ info ∈ pool.transactions, info.getTransactionHash primitives ≠ hash := by
  simp [TransactionPool.find, List.find?_eq_none]

theorem mem_of_find_eq_some {pool : TransactionPool} {hash : Hash} {info : PendingTransactionInfo}
    (found : pool.find primitives hash = some info) :
    info ∈ pool.transactions ∧ info.getTransactionHash primitives = hash :=
  ⟨List.mem_of_find?_eq_some found, by simpa using List.find?_some found⟩

/-- In a pool unique by hash a transaction is found by its own hash. -/
theorem find_of_mem {pool : TransactionPool}
    (unique : (pool.transactions.map (·.getTransactionHash primitives)).Nodup) {info : PendingTransactionInfo}
    (member : info ∈ pool.transactions) :
    pool.find primitives (info.getTransactionHash primitives) = some info := by
  cases found : pool.find primitives (info.getTransactionHash primitives) with
  | none => exact absurd rfl ((find_eq_none_iff.mp found) info member)
  | some other =>
    obtain ⟨otherMember, sameHash⟩ := mem_of_find_eq_some found
    rw [List.inj_on_of_nodup_map unique otherMember member sameHash]

/-! ## The two updates keep the invariant -/

/-- The empty pool `Core` starts from. -/
theorem PoolInvariant.empty : PoolInvariant primitives TransactionPool.empty :=
  ⟨List.nodup_nil, List.nodup_nil, List.Perm.refl _⟩

/-- The pool state holds exactly the images the pool's transactions spend. -/
theorem PoolInvariant.mem_poolState_iff {pool : TransactionPool} (invariant : PoolInvariant primitives pool)
    (keyImage : KeyImage) :
    keyImage ∈ pool.poolState.spentKeyImages ↔
      ∃ info ∈ pool.transactions, keyImage ∈ info.cachedTransaction.keyImages := by
  rw [invariant.poolState_perm.mem_iff, TransactionPool.keyImages, List.mem_flatMap]

/-- No two pool transactions spend one key image. -/
theorem PoolInvariant.keyImages_disjoint {pool : TransactionPool} (invariant : PoolInvariant primitives pool)
    {first second : PendingTransactionInfo} (firstMember : first ∈ pool.transactions)
    (secondMember : second ∈ pool.transactions) (different : first ≠ second) :
    List.Disjoint first.cachedTransaction.keyImages second.cachedTransaction.keyImages := by
  have separate := (List.nodup_flatMap.mp invariant.keyImages_nodup).2
  have : Std.Symm (Function.onFun List.Disjoint fun info : PendingTransactionInfo => info.cachedTransaction.keyImages) :=
    ⟨fun _ _ apart _ inFirst inSecond => apart inSecond inFirst⟩
  exact separate.forall firstMember secondMember different

theorem keyImages_append_singleton (transactions : List PendingTransactionInfo) (poolState : TransactionValidatorState)
    (info : PendingTransactionInfo) :
    (⟨transactions ++ [info], poolState⟩ : TransactionPool).keyImages =
      (⟨transactions, poolState⟩ : TransactionPool).keyImages ++ info.cachedTransaction.keyImages := by
  simp [TransactionPool.keyImages]

/-- Pushing a transaction with a state of its own key images, each once, keeps the invariant: a
known hash and an image the pool spends are refused, and otherwise the state is appended. -/
theorem pushTransaction_invariant {pool : TransactionPool} (invariant : PoolInvariant primitives pool)
    {now : UInt64} {transaction : CachedTransaction} {state : TransactionValidatorState}
    (images : state.spentKeyImages = transaction.keyImages) (distinct : state.spentKeyImages.Nodup) :
    PoolInvariant primitives (pool.pushTransaction primitives now transaction state).1 := by
  obtain ⟨transactions, poolState⟩ := pool
  rw [TransactionPool.pushTransaction]
  split_ifs with known meets
  · exact invariant
  · exact invariant
  · have newHash := find_eq_none_iff.mp (Option.not_isSome_iff_eq_none.mp known)
    have unspent := hasIntersections_eq_false.mp (Bool.eq_false_iff.mpr meets)
    have unspentPool : ∀ keyImage ∈ state.spentKeyImages,
        keyImage ∉ (⟨transactions, poolState⟩ : TransactionPool).keyImages :=
      fun keyImage member inPool => unspent keyImage member (invariant.poolState_perm.mem_iff.mpr inPool)
    constructor
    · rw [List.map_append, List.nodup_append]
      refine ⟨invariant.hashes_nodup, List.nodup_singleton _, ?_⟩
      rintro hash member newOne single rfl
      obtain ⟨info, infoMember, rfl⟩ := List.mem_map.mp member
      exact newHash info infoMember (List.mem_singleton.mp single)
    · rw [keyImages_append_singleton, List.nodup_append]
      refine ⟨invariant.keyImages_nodup, images ▸ distinct, ?_⟩
      rintro keyImage inPool other member rfl
      exact unspentPool keyImage (images ▸ member) inPool
    · rw [mergeStates, foldl_insertKeyImage_of_disjoint _ distinct unspent, keyImages_append_singleton]
      exact invariant.poolState_perm.append (images ▸ List.Perm.refl _)

theorem keyImages_append_cons (before after : List PendingTransactionInfo) (poolState : TransactionValidatorState)
    (info : PendingTransactionInfo) :
    (⟨before ++ info :: after, poolState⟩ : TransactionPool).keyImages =
      (⟨before, poolState⟩ : TransactionPool).keyImages ++ info.cachedTransaction.keyImages ++
        (⟨after, poolState⟩ : TransactionPool).keyImages := by
  simp [TransactionPool.keyImages]

/-- Removing a transaction keeps the invariant: the entry is erased and, with it, exactly its key
images. -/
theorem removeTransaction_invariant {pool : TransactionPool} (invariant : PoolInvariant primitives pool)
    (hash : Hash) : PoolInvariant primitives (pool.removeTransaction primitives hash).1 := by
  obtain ⟨transactions, poolState⟩ := pool
  rw [TransactionPool.removeTransaction]
  split
  · exact invariant
  · rename_i info found
    obtain ⟨member, -⟩ := mem_of_find_eq_some found
    obtain ⟨before, after, rfl⟩ := List.mem_iff_append.mp member
    have notBefore : info ∉ before := by
      intro inBefore
      have distinct := (invariant.hashes_nodup.of_map _)
      exact (List.nodup_append.mp distinct).2.2 info inBefore info List.mem_cons_self rfl
    have erased : (before ++ info :: after).erase info = before ++ after := by
      rw [List.erase_append_right _ notBefore, List.erase_cons_head]
    have cut := keyImages_append_cons before after poolState info
    have distinctImages := invariant.keyImages_nodup
    rw [cut] at distinctImages
    dsimp only
    rw [erased]
    constructor
    · rw [← erased]
      exact ((List.erase_sublist).map _).nodup invariant.hashes_nodup
    · simp only [TransactionPool.keyImages, List.flatMap_append] at distinctImages ⊢
      exact ((List.sublist_append_left _ _).append_right _).nodup distinctImages
    · rw [excludeFromState_spentKeyImages]
      refine (foldl_erase_perm (invariant.poolState_perm.trans (by rw [cut])) distinctImages).trans ?_
      simp [TransactionPool.keyImages]

/-- Removing another hash leaves a transaction in the pool. -/
theorem mem_removeTransaction_of_ne {pool : TransactionPool} {info : PendingTransactionInfo} {hash : Hash}
    (member : info ∈ pool.transactions) (other : info.getTransactionHash primitives ≠ hash) :
    info ∈ (pool.removeTransaction primitives hash).1.transactions := by
  rw [TransactionPool.removeTransaction]
  split
  · exact member
  · rename_i removed found
    obtain ⟨-, removedHash⟩ := mem_of_find_eq_some found
    have different : info ≠ removed := by
      rintro rfl
      exact other removedHash
    exact (List.mem_erase_of_ne different).mpr member

/-- A pool unique by hash no longer finds a hash it removed. -/
theorem find_removeTransaction_self {pool : TransactionPool} (invariant : PoolInvariant primitives pool)
    (hash : Hash) : (pool.removeTransaction primitives hash).1.find primitives hash = none := by
  rw [TransactionPool.removeTransaction]
  split
  · assumption
  · rename_i removed found
    obtain ⟨member, removedHash⟩ := mem_of_find_eq_some found
    rw [find_eq_none_iff]
    intro info erased sameHash
    obtain ⟨different, infoMember⟩ := (invariant.hashes_nodup.of_map _).mem_erase_iff.mp erased
    exact different (List.inj_on_of_nodup_map invariant.hashes_nodup infoMember member
      (sameHash.trans removedHash.symm))

/-! ## What the loops read -/

theorem getTransaction_isSome {pool : TransactionPool} {hash : Hash}
    (held : hash ∈ pool.transactions.map (·.getTransactionHash primitives)) :
    (pool.getTransaction primitives hash).isSome := by
  obtain ⟨info, member, rfl⟩ := List.mem_map.mp held
  rw [TransactionPool.getTransaction, Option.isSome_map, TransactionPool.find, List.find?_isSome]
  exact ⟨info, member, decide_eq_true rfl⟩

theorem pushTransaction_mem {pool : TransactionPool} {info : PendingTransactionInfo}
    (member : info ∈ pool.transactions) (now : UInt64) (transaction : CachedTransaction)
    (state : TransactionValidatorState) :
    info ∈ (pool.pushTransaction primitives now transaction state).1.transactions := by
  rw [TransactionPool.pushTransaction]
  split_ifs
  · exact member
  · exact member
  · exact List.mem_append_left _ member

theorem mem_getTransactionHashes {pool : TransactionPool} {info : PendingTransactionInfo}
    (member : info ∈ pool.transactions) :
    info.getTransactionHash primitives ∈ pool.getTransactionHashes primitives :=
  List.mem_map_of_mem (List.mem_mergeSort.mpr member)

/-- The cost order lists the pool's hashes, each once. -/
theorem getTransactionHashes_perm (pool : TransactionPool) :
    (pool.getTransactionHashes primitives).Perm (pool.transactions.map (·.getTransactionHash primitives)) :=
  (List.mergeSort_perm _ _).map _

end Pool

/-! ## The wrapper -/

section Wrapper

variable {primitives : Primitives} (wrapper : TransactionPoolCleanWrapper) (hash : Hash) (currentTime : UInt64)

@[simp] theorem rememberDeleted_transactionPool :
    (wrapper.rememberDeleted hash currentTime).transactionPool = wrapper.transactionPool := by
  rw [TransactionPoolCleanWrapper.rememberDeleted]
  split <;> rfl

@[simp] theorem rememberDeleted_timeout : (wrapper.rememberDeleted hash currentTime).timeout = wrapper.timeout := by
  rw [TransactionPoolCleanWrapper.rememberDeleted]
  split <;> rfl

@[simp] theorem cleanRecentlyDeletedTransactions_transactionPool :
    (wrapper.cleanRecentlyDeletedTransactions currentTime).transactionPool = wrapper.transactionPool := rfl

@[simp] theorem removeTransaction_transactionPool :
    (wrapper.removeTransaction primitives hash).1.transactionPool =
      (wrapper.transactionPool.removeTransaction primitives hash).1 := rfl

@[simp] theorem deleteTransaction_transactionPool (deletedTransactions : List Hash) :
    (wrapper.deleteTransaction primitives hash currentTime deletedTransactions).1.transactionPool =
      (wrapper.transactionPool.removeTransaction primitives hash).1 := by
  simp [TransactionPoolCleanWrapper.deleteTransaction]

@[simp] theorem deleteTransaction_timeout (deletedTransactions : List Hash) :
    (wrapper.deleteTransaction primitives hash currentTime deletedTransactions).1.timeout = wrapper.timeout := by
  simp [TransactionPoolCleanWrapper.deleteTransaction, TransactionPoolCleanWrapper.removeTransaction]

theorem pushTransaction_transactionPool (now : UInt64) (transaction : CachedTransaction)
    (state : TransactionValidatorState) :
    (wrapper.pushTransaction primitives now transaction state).1.transactionPool =
      if wrapper.isTransactionRecentlyDeleted (primitives.getTransactionHash transaction.transaction) then
        wrapper.transactionPool
      else (wrapper.transactionPool.pushTransaction primitives now transaction state).1 := by
  rw [TransactionPoolCleanWrapper.pushTransaction]
  split_ifs <;> rfl

end Wrapper

/-! ## The pool side of `Core` -/

section Core

variable {context : CoreContext} {view : PoolChainView}

theorem addTransactionToPool_invariant {pool : TransactionPoolCleanWrapper}
    (invariant : PoolInvariant context.primitives pool.transactionPool) (now : UInt64)
    (transaction : CachedTransaction) :
    PoolInvariant context.primitives (addTransactionToPool context view now transaction pool).1.transactionPool := by
  rw [addTransactionToPool]
  split
  · exact invariant
  · rename_i state valid
    obtain ⟨images, distinct⟩ := isTransactionValidForPool_spentKeyImages valid
    rw [pushTransaction_transactionPool]
    split_ifs
    · exact invariant
    · exact pushTransaction_invariant invariant images distinct

/-- Every transaction taken out is added again through validation. -/
theorem actualizePoolTransactionsLoop_invariant (now : UInt64) :
    ∀ {hashes : List Hash} {pool pool' : TransactionPoolCleanWrapper},
      PoolInvariant context.primitives pool.transactionPool →
      actualizePoolTransactionsLoop context view now hashes pool = some pool' →
      PoolInvariant context.primitives pool'.transactionPool := by
  intro hashes
  induction hashes with
  | nil =>
    intro pool pool' invariant run
    rw [actualizePoolTransactionsLoop] at run
    cases run
    exact invariant
  | cons hash hashes ih =>
    intro pool pool' invariant run
    rw [actualizePoolTransactionsLoop] at run
    obtain ⟨transaction, -, rest⟩ := Option.bind_eq_some_iff.mp run
    exact ih (addTransactionToPool_invariant (removeTransaction_invariant invariant hash) now transaction) rest

/-- A transaction is removed or left as it is. -/
theorem actualizePoolTransactionsLiteLoop_invariant (validatorState : TransactionValidatorState) :
    ∀ {hashes : List Hash} {pool pool' : TransactionPoolCleanWrapper},
      PoolInvariant context.primitives pool.transactionPool →
      actualizePoolTransactionsLiteLoop context view validatorState hashes pool = some pool' →
      PoolInvariant context.primitives pool'.transactionPool := by
  intro hashes
  induction hashes with
  | nil =>
    intro pool pool' invariant run
    rw [actualizePoolTransactionsLiteLoop] at run
    cases run
    exact invariant
  | cons hash hashes ih =>
    intro pool pool' invariant run
    rw [actualizePoolTransactionsLiteLoop] at run
    obtain ⟨transaction, -, rest⟩ := Option.bind_eq_some_iff.mp run
    apply ih _ rest
    split_ifs
    · exact removeTransaction_invariant invariant hash
    · exact invariant

theorem addTransactionToPool_mem {pool : TransactionPoolCleanWrapper} {info : PendingTransactionInfo}
    (member : info ∈ pool.transactionPool.transactions) (now : UInt64) (transaction : CachedTransaction) :
    info ∈ (addTransactionToPool context view now transaction pool).1.transactionPool.transactions := by
  rw [addTransactionToPool]
  split
  · exact member
  · rw [pushTransaction_transactionPool]
    split_ifs
    · exact member
    · exact pushTransaction_mem member now transaction _

/-- The loop reads only hashes the pool still holds: a hash it has not reached survives the
removal of another and any push. -/
theorem actualizePoolTransactionsLoop_isSome (now : UInt64) :
    ∀ {hashes : List Hash} {pool : TransactionPoolCleanWrapper}, hashes.Nodup →
      (∀ hash ∈ hashes, hash ∈ pool.transactionPool.transactions.map (·.getTransactionHash context.primitives)) →
      (actualizePoolTransactionsLoop context view now hashes pool).isSome := by
  intro hashes
  induction hashes with
  | nil =>
    intro pool _ _
    rw [actualizePoolTransactionsLoop]
    rfl
  | cons hash hashes ih =>
    intro pool distinct held
    obtain ⟨notLater, laterDistinct⟩ := List.nodup_cons.mp distinct
    obtain ⟨transaction, fetched⟩ := Option.isSome_iff_exists.mp (getTransaction_isSome (held hash List.mem_cons_self))
    rw [actualizePoolTransactionsLoop, fetched]
    apply ih laterDistinct
    intro other later
    obtain ⟨info, member, rfl⟩ := List.mem_map.mp (held _ (List.mem_cons_of_mem _ later))
    apply List.mem_map_of_mem
    apply addTransactionToPool_mem
    exact mem_removeTransaction_of_ne member fun same => notLater (same ▸ later)

theorem actualizePoolTransactionsLiteLoop_isSome (validatorState : TransactionValidatorState) :
    ∀ {hashes : List Hash} {pool : TransactionPoolCleanWrapper}, hashes.Nodup →
      (∀ hash ∈ hashes, hash ∈ pool.transactionPool.transactions.map (·.getTransactionHash context.primitives)) →
      (actualizePoolTransactionsLiteLoop context view validatorState hashes pool).isSome := by
  intro hashes
  induction hashes with
  | nil =>
    intro pool _ _
    rw [actualizePoolTransactionsLiteLoop]
    rfl
  | cons hash hashes ih =>
    intro pool distinct held
    obtain ⟨notLater, laterDistinct⟩ := List.nodup_cons.mp distinct
    obtain ⟨transaction, fetched⟩ := Option.isSome_iff_exists.mp (getTransaction_isSome (held hash List.mem_cons_self))
    rw [actualizePoolTransactionsLiteLoop, fetched]
    apply ih laterDistinct
    intro other later
    obtain ⟨info, member, rfl⟩ := List.mem_map.mp (held _ (List.mem_cons_of_mem _ later))
    apply List.mem_map_of_mem
    split_ifs
    · exact mem_removeTransaction_of_ne member fun same => notLater (same ▸ later)
    · exact member

end Core

/-! ## The cleaner -/

section Cleaner

variable {primitives : Primitives} (validateMixins : List CachedTransaction → ℕ → Bool) (height : ℕ)
  (currentTime : UInt64)

/-- A deletion step of the cleaner, taken or not, keeps the invariant. -/
theorem deleteStep_invariant {deleting : Prop} [Decidable deleting] {hash : Hash}
    {wrapper wrapper' : TransactionPoolCleanWrapper} {deleted deleted' : List Hash}
    (invariant : PoolInvariant primitives wrapper.transactionPool)
    (step : (if deleting then wrapper.deleteTransaction primitives hash currentTime deleted else (wrapper, deleted)) =
      (wrapper', deleted')) :
    PoolInvariant primitives wrapper'.transactionPool := by
  split_ifs at step
  · have pool := congrArg (fun result => result.1.transactionPool) step
    dsimp only at pool
    rw [← pool, deleteTransaction_transactionPool]
    exact removeTransaction_invariant invariant hash
  · cases step
    exact invariant

theorem cleanLoop_invariant :
    ∀ {hashes : List Hash} {wrapper wrapper' : TransactionPoolCleanWrapper} {deleted deleted' : List Hash},
      PoolInvariant primitives wrapper.transactionPool →
      TransactionPoolCleanWrapper.cleanLoop primitives validateMixins height currentTime hashes wrapper deleted =
        some (wrapper', deleted') →
      PoolInvariant primitives wrapper'.transactionPool := by
  intro hashes
  induction hashes with
  | nil =>
    intro wrapper wrapper' deleted deleted' invariant run
    rw [TransactionPoolCleanWrapper.cleanLoop] at run
    cases run
    exact invariant
  | cons hash hashes ih =>
    intro wrapper wrapper' deleted deleted' invariant run
    rw [TransactionPoolCleanWrapper.cleanLoop] at run
    -- the age test and the mixin test each delete or keep
    obtain ⟨receiveTime, -, rest⟩ := Option.bind_eq_some_iff.mp run
    split at rest
    rename_i aged agedStep
    obtain ⟨transaction, -, rest⟩ := Option.bind_eq_some_iff.mp rest
    split at rest
    rename_i checked checkedStep
    exact ih (deleteStep_invariant currentTime (deleteStep_invariant currentTime invariant agedStep) checkedStep) rest

theorem clean_invariant {wrapper wrapper' : TransactionPoolCleanWrapper} {deleted : List Hash}
    (invariant : PoolInvariant primitives wrapper.transactionPool)
    (cleaned : wrapper.clean primitives validateMixins height currentTime = some (wrapper', deleted)) :
    PoolInvariant primitives wrapper'.transactionPool := by
  rw [TransactionPoolCleanWrapper.clean] at cleaned
  obtain ⟨⟨swept, sweptDeleted⟩, run, result⟩ := Option.bind_eq_some_iff.mp cleaned
  cases result
  rw [cleanRecentlyDeletedTransactions_transactionPool]
  exact cleanLoop_invariant validateMixins height currentTime invariant run

/-- A deletion step for another hash keeps a transaction and the live time. -/
theorem deleteStep_mem {deleting : Prop} [Decidable deleting] {hash : Hash} {info : PendingTransactionInfo}
    {wrapper wrapper' : TransactionPoolCleanWrapper} {deleted deleted' : List Hash}
    (member : info ∈ wrapper.transactionPool.transactions) (other : info.getTransactionHash primitives ≠ hash)
    (step : (if deleting then wrapper.deleteTransaction primitives hash currentTime deleted else (wrapper, deleted)) =
      (wrapper', deleted')) :
    info ∈ wrapper'.transactionPool.transactions ∧ wrapper'.timeout = wrapper.timeout := by
  split_ifs at step
  · have kept := congrArg (fun result => result.1) step
    dsimp only at kept
    rw [← kept, deleteTransaction_transactionPool, deleteTransaction_timeout]
    exact ⟨mem_removeTransaction_of_ne member other, rfl⟩
  · cases step
    exact ⟨member, rfl⟩

/-- The cleaner reads a transaction again after it deletes it for its age. On a pool holding a
transaction past its live time, the loop over hashes that include its hash is undefined, whatever
the loop does before it reaches that hash. -/
theorem cleanLoop_eq_none_of_expired {info : PendingTransactionInfo} :
    ∀ {hashes : List Hash} {wrapper : TransactionPoolCleanWrapper} {deleted : List Hash},
      PoolInvariant primitives wrapper.transactionPool → info ∈ wrapper.transactionPool.transactions →
      currentTime - info.receiveTime ≥ wrapper.timeout → info.getTransactionHash primitives ∈ hashes →
      TransactionPoolCleanWrapper.cleanLoop primitives validateMixins height currentTime hashes wrapper deleted =
        none := by
  intro hashes
  induction hashes with
  | nil =>
    intro wrapper deleted _ _ _ listed
    cases listed
  | cons hash hashes ih =>
    intro wrapper deleted invariant member expired listed
    rw [TransactionPoolCleanWrapper.cleanLoop]
    apply Option.bind_eq_none_iff.mpr
    intro receiveTime received
    by_cases same : info.getTransactionHash primitives = hash
    · -- the expired transaction: deleted for its age, then read from the pool
      subst same
      rw [TransactionPool.getTransactionReceiveTime, find_of_mem invariant.hashes_nodup member] at received
      cases received
      rw [if_pos expired, TransactionPoolCleanWrapper.deleteTransaction]
      dsimp only
      rw [removeTransaction_transactionPool, rememberDeleted_transactionPool, TransactionPool.getTransaction,
        find_removeTransaction_self invariant]
      rfl
    · have later := (List.mem_cons.mp listed).resolve_left same
      split
      rename_i aged agedDeleted agedStep
      obtain ⟨agedMember, agedTimeout⟩ := deleteStep_mem currentTime member same agedStep
      apply Option.bind_eq_none_iff.mpr
      intro transaction _
      split
      rename_i checked checkedDeleted checkedStep
      obtain ⟨checkedMember, checkedTimeout⟩ := deleteStep_mem currentTime agedMember same checkedStep
      have checkedInvariant :=
        deleteStep_invariant currentTime (deleteStep_invariant currentTime invariant agedStep) checkedStep
      apply ih checkedInvariant checkedMember _ later
      rw [checkedTimeout, agedTimeout]
      exact expired

theorem clean_eq_none_of_expired {wrapper : TransactionPoolCleanWrapper} {info : PendingTransactionInfo}
    (invariant : PoolInvariant primitives wrapper.transactionPool) (member : info ∈ wrapper.transactionPool.transactions)
    (expired : currentTime - info.receiveTime ≥ wrapper.timeout) :
    wrapper.clean primitives validateMixins height currentTime = none := by
  rw [TransactionPoolCleanWrapper.clean,
    cleanLoop_eq_none_of_expired validateMixins height currentTime invariant member expired
      (mem_getTransactionHashes member)]
  rfl

end Cleaner

/-! ## Runs -/

section Runs

variable {context : CoreContext}

/-- Each call that is defined keeps the invariant. -/
theorem apply_invariant {pool pool' : TransactionPoolCleanWrapper} {operation : PoolOperation}
    (invariant : PoolInvariant context.primitives pool.transactionPool)
    (applied : operation.apply context pool = some pool') :
    PoolInvariant context.primitives pool'.transactionPool := by
  cases operation with
  | add view now transaction =>
    cases applied
    exact addTransactionToPool_invariant invariant now transaction
  | remove hash =>
    cases applied
    exact removeTransaction_invariant invariant hash
  | actualize view now => exact actualizePoolTransactionsLoop_invariant now invariant applied
  | actualizeLite view validatorState =>
    exact actualizePoolTransactionsLiteLoop_invariant validatorState invariant applied
  | clean height currentTime =>
    obtain ⟨⟨cleaned, deleted⟩, run, rfl⟩ := Option.map_eq_some_iff.mp applied
    exact clean_invariant _ height currentTime invariant run

/-- Every run that is defined keeps the invariant. -/
theorem runPool_invariant :
    ∀ {operations : List PoolOperation} {pool pool' : TransactionPoolCleanWrapper},
      PoolInvariant context.primitives pool.transactionPool →
      runPool context operations pool = some pool' → PoolInvariant context.primitives pool'.transactionPool := by
  intro operations
  induction operations with
  | nil =>
    intro pool pool' invariant run
    rw [runPool] at run
    cases run
    exact invariant
  | cons operation operations ih =>
    intro pool pool' invariant run
    rw [runPool] at run
    obtain ⟨next, applied, rest⟩ := Option.bind_eq_some_iff.mp run
    exact ih (apply_invariant invariant applied) rest

/-- Every call but the cleaner is defined on a pool of the invariant: the two actualizations read
each hash of the cost order while the pool still holds it. -/
theorem apply_isSome {pool : TransactionPoolCleanWrapper} (invariant : PoolInvariant context.primitives pool.transactionPool)
    {operation : PoolOperation} (notClean : ∀ height currentTime, operation ≠ .clean height currentTime) :
    (operation.apply context pool).isSome := by
  have order : (pool.transactionPool.getTransactionHashes context.primitives).Perm
      (pool.transactionPool.transactions.map (·.getTransactionHash context.primitives)) :=
    getTransactionHashes_perm pool.transactionPool
  have distinct := order.nodup_iff.mpr invariant.hashes_nodup
  have held : ∀ hash ∈ pool.transactionPool.getTransactionHashes context.primitives,
      hash ∈ pool.transactionPool.transactions.map (·.getTransactionHash context.primitives) :=
    fun _ listed => order.mem_iff.mp listed
  cases operation with
  | add view now transaction => rfl
  | remove hash => rfl
  | actualize view now => exact actualizePoolTransactionsLoop_isSome now distinct held
  | actualizeLite view validatorState => exact actualizePoolTransactionsLiteLoop_isSome validatorState distinct held
  | clean height currentTime => exact absurd rfl (notClean height currentTime)

end Runs

end Nox.CryptoNote
