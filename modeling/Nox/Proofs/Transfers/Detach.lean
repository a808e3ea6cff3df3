import Nox.Proofs.Transfers.Visibility

/-! # What `detach` removes

`detach(height)` walks the height index from its end. The unconfirmed transactions sit at its top;
each goes if it spends an output of a block from `height` on. Then come the confirmed ones, latest
first, each removed while its block is from `height` on, until the first below. A removed
transaction first gives back the outputs it spent, and then loses its own transfers.

On a container that keeps its transactions in height order, each hash once, and the transaction of
each spent output before the one that spends it, the loop removes exactly the transactions
`detachedBy` picks, and the transfers it leaves have a closed form: apart from the visible flags,
the transfers of the kept transactions stay, the spent ones stay spent unless a removed transaction
spent them, and those go back to the end of the available ones, in the order they are removed in.
The order of spending is what makes an output whose own transaction is removed too go with it:
its spender comes later in the index, so the walk gives it back before its transaction is removed.
-/

namespace Nox.CryptoNote

open Nox.Crypto

namespace TransfersContainer

/-- The order `detach` relies on: transactions by height, each hash once, and the transaction of a
spent output before the transaction that spends it. -/
structure Ordered (container : TransfersContainer) : Prop where
  sorted : container.transactions.Pairwise fun earlier later => earlier.blockHeight ≤ later.blockHeight
  unique : (container.transactions.map (·.transactionHash)).Nodup
  spentBeforeSpender : ∀ spent ∈ container.spentTransfers, ∀ own ∈ container.transactions,
    ∀ spender ∈ container.transactions, own.transactionHash = spent.transactionHash →
      spender.transactionHash = spent.spendingTransactionHash → [own, spender].Sublist container.transactions

variable (container : TransfersContainer) (height : UInt32)

/-- The transactions `detach(height)` is to remove: the confirmed ones of a block from `height` on,
and the unconfirmed ones that spend an output of such a block. -/
def detachedBy (info : TransactionInformation) : Bool :=
  if info.blockHeight == WALLET_UNCONFIRMED_TRANSACTION_HEIGHT then
    container.spentTransfers.any fun spent =>
      spent.spendingTransactionHash == info.transactionHash && spent.blockHeight ≥ height
  else info.blockHeight ≥ height

/-- The removal step of `detachLoop`. -/
def detachDelete (transactionHash : Hash) : TransfersContainer :=
  let container := container.deleteTransactionTransfers transactionHash
  { container with transactions := container.transactions.filter (·.transactionHash != transactionHash) }

/-- What `detachDelete` does apart from visibility. -/
def removeTransaction (transactionHash : Hash) : TransfersContainer :=
  let container := container.deleteTransfers transactionHash
  { container with transactions := container.transactions.filter (·.transactionHash != transactionHash) }

theorem hidden_detachDelete (transactionHash : Hash) :
    (container.detachDelete transactionHash).hidden = container.hidden.removeTransaction transactionHash := by
  have deleted := hidden_deleteTransactionTransfers container transactionHash
  have moved : (container.deleteTransfers transactionHash).hidden = container.hidden.deleteTransfers transactionHash := by
    rw [deleteTransfers, deleteTransfers, hidden_eraseAvailable, hidden_eraseUnconfirmed, hidden_restoreSpent]
  rw [moved] at deleted
  have transactions : (container.deleteTransactionTransfers transactionHash).transactions = container.transactions := by
    have same := congrArg TransfersContainer.transactions deleted
    exact same
  -- both filter the transactions the deletion left, which are those of `container`
  show { (container.deleteTransactionTransfers transactionHash).hidden with
      transactions := (container.deleteTransactionTransfers transactionHash).transactions.filter
        (·.transactionHash != transactionHash) } = _
  rw [deleted, transactions]
  rfl

/-- A removal from the index leaves the spent transfers of other spenders as they were. -/
theorem any_spentTransfers_detachDelete (transactionHash : Hash) {p : SpentTransactionOutput → Bool}
    (unflagged : ∀ spent, p spent.hidden = p spent)
    (other : ∀ spent, p spent = true → spent.spendingTransactionHash ≠ transactionHash) :
    (container.detachDelete transactionHash).spentTransfers.any p = container.spentTransfers.any p := by
  have spent := congrArg TransfersContainer.spentTransfers (hidden_detachDelete container transactionHash)
  have viaHidden : ∀ transfers : List SpentTransactionOutput, transfers.any p = (transfers.map (·.hidden)).any p := by
    intro transfers
    simp [List.any_map, Function.comp_def, unflagged]
  rw [viaHidden, ← hidden_spentTransfers, spent]
  simp only [removeTransaction, deleteTransfers, eraseAvailable, eraseUnconfirmed, restoreSpent, hidden_spentTransfers,
    List.filter_map, List.any_map, Function.comp_def, unflagged, SpentTransactionOutput.hidden_spendingTransactionHash]
  apply Bool.eq_iff_iff.mpr
  simp only [List.any_eq_true, List.mem_filter]
  constructor
  · rintro ⟨spent, ⟨mem, _⟩, holds⟩
    exact ⟨spent, mem, holds⟩
  · rintro ⟨spent, mem, holds⟩
    exact ⟨spent, ⟨mem, by simpa using other spent holds⟩, holds⟩

/-- One step of `detachLoop`, with its removal named. -/
theorem detachLoop_cons (info : TransactionInformation) (rest : List TransactionInformation)
    (deletedTransactions : List Hash) :
    detachLoop height (info :: rest) deletedTransactions container =
      if info.blockHeight == WALLET_UNCONFIRMED_TRANSACTION_HEIGHT then
        if container.spentTransfers.any (fun spent =>
            spent.spendingTransactionHash == info.transactionHash && spent.blockHeight ≥ height) then
          detachLoop height rest (deletedTransactions ++ [info.transactionHash]) (container.detachDelete info.transactionHash)
        else detachLoop height rest deletedTransactions container
      else if info.blockHeight ≥ height then
        detachLoop height rest (deletedTransactions ++ [info.transactionHash]) (container.detachDelete info.transactionHash)
      else (deletedTransactions, container) := rfl

/-- A confirmed transaction below `height` is not removed, and neither is one below it. -/
theorem detachedBy_eq_false_of_le {info below : TransactionInformation} (short : ¬info.blockHeight ≥ height)
    (lower : below.blockHeight ≤ info.blockHeight) : container.detachedBy height below = false := by
  have short : below.blockHeight.toNat < height.toNat := by
    rw [UInt32.le_iff_toNat_le] at lower
    rw [ge_iff_le, UInt32.le_iff_toNat_le] at short
    omega
  have confirmed : ¬below.blockHeight = WALLET_UNCONFIRMED_TRANSACTION_HEIGHT := by
    intro same
    have bound := height.toNat_lt
    rw [same] at short
    exact absurd short (by simp [WALLET_UNCONFIRMED_TRANSACTION_HEIGHT]; omega)
  simp [detachedBy, confirmed, UInt32.le_iff_toNat_le]
  omega

/-- A walk over transactions in descending height, whose spent transfers read as they did in
`original`, removes each transaction `detachedBy` picks in `original`, in the order of the walk. -/
theorem detachLoop_eq_foldl (original : TransfersContainer) :
    ∀ (transactions : List TransactionInformation) (deletedTransactions : List Hash) (container : TransfersContainer),
      transactions.Pairwise (fun later earlier => earlier.blockHeight ≤ later.blockHeight) →
      (transactions.map (·.transactionHash)).Nodup →
      (∀ info ∈ transactions, ∀ spendsFrom : SpentTransactionOutput → Bool,
        spendsFrom = (fun spent => spent.spendingTransactionHash == info.transactionHash && spent.blockHeight ≥ height) →
        container.spentTransfers.any spendsFrom = original.spentTransfers.any spendsFrom) →
      detachLoop height transactions deletedTransactions container =
        (deletedTransactions ++ (transactions.filter (original.detachedBy height)).map (·.transactionHash),
         (transactions.filter (original.detachedBy height)).foldl
           (fun container info => container.detachDelete info.transactionHash) container) := by
  intro transactions
  induction transactions with
  | nil => intro deletedTransactions container _ _ _; simp [detachLoop]
  | cons info rest ih =>
    intro deletedTransactions container descending distinct agrees
    rw [List.pairwise_cons] at descending
    rw [List.map_cons, List.nodup_cons] at distinct
    have later : ∀ info' ∈ rest, ∀ spendsFrom : SpentTransactionOutput → Bool,
        spendsFrom = (fun spent => spent.spendingTransactionHash == info'.transactionHash && spent.blockHeight ≥ height) →
        container.spentTransfers.any spendsFrom = original.spentTransfers.any spendsFrom :=
      fun info' mem => agrees info' (List.mem_cons_of_mem _ mem)
    -- after removing `info`, the later transactions read the spent transfers they read before
    have kept : ∀ info' ∈ rest, ∀ spendsFrom : SpentTransactionOutput → Bool,
        spendsFrom = (fun spent => spent.spendingTransactionHash == info'.transactionHash && spent.blockHeight ≥ height) →
        (container.detachDelete info.transactionHash).spentTransfers.any spendsFrom =
          original.spentTransfers.any spendsFrom := by
      intro info' mem spendsFrom reads
      rw [any_spentTransfers_detachDelete _ _ (by intro spent; rw [reads]; rfl), later info' mem _ reads]
      intro spent holds same
      rw [reads] at holds
      simp only [Bool.and_eq_true, beq_iff_eq] at holds
      exact distinct.1 (List.mem_map.mpr ⟨info', mem, holds.1.symm.trans same⟩)
    -- removing `info` and walking on is what the fold does from `info`
    have removes (detached : original.detachedBy height info = true) :
        detachLoop height rest (deletedTransactions ++ [info.transactionHash]) (container.detachDelete info.transactionHash) =
          (deletedTransactions ++ ((info :: rest).filter (original.detachedBy height)).map (·.transactionHash),
           ((info :: rest).filter (original.detachedBy height)).foldl
             (fun container info => container.detachDelete info.transactionHash) container) := by
      rw [ih _ _ descending.2 distinct.2 kept, List.filter_cons_of_pos detached]
      simp
    rw [detachLoop_cons]
    by_cases unconfirmed : info.blockHeight = WALLET_UNCONFIRMED_TRANSACTION_HEIGHT
    · -- an unconfirmed transaction goes when it spends an output of a block from `height` on
      have decides : container.spentTransfers.any (fun spent =>
          spent.spendingTransactionHash == info.transactionHash && spent.blockHeight ≥ height) =
          original.detachedBy height info := by
        rw [agrees info List.mem_cons_self _ rfl, detachedBy, if_pos (beq_iff_eq.mpr unconfirmed)]
      rw [if_pos (beq_iff_eq.mpr unconfirmed), decides]
      cases detached : original.detachedBy height info
      · rw [if_neg Bool.false_ne_true, ih _ _ descending.2 distinct.2 later,
          List.filter_cons_of_neg (by simp [detached])]
      · rw [if_pos rfl, removes detached]
    · rw [if_neg (by simpa using unconfirmed)]
      by_cases reached : info.blockHeight ≥ height
      · have detached : original.detachedBy height info = true := by simp [detachedBy, unconfirmed, reached]
        rw [if_pos reached, removes detached]
      · -- the walk stops: this transaction and all below it stay
        have stays : (info :: rest).filter (original.detachedBy height) = [] := by
          rw [List.filter_eq_nil_iff]
          intro info' mem
          rcases List.mem_cons.mp mem with same | below
          · rw [same, detachedBy_eq_false_of_le original height reached (UInt32.le_refl _)]
            exact Bool.false_ne_true
          · rw [detachedBy_eq_false_of_le original height reached (descending.1 info' below)]
            exact Bool.false_ne_true
        rw [if_neg reached, stays]
        simp

/-- Each removal step is, apart from visibility, the removal of the transaction's content. -/
theorem hidden_foldl_detachDelete (removed : List TransactionInformation) (container : TransfersContainer) :
    (removed.foldl (fun container info => container.detachDelete info.transactionHash) container).hidden =
      (removed.map (·.transactionHash)).foldl (fun container transactionHash => container.removeTransaction transactionHash)
        container.hidden := by
  induction removed generalizing container with
  | nil => rfl
  | cons info removed ih => rw [List.foldl_cons, List.map_cons, List.foldl_cons, ih, hidden_detachDelete]

/-- The second of an ordered pair in `first :: rest` is in `rest`. -/
theorem mem_of_pair_sublist_cons {a b first : Hash} {rest : List Hash} (pair : [a, b].Sublist (first :: rest)) :
    b ∈ rest := by
  rcases List.sublist_cons_iff.mp pair with skipped | ⟨tail, same, below⟩
  · exact skipped.subset (by simp)
  · rw [List.cons_eq_cons] at same
    exact below.subset (by simp [← same.2])

/-- Removing a list of transactions one after another, where an output's spender comes before its
own transaction: the transfers of the removed transactions go, and the outputs they spent go back
to the available ones unless their own transaction is removed. -/
theorem foldl_removeTransaction : ∀ (removed : List Hash) (container : TransfersContainer), removed.Nodup →
    (∀ spent ∈ container.spentTransfers, spent.spendingTransactionHash ∈ removed → spent.transactionHash ∈ removed →
      [spent.spendingTransactionHash, spent.transactionHash].Sublist removed) →
    removed.foldl (fun container transactionHash => container.removeTransaction transactionHash) container =
      { container with
        transactions := container.transactions.filter (·.transactionHash ∉ removed),
        unconfirmedTransfers := container.unconfirmedTransfers.filter (·.transactionHash ∉ removed),
        availableTransfers := container.availableTransfers.filter (·.transactionHash ∉ removed) ++
          ((removed.flatMap fun transactionHash =>
              container.spentTransfers.filter (·.spendingTransactionHash == transactionHash)).filter
            (·.transactionHash ∉ removed)).map (·.toTransactionOutputInformationEx),
        spentTransfers := container.spentTransfers.filter (·.spendingTransactionHash ∉ removed) } := by
  intro removed
  induction removed with
  | nil => intro container _ _; simp
  | cons transactionHash rest ih =>
    intro container distinct ordered
    rw [List.nodup_cons] at distinct
    -- a spent output of a later spender is not spent by the first
    have orderedAfter : ∀ spent ∈ (container.removeTransaction transactionHash).spentTransfers,
        spent.spendingTransactionHash ∈ rest → spent.transactionHash ∈ rest →
          [spent.spendingTransactionHash, spent.transactionHash].Sublist rest := by
      intro spent mem spender own
      simp only [removeTransaction, deleteTransfers, eraseAvailable, eraseUnconfirmed, restoreSpent, List.mem_filter,
        Bool.not_eq_true', beq_eq_false_iff_ne] at mem
      rcases List.sublist_cons_iff.mp (ordered spent mem.1 (List.mem_cons_of_mem _ spender)
          (List.mem_cons_of_mem _ own)) with skipped | ⟨tail, same, _⟩
      · exact skipped
      · exact absurd (List.cons_eq_cons.mp same).1 mem.2
    -- an output whose spender is later is not of the first transaction
    have notFirst : ∀ spent ∈ container.spentTransfers, spent.spendingTransactionHash ∈ rest →
        spent.transactionHash ≠ transactionHash := by
      intro spent mem spender same
      have pair := ordered spent mem (List.mem_cons_of_mem _ spender) (by simp [same])
      rw [same] at pair
      exact distinct.1 (mem_of_pair_sublist_cons pair)
    rw [List.foldl_cons, ih _ distinct.2 orderedAfter]
    simp only [removeTransaction, deleteTransfers, eraseAvailable, eraseUnconfirmed, restoreSpent,
      TransfersContainer.mk.injEq, List.filter_filter, List.filter_append, List.flatMap_cons, List.map_append,
      List.append_assoc, and_true]
    refine ⟨?transactions, ?unconfirmed, ?available, ?spent⟩
    case transactions =>
      apply List.filter_congr
      intro info _
      by_cases same : info.transactionHash = transactionHash <;> simp [same]
    case unconfirmed =>
      apply List.filter_congr
      intro transfer _
      by_cases same : transfer.transactionHash = transactionHash <;> simp [same]
    case spent =>
      apply List.filter_congr
      intro spent _
      by_cases same : spent.spendingTransactionHash = transactionHash <;> simp [same]
    case available =>
      have kept : ∀ transfer ∈ container.availableTransfers,
          (decide (transfer.transactionHash ∉ rest) && !(transfer.transactionHash == transactionHash)) =
            decide (transfer.transactionHash ∉ transactionHash :: rest) := by
        intro transfer _
        by_cases same : transfer.transactionHash = transactionHash <;> simp [same]
      -- the outputs the first transaction spent, less those of the removed transactions
      have restored : (((container.spentTransfers.filter (·.spendingTransactionHash == transactionHash)).map
            (·.toTransactionOutputInformationEx)).filter fun transfer =>
              decide (transfer.transactionHash ∉ rest) && !(transfer.transactionHash == transactionHash)) =
          (container.spentTransfers.filter fun spent =>
            decide (spent.transactionHash ∉ transactionHash :: rest) && spent.spendingTransactionHash == transactionHash).map
            (·.toTransactionOutputInformationEx) := by
        rw [List.filter_map, List.filter_filter]
        congr 1
        apply List.filter_congr
        intro spent _
        by_cases same : spent.transactionHash = transactionHash
        · simp [same]
        · simp [beq_eq_false_iff_ne.mpr same, same]
      -- the later spenders read the spent transfers the first one left, which are all of theirs
      have later : (rest.flatMap fun other => container.spentTransfers.filter fun spent =>
            spent.spendingTransactionHash == other && !(spent.spendingTransactionHash == transactionHash)) =
          rest.flatMap fun other => container.spentTransfers.filter (·.spendingTransactionHash == other) := by
        apply List.flatMap_congr
        intro other mem
        apply List.filter_congr
        intro spent _
        by_cases same : spent.spendingTransactionHash = other
        · have different : other ≠ transactionHash := fun equal => distinct.1 (equal ▸ mem)
          simp [same, different]
        · simp [same]
      have laterOwn : ((rest.flatMap fun other => container.spentTransfers.filter (·.spendingTransactionHash == other)).filter
            fun spent => decide (spent.transactionHash ∉ rest)) =
          (rest.flatMap fun other => container.spentTransfers.filter (·.spendingTransactionHash == other)).filter
            fun spent => decide (spent.transactionHash ∉ transactionHash :: rest) := by
        apply List.filter_congr
        intro spent mem
        simp only [List.mem_flatMap, List.mem_filter, beq_iff_eq] at mem
        obtain ⟨other, inRest, inSpent, spender⟩ := mem
        have notOwn := notFirst spent inSpent (spender ▸ inRest)
        simp [notOwn]
      rw [List.filter_congr kept, restored, later, laterOwn]

/-- The hashes of the transactions `detach(height)` removes, in the order of the height index. -/
def detachedHashes : List Hash :=
  (container.transactions.filter (container.detachedBy height)).map (·.transactionHash)

/-- `detach` walks the index from its end, so it removes the transactions `detachedBy` picks,
latest first. -/
theorem detach_eq_foldl (ordered : container.Ordered) :
    container.detach height =
      ((container.detachedHashes height).reverse,
       { (container.transactions.reverse.filter (container.detachedBy height)).foldl
            (fun container info => container.detachDelete info.transactionHash) container with
         currentHeight := if height == 0 then 0 else height - 1 }) := by
  have walked := detachLoop_eq_foldl height container container.transactions.reverse [] container
    (List.pairwise_reverse.mpr ordered.sorted) (by rw [List.map_reverse, List.nodup_reverse]; exact ordered.unique)
    (fun _ _ _ _ => rfl)
  simp only [detach, walked, detachedHashes, List.nil_append, List.filter_reverse, List.map_reverse]

/-- Apart from visibility, `detach` removes the content of the transactions it picks, latest first. -/
theorem hidden_detach (ordered : container.Ordered) :
    (container.detach height).2.hidden =
      { (container.detachedHashes height).reverse.foldl
            (fun container transactionHash => container.removeTransaction transactionHash) container.hidden with
        currentHeight := if height == 0 then 0 else height - 1 } := by
  have folded := hidden_foldl_detachDelete (container.transactions.reverse.filter (container.detachedBy height)) container
  rw [detach_eq_foldl container height ordered]
  -- clearing the flags commutes with setting the height
  show { ((container.transactions.reverse.filter (container.detachedBy height)).foldl
      (fun container info => container.detachDelete info.transactionHash) container).hidden with
    currentHeight := if height == 0 then 0 else height - 1 } = _
  rw [folded, List.filter_reverse, List.map_reverse]
  rfl

/-- In the walk of `detach`, the spender of an output comes before its own transaction. -/
theorem spender_before_own (ordered : container.Ordered) :
    ∀ spent ∈ container.hidden.spentTransfers,
      spent.spendingTransactionHash ∈ (container.detachedHashes height).reverse →
      spent.transactionHash ∈ (container.detachedHashes height).reverse →
      [spent.spendingTransactionHash, spent.transactionHash].Sublist (container.detachedHashes height).reverse := by
  intro spent mem spender own
  rw [hidden_spentTransfers, List.mem_map] at mem
  obtain ⟨original, mem, rfl⟩ := mem
  simp only [SpentTransactionOutput.hidden_spendingTransactionHash, SpentTransactionOutput.hidden_transactionHash,
    detachedHashes, List.mem_reverse, List.mem_map, List.mem_filter] at spender own ⊢
  obtain ⟨spenderInfo, ⟨spenderIn, spenderDetached⟩, spenderHash⟩ := spender
  obtain ⟨ownInfo, ⟨ownIn, ownDetached⟩, ownHash⟩ := own
  have pair := ordered.spentBeforeSpender original mem ownInfo ownIn spenderInfo spenderIn ownHash spenderHash
  -- reversed, the pair stays a pair among the transactions `detach` picks
  have filtered := (List.reverse_sublist.mpr pair).filter (container.detachedBy height)
  rw [List.reverse_cons, List.reverse_singleton, List.singleton_append, List.filter_cons_of_pos spenderDetached,
    List.filter_cons_of_pos ownDetached, List.filter_nil, List.filter_reverse] at filtered
  have mapped := filtered.map (·.transactionHash)
  rw [List.map_reverse] at mapped
  simpa [spenderHash, ownHash] using mapped

/-- A hash names one transaction, so it is among the removed ones just when its transaction is. -/
theorem filter_not_mem_detachedHashes (ordered : container.Ordered) :
    container.transactions.filter (fun info => decide (info.transactionHash ∉ container.detachedHashes height)) =
      container.transactions.filter fun info => !container.detachedBy height info := by
  apply List.filter_congr
  intro info mem
  have named : info.transactionHash ∈ container.detachedHashes height ↔ container.detachedBy height info = true := by
    constructor
    · intro found
      obtain ⟨other, otherIn, same⟩ := List.mem_map.mp found
      rw [List.mem_filter] at otherIn
      rw [← List.inj_on_of_nodup_map ordered.unique otherIn.1 mem same]
      exact otherIn.2
    · intro detached
      exact List.mem_map.mpr ⟨info, List.mem_filter.mpr ⟨mem, detached⟩, rfl⟩
  by_cases detached : container.detachedBy height info <;> simp [named, detached]

end TransfersContainer

end Nox.CryptoNote
