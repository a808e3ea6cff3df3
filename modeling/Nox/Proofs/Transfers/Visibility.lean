import Nox.Model.Transfers.TransfersContainer
import Nox.Library.FirstMatch

/-! # The container apart from visibility

`updateTransfersVisibility` only chooses which transfers of a key image are visible. With the flag
of every transfer cleared, the container after it is the container before it, and each loop of
`deleteTransactionTransfers` has a closed form: the outputs the transaction spent go back to the
end of the available transfers in their order, and its own unconfirmed and available transfers
go. None of the loops reads the flag, so each round is the same whatever it was.
-/

namespace Nox.CryptoNote

/-- A transfer with its visibility cleared. -/
def TransactionOutputInformationEx.hidden (transfer : TransactionOutputInformationEx) :
    TransactionOutputInformationEx :=
  { transfer with visible := false }

/-- A spent transfer with its visibility cleared. -/
def SpentTransactionOutput.hidden (spent : SpentTransactionOutput) : SpentTransactionOutput :=
  { spent with visible := false }

namespace TransactionOutputInformationEx

variable (transfer : TransactionOutputInformationEx)

@[simp] theorem hidden_transactionHash : transfer.hidden.transactionHash = transfer.transactionHash := rfl
@[simp] theorem hidden_keyImage : transfer.hidden.keyImage = transfer.keyImage := rfl
@[simp] theorem hidden_visible_update (visible : Bool) :
    ({ transfer with visible := visible } : TransactionOutputInformationEx).hidden = transfer.hidden := rfl

end TransactionOutputInformationEx

namespace SpentTransactionOutput

variable (spent : SpentTransactionOutput)

@[simp] theorem hidden_spendingTransactionHash : spent.hidden.spendingTransactionHash = spent.spendingTransactionHash := rfl
@[simp] theorem hidden_transactionHash : spent.hidden.transactionHash = spent.transactionHash := rfl
@[simp] theorem hidden_keyImage : spent.hidden.keyImage = spent.keyImage := rfl
@[simp] theorem hidden_blockHeight : spent.hidden.blockHeight = spent.blockHeight := rfl
@[simp] theorem hidden_toTransactionOutputInformationEx :
    spent.hidden.toTransactionOutputInformationEx = spent.toTransactionOutputInformationEx.hidden := rfl
@[simp] theorem hidden_visible_update (visible : Bool) :
    ({ spent with visible := visible } : SpentTransactionOutput).hidden = spent.hidden := rfl

end SpentTransactionOutput

theorem map_hidden_setVisible (keyImage : Crypto.KeyImage) (visible : Bool)
    (transfers : List TransactionOutputInformationEx) :
    (setVisible keyImage visible transfers).map (·.hidden) = transfers.map (·.hidden) := by
  simp only [setVisible, List.map_map]
  apply List.map_congr_left
  intro transfer _
  simp only [Function.comp_apply]
  split <;> rfl

theorem map_hidden_setSpentVisible (keyImage : Crypto.KeyImage) (transfers : List SpentTransactionOutput) :
    (setSpentVisible keyImage transfers).map (·.hidden) = transfers.map (·.hidden) := by
  simp only [setSpentVisible, List.map_map]
  apply List.map_congr_left
  intro spent _
  simp only [Function.comp_apply]
  split <;> rfl

/-- Replacing a transfer by one that differs from it only in its flag. -/
theorem map_hidden_replace (transfers : List TransactionOutputInformationEx)
    {transfer other : TransactionOutputInformationEx} (same : transfer.hidden = other.hidden) :
    (transfers.replace transfer other).map (·.hidden) = transfers.map (·.hidden) := by
  induction transfers with
  | nil => rfl
  | cons first transfers ih =>
    rw [List.replace_cons]
    split
    case h_1 replaced =>
      rw [beq_iff_eq.mp replaced] at same
      simp [same]
    case h_2 => simp [ih]

namespace TransfersContainer

/-- The container with the visibility of every transfer cleared. -/
def hidden (container : TransfersContainer) : TransfersContainer :=
  { container with
    unconfirmedTransfers := container.unconfirmedTransfers.map (·.hidden),
    availableTransfers := container.availableTransfers.map (·.hidden),
    spentTransfers := container.spentTransfers.map (·.hidden) }

variable (container : TransfersContainer) (transactionHash : Crypto.Hash)

@[simp] theorem hidden_transactions : container.hidden.transactions = container.transactions := rfl
@[simp] theorem hidden_currentHeight : container.hidden.currentHeight = container.currentHeight := rfl
@[simp] theorem hidden_unconfirmedTransfers :
    container.hidden.unconfirmedTransfers = container.unconfirmedTransfers.map (·.hidden) := rfl
@[simp] theorem hidden_availableTransfers :
    container.hidden.availableTransfers = container.availableTransfers.map (·.hidden) := rfl
@[simp] theorem hidden_spentTransfers :
    container.hidden.spentTransfers = container.spentTransfers.map (·.hidden) := rfl

/-- `updateTransfersVisibility` changes flags only. -/
@[simp] theorem hidden_updateTransfersVisibility (keyImage : Crypto.KeyImage) :
    (container.updateTransfersVisibility keyImage).hidden = container.hidden := by
  unfold updateTransfersVisibility
  dsimp only
  split
  · simp [hidden, map_hidden_setVisible, map_hidden_setSpentVisible]
  · split
    · -- the earliest available transfer is shown again
      simp only [hidden, map_hidden_setVisible, TransfersContainer.mk.injEq, true_and, and_true]
      split
      · rw [map_hidden_replace _ (TransactionOutputInformationEx.hidden_visible_update _ true).symm, map_hidden_setVisible]
      · rw [map_hidden_setVisible]
    · simp [hidden, map_hidden_setVisible]

/-- A count of transfers by what the flag does not change is the same after the update. -/
theorem countP_unconfirmedTransfers_updateTransfersVisibility (keyImage : Crypto.KeyImage)
    (p : TransactionOutputInformationEx → Bool) (unflagged : ∀ transfer, p transfer.hidden = p transfer) :
    (container.updateTransfersVisibility keyImage).unconfirmedTransfers.countP p = container.unconfirmedTransfers.countP p := by
  have same := congrArg (fun c : TransfersContainer => c.unconfirmedTransfers.countP p)
    (hidden_updateTransfersVisibility container keyImage)
  simp only [hidden_unconfirmedTransfers, List.countP_map, Function.comp_def, unflagged] at same
  exact same

theorem countP_availableTransfers_updateTransfersVisibility (keyImage : Crypto.KeyImage)
    (p : TransactionOutputInformationEx → Bool) (unflagged : ∀ transfer, p transfer.hidden = p transfer) :
    (container.updateTransfersVisibility keyImage).availableTransfers.countP p = container.availableTransfers.countP p := by
  have same := congrArg (fun c : TransfersContainer => c.availableTransfers.countP p)
    (hidden_updateTransfersVisibility container keyImage)
  simp only [hidden_availableTransfers, List.countP_map, Function.comp_def, unflagged] at same
  exact same

theorem countP_spentTransfers_updateTransfersVisibility (keyImage : Crypto.KeyImage)
    (p : SpentTransactionOutput → Bool) (unflagged : ∀ spent, p spent.hidden = p spent) :
    (container.updateTransfersVisibility keyImage).spentTransfers.countP p = container.spentTransfers.countP p := by
  have same := congrArg (fun c : TransfersContainer => c.spentTransfers.countP p)
    (hidden_updateTransfersVisibility container keyImage)
  simp only [hidden_spentTransfers, List.countP_map, Function.comp_def, unflagged] at same
  exact same

/-! ## The loops of `deleteTransactionTransfers` -/

/-- What `restoreSpentLoop` does to the transfers: the outputs the transaction spent go back to the
end of the available transfers, in their order. -/
def restoreSpent : TransfersContainer :=
  { container with
    availableTransfers := container.availableTransfers ++
      (container.spentTransfers.filter (·.spendingTransactionHash == transactionHash)).map
        (·.toTransactionOutputInformationEx),
    spentTransfers := container.spentTransfers.filter fun spent => !(spent.spendingTransactionHash == transactionHash) }

/-- What `eraseUnconfirmedLoop` does: the transaction's unconfirmed transfers go. -/
def eraseUnconfirmed : TransfersContainer :=
  { container with
    unconfirmedTransfers := container.unconfirmedTransfers.filter fun transfer =>
      !(transfer.transactionHash == transactionHash) }

/-- What `eraseAvailableLoop` does: the transaction's available transfers go. -/
def eraseAvailable : TransfersContainer :=
  { container with
    availableTransfers := container.availableTransfers.filter fun transfer =>
      !(transfer.transactionHash == transactionHash) }

/-- What `deleteTransactionTransfers` does to the transfers. -/
def deleteTransfers : TransfersContainer :=
  ((container.restoreSpent transactionHash).eraseUnconfirmed transactionHash).eraseAvailable transactionHash

theorem hidden_restoreSpent : (container.restoreSpent transactionHash).hidden = container.hidden.restoreSpent transactionHash := by
  simp [restoreSpent, hidden, List.filter_map, Function.comp_def]

theorem hidden_eraseUnconfirmed :
    (container.eraseUnconfirmed transactionHash).hidden = container.hidden.eraseUnconfirmed transactionHash := by
  simp [eraseUnconfirmed, hidden, List.filter_map, Function.comp_def]

theorem hidden_eraseAvailable :
    (container.eraseAvailable transactionHash).hidden = container.hidden.eraseAvailable transactionHash := by
  simp [eraseAvailable, hidden, List.filter_map, Function.comp_def]

/-- One round of `restoreSpentLoop` leaves what is still to restore as it found it. -/
theorem restoreSpent_round {spent : SpentTransactionOutput}
    (found : container.spentTransfers.find? (·.spendingTransactionHash == transactionHash) = some spent) :
    ({ container with
        availableTransfers := container.availableTransfers ++ [spent.toTransactionOutputInformationEx],
        spentTransfers := container.spentTransfers.eraseP (·.spendingTransactionHash == transactionHash) } :
      TransfersContainer).restoreSpent transactionHash = container.restoreSpent transactionHash := by
  simp only [restoreSpent, List.filter_not_eraseP, List.filter_eq_cons_filter_eraseP found, List.map_cons,
    List.append_assoc, List.singleton_append]

/-- Run once for each output the transaction spent, `restoreSpentLoop` restores them all. -/
theorem hidden_restoreSpentLoop :
    ∀ count (container : TransfersContainer),
      count = container.spentTransfers.countP (·.spendingTransactionHash == transactionHash) →
      (restoreSpentLoop transactionHash count container).hidden = (container.restoreSpent transactionHash).hidden := by
  intro count
  induction count with
  | zero =>
    intro container none
    have nothing : ∀ spent ∈ container.spentTransfers, ¬(spent.spendingTransactionHash == transactionHash) = true :=
      List.countP_eq_zero.mp none.symm
    have kept : container.spentTransfers.filter (fun spent => !(spent.spendingTransactionHash == transactionHash)) =
        container.spentTransfers :=
      List.filter_eq_self.mpr fun spent mem => by simpa using nothing spent mem
    simp [restoreSpentLoop, restoreSpent, List.filter_eq_nil_iff.mpr nothing, kept]
  | succ count ih =>
    intro container counted
    obtain ⟨spent, found⟩ : ∃ spent, container.spentTransfers.find? (·.spendingTransactionHash == transactionHash) = some spent :=
      List.exists_find?_eq_some_of_countP_pos (by omega)
    rw [restoreSpentLoop, found]
    dsimp only
    rw [ih, hidden_restoreSpent, hidden_updateTransfersVisibility, ← hidden_restoreSpent, restoreSpent_round _ _ found]
    -- the round took one of the outputs to restore, and the update counts none
    rw [countP_spentTransfers_updateTransfersVisibility _ _ _ fun _ => rfl]
    have fewer := List.countP_eraseP_of_find? found
    dsimp only
    omega

/-- Run once for each unconfirmed transfer of the transaction, `eraseUnconfirmedLoop` erases them all. -/
theorem hidden_eraseUnconfirmedLoop :
    ∀ count (container : TransfersContainer),
      count = container.unconfirmedTransfers.countP (·.transactionHash == transactionHash) →
      (eraseUnconfirmedLoop transactionHash count container).hidden = (container.eraseUnconfirmed transactionHash).hidden := by
  intro count
  induction count with
  | zero =>
    intro container none
    have nothing : ∀ transfer ∈ container.unconfirmedTransfers, ¬(transfer.transactionHash == transactionHash) = true :=
      List.countP_eq_zero.mp none.symm
    have kept : container.unconfirmedTransfers.filter (fun transfer => !(transfer.transactionHash == transactionHash)) =
        container.unconfirmedTransfers :=
      List.filter_eq_self.mpr fun transfer mem => by simpa using nothing transfer mem
    simp [eraseUnconfirmedLoop, eraseUnconfirmed, kept]
  | succ count ih =>
    intro container counted
    obtain ⟨transfer, found⟩ :
        ∃ transfer, container.unconfirmedTransfers.find? (·.transactionHash == transactionHash) = some transfer :=
      List.exists_find?_eq_some_of_countP_pos (by omega)
    rw [eraseUnconfirmedLoop, found]
    dsimp only
    rw [ih, hidden_eraseUnconfirmed, hidden_updateTransfersVisibility, ← hidden_eraseUnconfirmed]
    · simp only [eraseUnconfirmed, List.filter_not_eraseP]
    · rw [countP_unconfirmedTransfers_updateTransfersVisibility _ _ _ fun _ => rfl]
      have fewer := List.countP_eraseP_of_find? found
      dsimp only
      omega

/-- Run once for each available transfer of the transaction, `eraseAvailableLoop` erases them all. -/
theorem hidden_eraseAvailableLoop :
    ∀ count (container : TransfersContainer),
      count = container.availableTransfers.countP (·.transactionHash == transactionHash) →
      (eraseAvailableLoop transactionHash count container).hidden = (container.eraseAvailable transactionHash).hidden := by
  intro count
  induction count with
  | zero =>
    intro container none
    have nothing : ∀ transfer ∈ container.availableTransfers, ¬(transfer.transactionHash == transactionHash) = true :=
      List.countP_eq_zero.mp none.symm
    have kept : container.availableTransfers.filter (fun transfer => !(transfer.transactionHash == transactionHash)) =
        container.availableTransfers :=
      List.filter_eq_self.mpr fun transfer mem => by simpa using nothing transfer mem
    simp [eraseAvailableLoop, eraseAvailable, kept]
  | succ count ih =>
    intro container counted
    obtain ⟨transfer, found⟩ :
        ∃ transfer, container.availableTransfers.find? (·.transactionHash == transactionHash) = some transfer :=
      List.exists_find?_eq_some_of_countP_pos (by omega)
    rw [eraseAvailableLoop, found]
    dsimp only
    rw [ih, hidden_eraseAvailable, hidden_updateTransfersVisibility, ← hidden_eraseAvailable]
    · simp only [eraseAvailable, List.filter_not_eraseP]
    · rw [countP_availableTransfers_updateTransfersVisibility _ _ _ fun _ => rfl]
      have fewer := List.countP_eraseP_of_find? found
      dsimp only
      omega

/-- Apart from visibility, `deleteTransactionTransfers` gives back the outputs the transaction
spent and erases its own transfers. -/
theorem hidden_deleteTransactionTransfers :
    (container.deleteTransactionTransfers transactionHash).hidden = (container.deleteTransfers transactionHash).hidden := by
  unfold deleteTransactionTransfers deleteTransfers
  rw [hidden_eraseAvailableLoop _ _ _ rfl, hidden_eraseAvailable, hidden_eraseUnconfirmedLoop _ _ _ rfl,
    hidden_eraseUnconfirmed, hidden_restoreSpentLoop _ _ _ rfl, ← hidden_eraseUnconfirmed, ← hidden_eraseAvailable]

end TransfersContainer

end Nox.CryptoNote
