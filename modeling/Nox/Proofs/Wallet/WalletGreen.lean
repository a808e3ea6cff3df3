import Nox.Model.Wallet.WalletGreen
import Nox.Proofs.Common.ShuffleGenerator
import Mathlib.Data.List.Perm.Subperm
import Nox.Library.Except
import Nox.Proofs.CryptoNoteCore.Amounts
import Nox.Soundness.MinerTransaction

/-! # The amounts of a prepared transaction

Every amount `prepareTransaction` computes is exact. The orders' amounts pass `int64_t` unchanged,
`countNeededMoney` refuses an overflow, the decomposition of an amount adds up to it, the donation
takes pieces of the surplus within its threshold, and the change is the rest of the surplus. So the
amounts of the outputs and the fee add up to the money found. The money found is the `uint64_t`
sum of the selected transfers, which the two shuffles draw from the wallets' outputs without
repeating a position.
-/

namespace Nox.CryptoNote

open Nox.Common

/-! ## Decomposition and donation -/

/-- `decomposeAmount` into an empty vector pushes the handler calls' values. -/
theorem decomposeAmount_nil (amount dustThreshold : UInt64) :
    decomposeAmount amount dustThreshold [] = decomposeAmountIntoDigits amount dustThreshold := by
  unfold decomposeAmount decomposeAmountIntoDigitsWith decomposeAmountIntoDigits
  simp only [decomposeAmountIntoDigitsLoop_eq]

theorem decomposeAmount_sum (amount dustThreshold : UInt64) :
    ((decomposeAmount amount dustThreshold []).map UInt64.toNat).sum = amount.toNat := by
  rw [decomposeAmount_nil, decomposeAmountIntoDigits_eq_parts, List.map_map]
  exact (decomposeAmountIntoParts_handlers amount dustThreshold).2.1

/-- One piece offered to the donation: taken when it fits what the threshold leaves. -/
def donationStep (threshold donationAmount amount : UInt64) : UInt64 :=
  if amount > threshold - donationAmount then donationAmount else donationAmount + amount

theorem calculateDonationAmount_eq (freeAmount donationThreshold dustThreshold : UInt64) :
    calculateDonationAmount freeAmount donationThreshold dustThreshold =
      ((decomposeAmount freeAmount dustThreshold []).mergeSort fun a b => a ≥ b).foldl
        (donationStep donationThreshold) 0 := rfl

theorem donationStep_le {threshold donationAmount : UInt64} (amount : UInt64) (within : donationAmount ≤ threshold) :
    donationStep threshold donationAmount amount ≤ threshold ∧
      (donationStep threshold donationAmount amount).toNat ≤ donationAmount.toNat + amount.toNat := by
  have leaves := UInt64.toNat_sub_of_le _ _ within
  rw [UInt64.le_iff_toNat_le] at within ⊢
  unfold donationStep
  split_ifs with large
  · exact ⟨within, by omega⟩
  · rw [gt_iff_lt, UInt64.lt_iff_toNat_lt, leaves] at large
    have sum : (donationAmount + amount).toNat = donationAmount.toNat + amount.toNat :=
      UInt64.toNat_add_of_lt (by have := threshold.toNat_lt; omega)
    exact ⟨by omega, by omega⟩

/-- The donation loop stays within the threshold and within the pieces it was offered. -/
theorem donationLoop_le (threshold : UInt64) :
    ∀ (amounts : List UInt64) {donationAmount : UInt64}, donationAmount ≤ threshold →
      amounts.foldl (donationStep threshold) donationAmount ≤ threshold ∧
        (amounts.foldl (donationStep threshold) donationAmount).toNat ≤
          donationAmount.toNat + (amounts.map UInt64.toNat).sum := by
  intro amounts
  induction amounts with
  | nil =>
    intro donationAmount within
    exact ⟨within, by simp⟩
  | cons amount amounts ih =>
    intro donationAmount within
    obtain ⟨stepWithin, stepLe⟩ := donationStep_le amount within
    obtain ⟨loopWithin, loopLe⟩ := ih stepWithin
    refine ⟨loopWithin, ?_⟩
    rw [List.map_cons, List.sum_cons]
    exact loopLe.trans (by omega)

/-- The donation is within its threshold and within the surplus. -/
theorem calculateDonationAmount_le (freeAmount donationThreshold dustThreshold : UInt64) :
    calculateDonationAmount freeAmount donationThreshold dustThreshold ≤ donationThreshold ∧
      (calculateDonationAmount freeAmount donationThreshold dustThreshold).toNat ≤ freeAmount.toNat := by
  obtain ⟨within, bounded⟩ := donationLoop_le donationThreshold
    ((decomposeAmount freeAmount dustThreshold []).mergeSort fun a b => a ≥ b) UInt64.zero_le
  have sorted := ((List.mergeSort_perm (decomposeAmount freeAmount dustThreshold []) fun a b => a ≥ b).map
    UInt64.toNat).sum_eq
  rw [sorted, decomposeAmount_sum, UInt64.toNat_zero, Nat.zero_add] at bounded
  rw [calculateDonationAmount_eq]
  exact ⟨within, bounded⟩

/-! ## The destinations and what they need -/

/-- What a list of transfers pays: each `int64_t` amount read back as a `uint64_t`. -/
def transfersAmount (transfers : List WalletTransfer) : ℕ := (transfers.map (·.amount.toUInt64.toNat)).sum

/-- What a list of receivers gets: all the amounts of their outputs. -/
def outputsAmount (outputs : List ReceiverAmounts) : ℕ := ((outputs.flatMap (·.amounts)).map UInt64.toNat).sum

@[simp] theorem transfersAmount_nil : transfersAmount [] = 0 := rfl

@[simp] theorem transfersAmount_cons (transfer : WalletTransfer) (transfers : List WalletTransfer) :
    transfersAmount (transfer :: transfers) = transfer.amount.toUInt64.toNat + transfersAmount transfers := by
  simp [transfersAmount]

@[simp] theorem transfersAmount_append (transfers transfers' : List WalletTransfer) :
    transfersAmount (transfers ++ transfers') = transfersAmount transfers + transfersAmount transfers' := by
  simp [transfersAmount]

@[simp] theorem outputsAmount_nil : outputsAmount [] = 0 := rfl

@[simp] theorem outputsAmount_cons (output : ReceiverAmounts) (outputs : List ReceiverAmounts) :
    outputsAmount (output :: outputs) = (output.amounts.map UInt64.toNat).sum + outputsAmount outputs := by
  simp [outputsAmount]

@[simp] theorem outputsAmount_append (outputs outputs' : List ReceiverAmounts) :
    outputsAmount (outputs ++ outputs') = outputsAmount outputs + outputsAmount outputs' := by
  simp [outputsAmount]

/-- The transfers pay what the orders ask: an amount within `int64_t` is read back unchanged. -/
theorem convertOrdersToTransfers_amount : ∀ {orders : List WalletOrder} {transfers : List WalletTransfer},
    convertOrdersToTransfers orders = .ok transfers →
    transfersAmount transfers = (orders.map (·.amount.toNat)).sum := by
  intro orders
  induction orders with
  | nil =>
    intro transfers converted
    cases converted
    rfl
  | cons order orders ih =>
    intro transfers converted
    rw [convertOrdersToTransfers, List.mapM_cons] at converted
    obtain ⟨transfer, first, rest⟩ := (Except.bind_eq_ok _ _ _).mp converted
    obtain ⟨others, later, joined⟩ := (Except.bind_eq_ok _ _ _).mp rest
    cases joined
    split_ifs at first
    cases first
    rw [transfersAmount_cons, ih later, List.map_cons, List.sum_cons]
    rfl

/-- The loop of `countNeededMoney` refuses an overflow, so it adds up exactly. -/
theorem countNeededMoneyLoop_eq_ok : ∀ {transfers : List WalletTransfer} {neededMoney total : UInt64},
    countNeededMoneyLoop transfers neededMoney = .ok total →
    total.toNat = neededMoney.toNat + transfersAmount transfers := by
  intro transfers
  induction transfers with
  | nil =>
    intro neededMoney total counted
    cases counted
    simp
  | cons transfer transfers ih =>
    intro neededMoney total counted
    rw [countNeededMoneyLoop] at counted
    dsimp only at counted
    split_ifs at counted with zero negative fits
    have sum := add_lt_of_not_overflow (UInt64.not_lt.mpr fits)
    rw [ih counted, UInt64.toNat_add_of_lt sum, transfersAmount_cons]
    omega

theorem countNeededMoney_eq_ok {transfers : List WalletTransfer} {fee neededMoney : UInt64}
    (counted : countNeededMoney transfers fee = .ok neededMoney) :
    neededMoney.toNat = transfersAmount transfers + fee.toNat := by
  obtain ⟨total, looped, checked⟩ := (Except.bind_eq_ok _ _ _).mp counted
  split_ifs at checked with fits
  cases checked
  have sum := add_lt_of_not_overflow (UInt64.not_lt.mpr fits)
  rw [UInt64.toNat_add_of_lt sum, countNeededMoneyLoop_eq_ok looped, UInt64.toNat_zero, Nat.zero_add]

/-- The donation, within its threshold and the surplus, is the one destination it adds. -/
theorem pushDonationTransferIfPossible_eq_ok {donation : DonationSettings} {freeAmount dustThreshold : UInt64}
    {destinations destinations' : List WalletTransfer} {donationAmount : UInt64}
    (pushed : pushDonationTransferIfPossible donation freeAmount dustThreshold destinations =
      .ok (donationAmount, destinations')) :
    transfersAmount destinations' = transfersAmount destinations + donationAmount.toNat ∧
      donationAmount ≤ donation.threshold ∧ donationAmount.toNat ≤ freeAmount.toNat := by
  rw [pushDonationTransferIfPossible] at pushed
  dsimp only at pushed
  split_ifs at pushed with enabled large nonzero
  · cases pushed
    obtain ⟨within, bounded⟩ := calculateDonationAmount_le freeAmount donation.threshold dustThreshold
    refine ⟨?_, within, bounded⟩
    rw [transfersAmount_append, transfersAmount_cons, transfersAmount_nil]
    rfl
  · cases pushed
    obtain ⟨within, bounded⟩ := calculateDonationAmount_le freeAmount donation.threshold dustThreshold
    have zero : calculateDonationAmount freeAmount donation.threshold dustThreshold = 0 := by simpa using nonzero
    refine ⟨?_, within, bounded⟩
    rw [zero, UInt64.toNat_zero, Nat.add_zero]
  · cases pushed
    exact ⟨by simp, UInt64.zero_le, by simp⟩

/-- Every destination is decomposed into outputs that pay its amount. -/
theorem splitDestinations_amount (parseAccountAddressString : String → Option AccountPublicAddress)
    (dustThreshold : UInt64) : ∀ {destinations : List WalletTransfer} {outputs : List ReceiverAmounts},
    splitDestinations parseAccountAddressString destinations dustThreshold = .ok outputs →
    outputsAmount outputs = transfersAmount destinations := by
  intro destinations
  induction destinations with
  | nil =>
    intro outputs split
    cases split
    rfl
  | cons destination destinations ih =>
    intro outputs split
    rw [splitDestinations, List.mapM_cons] at split
    obtain ⟨output, first, rest⟩ := (Except.bind_eq_ok _ _ _).mp split
    obtain ⟨others, later, joined⟩ := (Except.bind_eq_ok _ _ _).mp rest
    cases joined
    split at first
    · cases first
    · cases first
      rw [outputsAmount_cons, ih later, transfersAmount_cons, splitAmount, decomposeAmount_sum]

/-! ## The selection -/

/-- A selected transfer as the pair it was drawn as. -/
def OutputToTransfer.toOutputData (transfer : OutputToTransfer) : OutputData := (transfer.wallet, transfer.out)

/-- What a selection loop over `outs` keeps: after the transfers selected `before` it, the selected
transfers are the outputs at the positions the shuffle has handed out, and the money found is what
all the selected transfers hold. -/
structure Selection (outs before : List OutputData) (shuffle : ShuffleGenerator) (foundMoney : UInt64)
    (selectedTransfers : List OutputToTransfer) : Prop where
  drawn : ∃ returned, shuffle.Drawn outs.length returned ∧
    selectedTransfers.map (·.toOutputData) = before ++ returned.filterMap fun position => outs[position]?
  found : foundMoney = (selectedTransfers.map (·.out.amount)).sum

theorem Selection.start (outs : List OutputData) (generator : ℕ → ℕ) (foundMoney : UInt64)
    (selectedTransfers : List OutputToTransfer) (found : foundMoney = (selectedTransfers.map (·.out.amount)).sum) :
    Selection outs (selectedTransfers.map (·.toOutputData)) (.new outs.length generator) foundMoney selectedTransfers :=
  ⟨⟨[], ShuffleGenerator.Drawn.new _ _, by simp⟩, found⟩

/-- Drawing one more output keeps the selection. -/
theorem Selection.next {outs before : List OutputData} {shuffle shuffle' : ShuffleGenerator} {foundMoney : UInt64}
    {selectedTransfers : List OutputToTransfer} {index : ℕ} {out : OutputData}
    (selection : Selection outs before shuffle foundMoney selectedTransfers)
    (drawn : shuffle.next = some (index, shuffle')) (read : outs[index]? = some out) :
    Selection outs before shuffle' (foundMoney + out.2.amount) (selectedTransfers ++ [⟨out.2, out.1⟩]) := by
  obtain ⟨⟨returned, drawnSoFar, selected⟩, found⟩ := selection
  refine ⟨⟨returned ++ [index], drawnSoFar.next drawn, ?_⟩, ?_⟩
  · rw [List.map_append, selected, List.filterMap_append]
    simp [OutputToTransfer.toOutputData, read]
  · rw [found, List.map_append, List.sum_append]
    simp

/-- The transfers a selection drew after `before` are a part of the outputs, without repetition. -/
theorem Selection.subperm {outs before : List OutputData} {shuffle : ShuffleGenerator} {foundMoney : UInt64}
    {selectedTransfers : List OutputToTransfer} (selection : Selection outs before shuffle foundMoney selectedTransfers) :
    ∃ drawnOuts, drawnOuts.Subperm outs ∧ selectedTransfers.map (·.toOutputData) = before ++ drawnOuts := by
  obtain ⟨⟨returned, drawnSoFar, selected⟩, -⟩ := selection
  obtain ⟨distinct, inside⟩ := drawnSoFar.nodup_lt
  exact ⟨_, List.subperm_filterMap_getElem? outs distinct inside, selected⟩

theorem selectTransfersLoop_selection {outs before : List OutputData} {neededMoney : UInt64}
    {shuffle : ShuffleGenerator} {foundMoney : UInt64} {selectedTransfers : List OutputToTransfer}
    {result : UInt64 × List OutputToTransfer} (selection : Selection outs before shuffle foundMoney selectedTransfers)
    (looped : selectTransfersLoop outs neededMoney shuffle foundMoney selectedTransfers = some result) :
    ∃ shuffle', Selection outs before shuffle' result.1 result.2 := by
  fun_induction selectTransfersLoop outs neededMoney shuffle foundMoney selectedTransfers with
  | case1 => cases looped
  | case2 => cases looped
  | case3 shuffle foundMoney selectedTransfers _ index shuffle' drawn out read _ ih =>
    exact ih (selection.next drawn read) looped
  | case4 =>
    cases looped
    exact ⟨_, selection⟩

theorem selectDustLoop_selection {outs before : List OutputData} {neededMoney : UInt64}
    {shuffle : ShuffleGenerator} {foundMoney : UInt64} {selectedTransfers : List OutputToTransfer}
    {result : UInt64 × List OutputToTransfer} (selection : Selection outs before shuffle foundMoney selectedTransfers)
    (looped : selectDustLoop outs neededMoney shuffle foundMoney selectedTransfers = some result) :
    ∃ shuffle', Selection outs before shuffle' result.1 result.2 := by
  fun_induction selectDustLoop outs neededMoney shuffle foundMoney selectedTransfers with
  | case1 => cases looped
  | case2 => cases looped
  | case3 shuffle foundMoney selectedTransfers index shuffle' drawn out read _ _ _ _ ih =>
    exact ih (selection.next drawn read) looped
  | case4 shuffle foundMoney selectedTransfers index shuffle' drawn out read _ _ =>
    cases looped
    exact ⟨_, selection.next drawn read⟩

/-- The money found is the sum of the selected transfers, which are drawn from the wallets' outputs
without repeating a position. -/
theorem selectTransfers_eq_some {neededMoney dustThreshold : UInt64} {dust : Bool} {wallets : List WalletOuts}
    {indexGenerator dustIndexGenerator : ℕ → ℕ} {foundMoney : UInt64} {selectedTransfers : List OutputToTransfer}
    (selected : selectTransfers neededMoney dust dustThreshold wallets indexGenerator dustIndexGenerator =
      some (foundMoney, selectedTransfers)) :
    foundMoney = (selectedTransfers.map (·.out.amount)).sum ∧
      (selectedTransfers.map (·.toOutputData)).Subperm (walletOutputs wallets) := by
  rw [selectTransfers] at selected
  dsimp only at selected
  obtain ⟨⟨firstFound, firstSelected⟩, firstLoop, rest⟩ := Option.bind_eq_some_iff.mp selected
  obtain ⟨firstShuffle, firstSelection⟩ := selectTransfersLoop_selection (Selection.start _ indexGenerator 0 [] rfl) firstLoop
  obtain ⟨firstOuts, firstPart, firstEq⟩ := firstSelection.subperm
  rw [List.map_nil, List.nil_append] at firstEq
  have firstOnly : firstFound = (firstSelected.map (·.out.amount)).sum ∧
      (firstSelected.map (·.toOutputData)).Subperm (walletOutputs wallets) :=
    ⟨firstSelection.found, firstEq ▸ firstPart.trans List.filter_sublist.subperm⟩
  dsimp only at rest
  cases dust
  · simp only [Bool.false_and, Bool.false_eq_true, if_false] at rest
    cases rest
    exact firstOnly
  · simp only [Bool.true_and, if_true] at rest
    split_ifs at rest
    · -- at least one dust output follows the others
      obtain ⟨dustShuffle, dustSelection⟩ :=
        selectDustLoop_selection (Selection.start _ dustIndexGenerator _ _ firstSelection.found) rest
      obtain ⟨dustOuts, dustPart, dustEq⟩ := dustSelection.subperm
      refine ⟨dustSelection.found, ?_⟩
      rw [dustEq, firstEq]
      exact (firstPart.append dustPart).trans (List.filter_append_perm _ _).subperm
    · cases rest
      exact firstOnly

/-! ## The prepared transaction -/

section Prepare

variable {parseAccountAddressString : String → Option AccountPublicAddress}
  {accountAddressAsString : AccountPublicAddress → String}

theorem outputsAmount_splitAmount (amount : UInt64) (destination : AccountPublicAddress) (dustThreshold : UInt64) :
    outputsAmount [splitAmount amount destination dustThreshold] = amount.toNat := by
  rw [outputsAmount_cons, outputsAmount_nil, Nat.add_zero, splitAmount, decomposeAmount_sum]

/-- When `prepareTransaction` returns, the outputs and the fee add up to the money found, which is
the `uint64_t` sum of the selected transfers; the transfers are drawn from the wallets' outputs
without repeating a position; and the donation is within its threshold and the surplus. -/
theorem prepareTransaction_eq_ok {dustThreshold : UInt64} {indexGenerator dustIndexGenerator : ℕ → ℕ}
    {wallets : List WalletOuts} {orders : List WalletOrder} {fee : UInt64} {mixIn : UInt16}
    {donation : DonationSettings} {changeDestination : AccountPublicAddress} {result : PreparedTransaction}
    (prepared : prepareTransaction parseAccountAddressString accountAddressAsString dustThreshold indexGenerator
      dustIndexGenerator wallets orders fee mixIn donation changeDestination = .ok result) :
    outputsAmount result.decomposedOutputs + fee.toNat = result.foundMoney.toNat ∧
      result.foundMoney = (result.selectedTransfers.map (·.out.amount)).sum ∧
      (result.selectedTransfers.map (·.toOutputData)).Subperm (walletOutputs wallets) ∧
      result.donationAmount ≤ donation.threshold ∧
      result.donationAmount.toNat ≤ result.foundMoney.toNat - result.neededMoney.toNat := by
  obtain ⟨destinations, -, rest⟩ := (Except.bind_eq_ok _ _ _).mp prepared
  obtain ⟨neededMoney, counted, rest⟩ := (Except.bind_eq_ok _ _ _).mp rest
  dsimp only at rest
  split at rest
  · cases rest
  rename_i selection selected
  obtain ⟨foundMoney, selectedTransfers⟩ := selection
  obtain ⟨found, drawn⟩ := selectTransfers_eq_some selected
  have needed := countNeededMoney_eq_ok counted
  rw [pure_bind] at rest
  dsimp only at rest
  split_ifs at rest with short
  · cases rest
  obtain ⟨⟨donationAmount, destinations'⟩, pushed, rest⟩ := (Except.bind_eq_ok _ _ _).mp rest
  obtain ⟨donationPaid, withinThreshold, withinSurplus⟩ := pushDonationTransferIfPossible_eq_ok pushed
  dsimp only at rest
  obtain ⟨decomposedOutputs, split, rest⟩ := (Except.bind_eq_ok _ _ _).mp rest
  have outputs := splitDestinations_amount parseAccountAddressString dustThreshold split
  -- the surplus and the change, exactly
  have enough : neededMoney ≤ foundMoney := UInt64.not_lt.mp short
  have surplus : (foundMoney - neededMoney).toNat = foundMoney.toNat - neededMoney.toNat :=
    UInt64.toNat_sub_of_le _ _ enough
  rw [surplus] at withinSurplus
  have change : (foundMoney - neededMoney - donationAmount).toNat =
      foundMoney.toNat - neededMoney.toNat - donationAmount.toNat := by
    rw [UInt64.toNat_sub_of_le _ _ (UInt64.le_iff_toNat_le.mpr (surplus ▸ withinSurplus)), surplus]
  have enoughNat := UInt64.le_iff_toNat_le.mp enough
  split_ifs at rest with paysChange
  · cases rest
    dsimp only
    refine ⟨?_, found, drawn, withinThreshold, withinSurplus⟩
    rw [outputsAmount_append, outputs, outputsAmount_splitAmount, change]
    omega
  · cases rest
    dsimp only
    have noChange : (foundMoney - neededMoney - donationAmount).toNat = 0 := by
      rw [show foundMoney - neededMoney - donationAmount = 0 by simpa using paysChange, UInt64.toNat_zero]
    refine ⟨?_, found, drawn, withinThreshold, withinSurplus⟩
    rw [outputs]
    omega

end Prepare

end Nox.CryptoNote
