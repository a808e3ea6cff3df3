import Nox.Model.Wallet.WalletGreen
import Nox.Library.SortedInsert
import Nox.Library.Except

/-! # The ring of each input

`prepareInputs` pushes the decoys of an input other than its real output, in order of global index,
until it has `mixIn` of them: with `mixIn ≥ 1` they are the first `mixIn` others. Their indexes
strictly increase when the node's are distinct, and none is the real output's, so inserting the real
output before the first decoy not below it keeps them increasing and puts it at the recorded
position, once. Without an answer from the node the ring is the real output alone.
-/

namespace Nox.CryptoNote

/-- A decoy as a ring member. -/
def OutEntry.toGlobalOutput (fakeOut : OutEntry) : GlobalOutput := ⟨fakeOut.outKey, fakeOut.globalAmountIndex⟩

/-- What the ring of an input is to be: its members' indexes strictly increase, the real output sits
at the position recorded for it and its index nowhere else, and there are `decoys` members besides
it. -/
structure RingOf (input : OutputToTransfer) (decoys : ℕ) (keyInfo : InputKeyInfo) : Prop where
  increasing : (keyInfo.outputs.map (·.outputIndex)).Pairwise (· < ·)
  real : keyInfo.outputs[keyInfo.realOutput.transactionIndex]? =
    some ⟨input.out.outputKey, input.out.globalOutputIndex⟩
  once : (keyInfo.outputs.map (·.outputIndex)).count input.out.globalOutputIndex = 1
  size : keyInfo.outputs.length = decoys + 1

section Decoys

variable (mixIn : ℕ) (globalOutputIndex : UInt32)

/-- With room left in the ring, the loop pushes the others in order until the ring holds `mixIn`
members. -/
theorem pushDecoys_eq : ∀ (fakeOuts : List OutEntry) {outputs : List GlobalOutput}, outputs.length < mixIn →
    pushDecoys mixIn globalOutputIndex fakeOuts outputs =
      outputs ++ ((fakeOuts.filter fun fakeOut => decide (globalOutputIndex ≠ fakeOut.globalAmountIndex)).map
        OutEntry.toGlobalOutput).take (mixIn - outputs.length)
  | [], outputs, _ => by simp [pushDecoys]
  | fakeOut :: fakeOuts, outputs, room => by
    rw [pushDecoys]
    by_cases real : globalOutputIndex = fakeOut.globalAmountIndex
    · rw [if_pos real, pushDecoys_eq fakeOuts room, List.filter_cons_of_neg (by simpa using real)]
    rw [if_neg real, List.filter_cons_of_pos (by simpa using real), List.map_cons]
    dsimp only
    split_ifs with full
    · -- the push fills the ring
      rw [List.length_append, List.length_singleton] at full
      rw [show mixIn - outputs.length = 0 + 1 by omega, List.take_succ_cons, List.take_zero]
      rfl
    · rw [List.length_append, List.length_singleton] at full
      rw [pushDecoys_eq fakeOuts (by rw [List.length_append, List.length_singleton]; omega), List.length_append,
        List.length_singleton, show mixIn - outputs.length = mixIn - (outputs.length + 1) + 1 by omega,
        List.take_succ_cons, List.append_assoc, List.singleton_append]
      rfl

/-- The decoys an input gets from a listed entry, sorted by global index. -/
def sortedDecoys (outs : List OutEntry) : List GlobalOutput :=
  (((outs.mergeSort fun a b => decide (a.globalAmountIndex ≤ b.globalAmountIndex)).filter
    fun fakeOut => decide (globalOutputIndex ≠ fakeOut.globalAmountIndex)).map OutEntry.toGlobalOutput).take mixIn

/-- With `mixIn ≥ 1` the ring starts empty with room, so its decoys are the first `mixIn` others. -/
theorem pushDecoys_mergeSort (positive : 0 < mixIn) (outs : List OutEntry) :
    pushDecoys mixIn globalOutputIndex (outs.mergeSort fun a b => decide (a.globalAmountIndex ≤ b.globalAmountIndex)) [] =
      sortedDecoys mixIn globalOutputIndex outs := by
  rw [pushDecoys_eq mixIn globalOutputIndex _ (show ([] : List GlobalOutput).length < mixIn from positive), List.nil_append, List.length_nil, Nat.sub_zero, sortedDecoys]

/-- The sort compares the values of the indexes. -/
theorem globalAmountIndex_le_eq :
    (fun a b : OutEntry => decide (a.globalAmountIndex ≤ b.globalAmountIndex)) =
      fun a b => decide (a.globalAmountIndex.toNat ≤ b.globalAmountIndex.toNat) := by
  funext a b
  simp only [UInt32.le_iff_toNat_le]

/-- Over distinct listed indexes, the decoys' indexes strictly increase, none is the real output's,
and there are `mixIn` of them or every other listed output. -/
theorem sortedDecoys_spec {outs : List OutEntry} (distinct : (outs.map (·.globalAmountIndex)).Nodup) :
    ((sortedDecoys mixIn globalOutputIndex outs).map (·.outputIndex.toNat)).Pairwise (· < ·) ∧
      globalOutputIndex.toNat ∉ (sortedDecoys mixIn globalOutputIndex outs).map (·.outputIndex.toNat) ∧
      (sortedDecoys mixIn globalOutputIndex outs).length =
        min mixIn (outs.countP fun fakeOut => globalOutputIndex ≠ fakeOut.globalAmountIndex) := by
  have values : (outs.map fun fakeOut => fakeOut.globalAmountIndex.toNat).Nodup := by
    have distinctValues := distinct.map fun _ _ same => UInt32.toNat_inj.mp same
    rwa [List.map_map] at distinctValues
  have sorted := List.pairwise_lt_mergeSort (fun fakeOut : OutEntry => fakeOut.globalAmountIndex.toNat) values
  rw [← globalAmountIndex_le_eq] at sorted
  -- the decoys' values are a sublist of the sorted values
  have within : ((sortedDecoys mixIn globalOutputIndex outs).map (·.outputIndex.toNat)).Sublist
      ((outs.mergeSort fun a b => decide (a.globalAmountIndex ≤ b.globalAmountIndex)).map
        (·.globalAmountIndex.toNat)) := by
    rw [sortedDecoys, List.map_take, List.map_map]
    exact (List.take_sublist _ _).trans (List.filter_sublist.map _)
  refine ⟨sorted.sublist within, fun member => ?_, ?_⟩
  · rw [sortedDecoys, List.map_take, List.map_map] at member
    obtain ⟨fakeOut, kept, same⟩ := List.mem_map.mp (List.mem_of_mem_take member)
    have other := (List.mem_filter.mp kept).2
    simp only [ne_eq, decide_not, Bool.not_eq_eq_eq_not, Bool.not_true, decide_eq_false_iff_not] at other
    exact other (UInt32.toNat_inj.mp same.symm)
  · rw [sortedDecoys, List.length_take, List.length_map, ← List.countP_eq_length_filter,
      (List.mergeSort_perm outs _).countP_eq]

end Decoys

/-- The real output inserted into decoys whose values strictly increase and differ from its own
makes a ring. -/
theorem ringOf_insert (input : OutputToTransfer) {decoys : List GlobalOutput}
    (increasing : (decoys.map (·.outputIndex.toNat)).Pairwise (· < ·))
    (fresh : input.out.globalOutputIndex.toNat ∉ decoys.map (·.outputIndex.toNat)) :
    RingOf input decoys.length
      ⟨input.out.amount,
        decoys.insertIdx (decoys.findIdx fun a => decide (input.out.globalOutputIndex ≤ a.outputIndex))
          ⟨input.out.outputKey, input.out.globalOutputIndex⟩,
        ⟨input.out.transactionPublicKey, decoys.findIdx fun a => decide (input.out.globalOutputIndex ≤ a.outputIndex),
          input.out.outputInTransaction.toNat⟩⟩ := by
  have compared : (fun a : GlobalOutput => decide (input.out.globalOutputIndex ≤ a.outputIndex)) =
      fun a => decide (input.out.globalOutputIndex.toNat ≤ a.outputIndex.toNat) := by
    funext a
    simp only [UInt32.le_iff_toNat_le]
  have values := List.pairwise_insertIdx_findIdx ⟨input.out.outputKey, input.out.globalOutputIndex⟩ increasing fresh
  rw [← compared] at values
  have ordered : ((decoys.insertIdx (decoys.findIdx fun a => decide (input.out.globalOutputIndex ≤ a.outputIndex))
      ⟨input.out.outputKey, input.out.globalOutputIndex⟩).map (·.outputIndex)).Pairwise (· < ·) := by
    rw [List.pairwise_map] at values ⊢
    exact values.imp fun below => UInt32.lt_iff_toNat_lt.mpr below
  have placed := List.getElem?_insertIdx_findIdx (fun a => decide (input.out.globalOutputIndex ≤ a.outputIndex))
    ⟨input.out.outputKey, input.out.globalOutputIndex⟩ decoys
  refine ⟨ordered, placed, ?_, List.length_insertIdx_findIdx _ _ _⟩
  -- the real output's index is in the ring, and the ring's indexes are distinct
  exact List.count_eq_one_of_mem ordered.nodup (List.mem_map.mpr ⟨_, List.mem_of_getElem? placed, rfl⟩)

/-- With `mixIn ≥ 1` and an entry of distinct indexes for the input, the input gets a ring of the
real output and `min(mixIn, others)` decoys. -/
theorem prepareInput_ringOf {mixinResult : List OutsForAmount} {mixIn : UInt16} (positive : 0 < mixIn.toNat)
    {i : ℕ} (input : OutputToTransfer) {entry : OutsForAmount} (listed : mixinResult[i]? = some entry)
    (distinct : (entry.outs.map (·.globalAmountIndex)).Nodup) :
    ∃ info, prepareInput mixinResult mixIn i input = some info ∧
      RingOf input (min mixIn.toNat (entry.outs.countP fun fakeOut =>
        input.out.globalOutputIndex ≠ fakeOut.globalAmountIndex)) info.keyInfo := by
  have answered : mixinResult.isEmpty = false := by
    cases mixinResult with
    | nil => simp at listed
    | cons _ _ => rfl
  obtain ⟨increasing, fresh, length⟩ := sortedDecoys_spec mixIn.toNat input.out.globalOutputIndex distinct
  rw [← length]
  refine ⟨⟨_, input.wallet⟩, ?_, ringOf_insert input increasing fresh⟩
  simp only [prepareInput, answered, listed, Bool.false_eq_true, if_false, bind, pure, Option.bind_some,
    pushDecoys_mergeSort mixIn.toNat input.out.globalOutputIndex positive]

/-- Without an answer from the node the ring is the real output alone, at position 0. -/
theorem prepareInput_nil (mixIn : UInt16) (i : ℕ) (input : OutputToTransfer) :
    prepareInput [] mixIn i input =
      some ⟨⟨input.out.amount, [⟨input.out.outputKey, input.out.globalOutputIndex⟩],
        ⟨input.out.transactionPublicKey, 0, input.out.outputInTransaction.toNat⟩⟩, input.wallet⟩ := rfl

/-- `prepareInputs` succeeds when the body succeeds for every input, with one input for each, in
order. -/
theorem prepareInputs_eq_some {selectedTransfers : List OutputToTransfer} {mixinResult : List OutsForAmount}
    {mixIn : UInt16} {P : OutputToTransfer → ℕ → InputInfo → Prop}
    (each : ∀ i (within : i < selectedTransfers.length), ∃ info,
      prepareInput mixinResult mixIn i selectedTransfers[i] = some info ∧ P selectedTransfers[i] i info) :
    ∃ keysInfo, prepareInputs selectedTransfers mixinResult mixIn = some keysInfo ∧
      keysInfo.length = selectedTransfers.length ∧
      ∀ i input info, selectedTransfers[i]? = some input → keysInfo[i]? = some info → P input i info := by
  obtain ⟨keysInfo, mapped, related⟩ := @List.mapM_eq_some_of_forall _ _
    (fun pair => prepareInput mixinResult mixIn pair.2 pair.1) (fun pair info => P pair.1 pair.2 info)
    selectedTransfers.zipIdx fun pair member => by
      obtain ⟨i, within, rfl⟩ := List.getElem_of_mem member
      rw [List.getElem_zipIdx, Nat.zero_add]
      exact each i (by simpa using within)
  refine ⟨keysInfo, mapped, by rw [← related.length_eq, List.length_zipIdx], fun i input info selected found => ?_⟩
  obtain ⟨lengths, pointwise⟩ := List.forall₂_iff_get.mp related
  obtain ⟨within, rfl⟩ := List.getElem?_eq_some_iff.mp selected
  obtain ⟨found_within, rfl⟩ := List.getElem?_eq_some_iff.mp found
  have := pointwise i (by simpa using within) found_within
  simpa [List.getElem_zipIdx] using this

end Nox.CryptoNote
