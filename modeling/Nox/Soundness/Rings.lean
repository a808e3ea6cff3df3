import Nox.Proofs.Wallet.PrepareInputs
import Nox.Soundness.WalletGreen

/-! # The rings of a transaction's inputs

With a mixin of at least one and an answer from the node that lists distinct global indexes for each
input, every input gets a ring whose indexes strictly increase, with its real output once, at the
position recorded for it, and as many decoys as the mixin or the other listed outputs allow. Without
an answer, which is what a mixin of zero leads to, each ring is the real output alone.
-/

namespace Nox.CryptoNote

theorem prepareInputs_rings (selectedTransfers : List OutputToTransfer) (mixinResult : List OutsForAmount)
    (mixIn : UInt16) :
    (0 < mixIn.toNat →
      (∀ i < selectedTransfers.length, ∃ entry : OutsForAmount, mixinResult[i]? = some entry ∧
        (entry.outs.map (·.globalAmountIndex)).Nodup) →
      ∃ keysInfo, prepareInputs selectedTransfers mixinResult mixIn = some keysInfo ∧
        keysInfo.length = selectedTransfers.length ∧
        ∀ (i : ℕ) (input : OutputToTransfer) (entry : OutsForAmount) (info : InputInfo), selectedTransfers[i]? = some input → mixinResult[i]? = some entry →
          keysInfo[i]? = some info →
          RingOf input (min mixIn.toNat (entry.outs.countP fun fakeOut =>
            input.out.globalOutputIndex ≠ fakeOut.globalAmountIndex)) info.keyInfo) ∧
    ∃ keysInfo, prepareInputs selectedTransfers [] mixIn = some keysInfo ∧
      keysInfo.length = selectedTransfers.length ∧
      ∀ (i : ℕ) (input : OutputToTransfer) (info : InputInfo), selectedTransfers[i]? = some input →
        keysInfo[i]? = some info →
        info.keyInfo.outputs = [⟨input.out.outputKey, input.out.globalOutputIndex⟩] ∧
          info.keyInfo.realOutput.transactionIndex = 0 := by
  constructor
  · intro positive listed
    -- each input's ring is built from the entry at its own position
    obtain ⟨keysInfo, prepared, length, rings⟩ :=
      @prepareInputs_eq_some selectedTransfers mixinResult mixIn
        (fun input i info => ∀ entry, mixinResult[i]? = some entry →
          RingOf input (min mixIn.toNat (entry.outs.countP fun fakeOut =>
            input.out.globalOutputIndex ≠ fakeOut.globalAmountIndex)) info.keyInfo)
        fun i within => by
          obtain ⟨entry, found, distinct⟩ := listed i within
          obtain ⟨info, computed, ring⟩ := prepareInput_ringOf positive selectedTransfers[i] found distinct
          refine ⟨info, computed, fun other foundOther => ?_⟩
          obtain rfl := Option.some.inj (found.symm.trans foundOther)
          exact ring
    exact ⟨keysInfo, prepared, length,
      fun i input entry info selected found built => rings i input info selected built entry found⟩
  · obtain ⟨keysInfo, prepared, length, alone⟩ :=
      @prepareInputs_eq_some selectedTransfers [] mixIn
        (fun input _ info => info.keyInfo.outputs = [⟨input.out.outputKey, input.out.globalOutputIndex⟩] ∧
          info.keyInfo.realOutput.transactionIndex = 0)
        fun i _ => ⟨_, prepareInput_nil mixIn i selectedTransfers[i], rfl, rfl⟩
    exact ⟨keysInfo, prepared, length, alone⟩

namespace Scenario

/-- The large and the small output of the wallet, at global indexes 12 and 30. -/
def ringTransfers : List OutputToTransfer := [⟨largeOutput, 0⟩, ⟨smallOutput, 0⟩]

/-- The node's decoys for them, the first entry listing the large output itself. -/
def ringDecoys : List OutsForAmount :=
  [⟨100, [⟨15, keyOf 20⟩, ⟨12, keyOf 10⟩, ⟨3, keyOf 21⟩]⟩, ⟨57, [⟨40, keyOf 22⟩, ⟨31, keyOf 23⟩, ⟨2, keyOf 24⟩]⟩]

/-- With mixin 2 each input gets a ring of three: the real output and two decoys, the large output
being skipped among its own decoys. -/
theorem prepareInputs_rings_mixin_two :
    0 < (2 : UInt16).toNat ∧
      (∀ i < ringTransfers.length, ∃ entry : OutsForAmount, ringDecoys[i]? = some entry ∧
        (entry.outs.map (·.globalAmountIndex)).Nodup) ∧
      ∃ keysInfo, prepareInputs ringTransfers ringDecoys 2 = some keysInfo ∧
        keysInfo.length = ringTransfers.length ∧
        ∀ (i : ℕ) (input : OutputToTransfer) (entry : OutsForAmount) (info : InputInfo), ringTransfers[i]? = some input → ringDecoys[i]? = some entry →
          keysInfo[i]? = some info →
          RingOf input (min (2 : UInt16).toNat (entry.outs.countP fun fakeOut =>
            input.out.globalOutputIndex ≠ fakeOut.globalAmountIndex)) info.keyInfo := by
  have positive : 0 < (2 : UInt16).toNat := by decide
  have listed : ∀ i < ringTransfers.length, ∃ entry : OutsForAmount, ringDecoys[i]? = some entry ∧
      (entry.outs.map (·.globalAmountIndex)).Nodup := by
    intro i within
    have : i < 2 := within
    interval_cases i
    · exact ⟨_, rfl, by decide⟩
    · exact ⟨_, rfl, by decide⟩
  exact ⟨positive, listed, (prepareInputs_rings ringTransfers ringDecoys 2).1 positive listed⟩

end Scenario

end Nox.CryptoNote
