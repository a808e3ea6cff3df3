import Nox.Model.Transfers.BlockchainSynchronizer

/-! # What one round of the synchronizer does to a state

`getShortHistory` never lists the genesis block from its loop, whose offsets stay below `sz`, so it
always appends it: the flag `genesis_included` of the source stays false. A fresh state, which holds
the genesis block alone, finds an interval from height 0 that starts with the genesis block to go
past it at height 1; `updateConsumers` reads that height as 0, hands the consumer the interval from
the genesis block on and appends the hashes it took after the genesis block the state holds.
-/

namespace Nox.CryptoNote

open Nox.Crypto

namespace SynchronizationState

variable (state : SynchronizationState)

/-- The loop of `getShortHistory` keeps the genesis flag it starts with: every offset it lists at is
below `sz` and at least 1. -/
theorem shortHistoryLoop_genesisIncluded (sz : ℕ) (genesisIncluded : Bool) :
    ∀ fuel i currentMultiplier currentBackOffset, 0 < currentBackOffset →
      (state.shortHistoryLoop sz fuel i currentMultiplier currentBackOffset genesisIncluded).2 = genesisIncluded := by
  intro fuel
  induction fuel with
  | zero => intro _ _ _ _; rfl
  | succ fuel ih =>
    intro i currentMultiplier currentBackOffset positive
    simp only [shortHistoryLoop]
    by_cases listing : currentBackOffset < sz
    · have notGenesis : (sz - currentBackOffset == 0) = false := by simp; omega
      simp only [listing, if_true, notGenesis, Bool.or_false]
      -- the next offset is past this one, whether it grows by 1 or by the multiplier
      split_ifs <;> exact ih _ _ _ (by omega)
    · simp only [listing, if_false]

/-- The short history of a state with blocks ends with the genesis block's hash. -/
theorem getShortHistory_getLast? (nonempty : state.blockchain ≠ []) (localHeight : ℕ) :
    (state.getShortHistory localHeight).getLast? = state.blockchain.head? := by
  have held : min state.blockchain.length (localHeight + 1) ≠ 0 := by
    have := List.length_pos_iff.mpr nonempty
    omega
  have flag := state.shortHistoryLoop_genesisIncluded (min state.blockchain.length (localHeight + 1)) false
    (min state.blockchain.length (localHeight + 1)) 0 1 1 Nat.one_pos
  obtain ⟨genesis, others, chain⟩ := List.exists_cons_of_ne_nil nonempty
  simp only [getShortHistory, held, if_false]
  -- the loop's hashes come first and the genesis block's last
  rcases listed : state.shortHistoryLoop (min state.blockchain.length (localHeight + 1))
    (min state.blockchain.length (localHeight + 1)) 0 1 1 false with ⟨history, genesisIncluded⟩
  rw [listed] at flag
  simp only at flag
  simp [flag, chain]

/-- A fresh state finds an interval from height 0 that starts with its genesis block and goes on to
go past it at height 1. -/
theorem checkInterval_ofGenesis (genesisHash : Hash) {hashes : List Hash} (more : hashes ≠ []) :
    (ofGenesis genesisHash).checkInterval ⟨0, genesisHash :: hashes⟩ =
      { detachRequired := false, detachHeight := 0, hasNewBlocks := true, newBlockHeight := 1 } := by
  simp [checkInterval, ofGenesis, more]

end SynchronizationState

end Nox.CryptoNote
