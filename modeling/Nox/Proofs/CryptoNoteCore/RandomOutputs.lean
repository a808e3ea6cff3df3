import Nox.Model.CryptoNoteCore.RandomOutputs
import Nox.Proofs.Common.ShuffleGenerator
import Nox.Library.Except

/-! # What a draw of decoys can return

Every generator the decoy queries make hands out distinct positions below its size (`Drawn`). An
in-memory segment's own answer is therefore some of its first `min(count, eligible)` outputs, each
at most once, and the rest of its answer is its parent's answer for what is missing. The database
root's answer is some of its draws from all outputs of the amount, each at most once. No path
answers with more global indexes than it was asked for.
-/

namespace Nox.CryptoNote

open Nox.Common Nox.Common.ShuffleGenerator

namespace ShuffleGenerator

/-- A batch of draws is the next values the generator hands out, as many as asked for. -/
theorem drawMany_drawn {n : ℕ} : ∀ {count : ℕ} {returned values : List ℕ}
    {generator generator' : Nox.Common.ShuffleGenerator}, Drawn n returned generator →
    drawMany generator count = some (values, generator') →
    Drawn n (returned ++ values) generator' ∧ values.length = count
  | 0, returned, values, generator, generator', drawnSoFar, drawn => by
    obtain ⟨rfl, rfl⟩ := Prod.mk.inj (Option.some.inj drawn)
    exact ⟨by rwa [List.append_nil], rfl⟩
  | count + 1, returned, values, generator, generator', drawnSoFar, drawn => by
    obtain ⟨⟨value, next⟩, stepped, rest⟩ := Option.bind_eq_some_iff.mp drawn
    obtain ⟨⟨others, last⟩, batch, joined⟩ := Option.bind_eq_some_iff.mp rest
    obtain ⟨rfl, rfl⟩ := Prod.mk.inj (Option.some.inj joined)
    obtain ⟨drawnRest, length⟩ := drawMany_drawn (drawnSoFar.next stepped) batch
    exact ⟨by simpa using drawnRest, by simp [length]⟩

end ShuffleGenerator

namespace Segment

variable (currency : Currency) (now : UInt64)

/-- The loop of an in-memory segment keeps some of the positions it draws, each as its global
index. -/
theorem randomOwnOutsLoop_drawn (cache : BlockchainCache) (entry : OutputGlobalIndexesForAmount) (blockIndex : ℕ)
    {n : ℕ} : ∀ {dist : ℕ} {returned offs : List ℕ} {generator generator' : Nox.Common.ShuffleGenerator},
    Drawn n returned generator →
    randomOwnOutsLoop currency now cache entry blockIndex dist generator = some (offs, generator') →
    ∃ values, Drawn n (returned ++ values) generator' ∧ values.length = dist ∧
      offs.Sublist (values.map (entry.startIndex + ·))
  | 0, returned, offs, generator, generator', drawnSoFar, drawn => by
    obtain ⟨rfl, rfl⟩ := Prod.mk.inj (Option.some.inj drawn)
    exact ⟨[], by rwa [List.append_nil], rfl, List.Sublist.slnil⟩
  | dist + 1, returned, offs, generator, generator', drawnSoFar, drawn => by
    obtain ⟨⟨offset, next⟩, stepped, rest⟩ := Option.bind_eq_some_iff.mp drawn
    obtain ⟨outIndex, -, rest⟩ := Option.bind_eq_some_iff.mp rest
    obtain ⟨info, -, rest⟩ := Option.bind_eq_some_iff.mp rest
    obtain ⟨⟨others, last⟩, loop, kept⟩ := Option.bind_eq_some_iff.mp rest
    obtain ⟨rfl, rfl⟩ := Prod.mk.inj (Option.some.inj kept)
    obtain ⟨values, drawnRest, length, sub⟩ := randomOwnOutsLoop_drawn cache entry blockIndex (drawnSoFar.next stepped) loop
    refine ⟨offset :: values, by simpa using drawnRest, by simp [length], ?_⟩
    -- the drawn position is kept exactly when its transaction is unlocked
    rw [List.map_cons]
    split_ifs
    · exact sub.cons_cons _
    · exact sub.cons _

/-- An in-memory segment's own draws are distinct global indexes among its first `dist` outputs. -/
theorem randomOwnOutsLoop_new (cache : BlockchainCache) (entry : OutputGlobalIndexesForAmount) (blockIndex : ℕ)
    {dist : ℕ} {engine : ℕ → ℕ} {offs : List ℕ} {generator' : Nox.Common.ShuffleGenerator}
    (drawn : randomOwnOutsLoop currency now cache entry blockIndex dist (.new dist engine) = some (offs, generator')) :
    offs.Nodup ∧ offs.length ≤ dist ∧ ∀ g ∈ offs, entry.startIndex ≤ g ∧ g < entry.startIndex + dist := by
  obtain ⟨values, drawnAll, length, sub⟩ :=
    randomOwnOutsLoop_drawn currency now cache entry blockIndex (Drawn.new dist engine) drawn
  rw [List.nil_append] at drawnAll
  obtain ⟨distinct, below⟩ := drawnAll.nodup_lt
  have shorter := sub.length_le
  rw [List.length_map, length] at shorter
  refine ⟨(distinct.map (add_right_injective _)).sublist sub, shorter, fun g member => ?_⟩
  obtain ⟨value, drawnValue, rfl⟩ := List.mem_map.mp (sub.subset member)
  have := below value drawnValue
  omega

/-- `getRandomOutsByAmount` on an in-memory segment holding outputs of the amount: its own draws,
distinct and among its first `min(count, eligible)` outputs, then, if it has a parent and drew fewer
than asked, its parent's answer for what is missing. -/
theorem getRandomOutsByAmount_memory {cache : BlockchainCache} {parents : List Segment} {amount : UInt64}
    {count blockIndex : ℕ} {engine engine' : ℕ → ℕ} {entry : OutputGlobalIndexesForAmount} {outs : List ℕ}
    (found : cache.keyOutputsGlobalIndexes amount = some entry)
    (drawn : getRandomOutsByAmount currency now (.memory cache :: parents) amount count blockIndex engine =
      some (outs, engine')) :
    ∃ own fromParents, outs = own ++ fromParents ∧ own.Nodup ∧
      own.length ≤ min count (eligibleEnd entry.outputs
        (UInt32.ofNat blockIndex - UInt32.ofNat currency.minedMoneyUnlockWindow).toNat) ∧
      (∀ g ∈ own, entry.startIndex ≤ g ∧ g < entry.startIndex + min count (eligibleEnd entry.outputs
        (UInt32.ofNat blockIndex - UInt32.ofNat currency.minedMoneyUnlockWindow).toNat)) ∧
      (fromParents = [] ∨ ∃ engine₀,
        getRandomOutsByAmount currency now parents amount (count - own.length) blockIndex engine₀ =
          some (fromParents, engine')) := by
  simp only [getRandomOutsByAmount, found] at drawn
  obtain ⟨⟨offs, generator⟩, loop, rest⟩ := Option.bind_eq_some_iff.mp drawn
  obtain ⟨distinct, shorter, within⟩ := randomOwnOutsLoop_new currency now cache entry blockIndex loop
  split_ifs at rest with asking
  · obtain ⟨⟨prevs, last⟩, parent, joined⟩ := Option.bind_eq_some_iff.mp rest
    obtain ⟨rfl, rfl⟩ := Prod.mk.inj (Option.some.inj joined)
    exact ⟨offs, prevs, rfl, distinct, shorter, within, .inr ⟨_, parent⟩⟩
  · obtain ⟨rfl, rfl⟩ := Prod.mk.inj (Option.some.inj rest)
    exact ⟨offs, [], (List.append_nil offs).symm, distinct, shorter, within, .inl rfl⟩

end Segment

namespace DatabaseBlockchainCache

variable (cache : DatabaseBlockchainCache) (currency : Currency) (now : UInt64) (amount : UInt64) (blockIndex : ℕ)

/-- A transaction record for each drawn global index. -/
theorem length_drawnTransactions {globalIndexes : List ℕ} {transactions : List ExtendedTransactionInfo}
    (found : cache.drawnTransactions amount globalIndexes = some transactions) :
    transactions.length = globalIndexes.length := by
  obtain ⟨outputs, located, read⟩ := Option.bind_eq_some_iff.mp found
  rw [List.length_eq_of_mapM_eq_some read, List.length_eq_of_mapM_eq_some located]

/-- The draws a batch keeps are some of its draws. -/
theorem keptDraws_sublist {globalIndexes : List ℕ} {transactions : List ExtendedTransactionInfo}
    (long : globalIndexes.length ≤ transactions.length) :
    (keptDraws currency now blockIndex globalIndexes transactions).Sublist globalIndexes := by
  unfold keptDraws
  refine (List.filter_sublist.map Prod.fst).trans ?_
  rw [List.map_fst_zip long]

/-- Each round of the loop keeps some of a batch of draws and asks for as many fewer: the answer is
some of the values handed out, and no longer than the results so far and the draws still asked
for. -/
theorem randomOutsLoop_drawn {n : ℕ} : ∀ {fuel outputsToPick : ℕ} {returned resultOuts outs : List ℕ}
    {generator generator' : Nox.Common.ShuffleGenerator}, Drawn n returned generator → resultOuts.Sublist returned →
    cache.randomOutsLoop currency now amount blockIndex fuel outputsToPick generator resultOuts =
      some (outs, generator') →
    (∃ handedOut, Drawn n handedOut generator' ∧ outs.Sublist handedOut) ∧
      outs.length ≤ resultOuts.length + outputsToPick
  | 0, outputsToPick, returned, resultOuts, outs, generator, generator', drawnSoFar, kept, looped => by
    obtain ⟨rfl, rfl⟩ := Prod.mk.inj (Option.some.inj looped)
    exact ⟨⟨returned, drawnSoFar, kept⟩, by omega⟩
  | fuel + 1, outputsToPick, returned, resultOuts, outs, generator, generator', drawnSoFar, kept, looped => by
    rw [randomOutsLoop] at looped
    split at looped
    · obtain ⟨rfl, rfl⟩ := Prod.mk.inj (Option.some.inj looped)
      exact ⟨⟨returned, drawnSoFar, kept⟩, by omega⟩
    split at looped
    · -- the generator ran out within the batch: the answer so far
      obtain ⟨rfl, rfl⟩ := Prod.mk.inj (Option.some.inj looped)
      exact ⟨⟨returned, drawnSoFar, kept⟩, by omega⟩
    · rename_i globalIndexes next batch
      obtain ⟨drawnBatch, batchLength⟩ := ShuffleGenerator.drawMany_drawn drawnSoFar batch
      obtain ⟨transactions, found, rest⟩ := Option.bind_eq_some_iff.mp looped
      have keptBatch := keptDraws_sublist currency now blockIndex
        (le_of_eq (length_drawnTransactions cache amount found).symm)
      obtain ⟨handedOut, length⟩ := randomOutsLoop_drawn drawnBatch (kept.append keptBatch) rest
      have fewer := keptBatch.length_le
      rw [List.length_append] at length
      exact ⟨handedOut, by omega⟩

/-- The database root answers with distinct global indexes of outputs of the amount, at most as
many as asked for. -/
theorem getRandomOutsByAmount_drawn {count : ℕ} {engine engine' : ℕ → ℕ} {outs : List ℕ}
    (drawn : cache.getRandomOutsByAmount currency now amount count blockIndex engine = some (outs, engine')) :
    outs.Nodup ∧ (∀ g ∈ outs, g < (cache.keyOutputs amount).length) ∧ outs.length ≤ count := by
  obtain ⟨⟨resultOuts, generator⟩, looped, answered⟩ := Option.bind_eq_some_iff.mp drawn
  obtain ⟨rfl, rfl⟩ := Prod.mk.inj (Option.some.inj answered)
  obtain ⟨⟨handedOut, drawnAll, sub⟩, length⟩ :=
    randomOutsLoop_drawn cache currency now amount blockIndex (Drawn.new _ engine) (List.nil_sublist []) looped
  obtain ⟨distinct, below⟩ := drawnAll.nodup_lt
  have asked := Nat.min_le_left count (cache.keyOutputs amount).length
  rw [List.length_nil, Nat.zero_add] at length
  exact ⟨distinct.sublist sub, fun g member => below g (sub.subset member), by omega⟩

end DatabaseBlockchainCache

namespace Segment

variable (currency : Currency) (now : UInt64)

/-- No path of segments answers with more global indexes than it was asked for. -/
theorem length_getRandomOutsByAmount_le : ∀ {segments : List Segment} {amount : UInt64} {count blockIndex : ℕ}
    {engine engine' : ℕ → ℕ} {outs : List ℕ},
    getRandomOutsByAmount currency now segments amount count blockIndex engine = some (outs, engine') →
    outs.length ≤ count
  | [], _, _, _, _, _, _, drawn => by
    obtain ⟨rfl, rfl⟩ := Prod.mk.inj (Option.some.inj drawn)
    exact Nat.zero_le _
  | .memory cache :: parents, amount, count, blockIndex, engine, engine', outs, drawn => by
    cases found : cache.keyOutputsGlobalIndexes amount with
    | none =>
      simp only [getRandomOutsByAmount, found] at drawn
      exact length_getRandomOutsByAmount_le drawn
    | some entry =>
      obtain ⟨own, fromParents, rfl, -, shorter, -, parent⟩ := getRandomOutsByAmount_memory currency now found drawn
      have own_le := shorter.trans (Nat.min_le_left _ _)
      rcases parent with rfl | ⟨_, parent⟩
      · simpa using own_le
      · have parent_le := length_getRandomOutsByAmount_le parent
        rw [List.length_append]
        omega
  | .database cache :: _, _, _, _, _, _, _, drawn =>
    (cache.getRandomOutsByAmount_drawn currency now _ _ drawn).2.2

end Segment

end Nox.CryptoNote
