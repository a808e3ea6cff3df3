import Nox.Model.CryptoNoteCore.QueryBlocks
import Nox.Library.Except

/-! # How many entries a block query returns

Both queries list at most the hashes from the start index to the full offset, and then, when all of
those were found, a run of blocks from the full offset whose length the fill step fixes: at most
`currentIndex - fullOffset` blocks in `queryBlocks`, so that its last block is below the top.
-/

namespace Nox.CryptoNote

namespace Segment

/-- A segment path gives at most the hashes it is asked for. -/
theorem length_getBlockHashes_le :
    ∀ (segments : List Segment) (startBlockIndex maxCount : ℕ),
      (getBlockHashes segments startBlockIndex maxCount).length ≤ maxCount
  | [], _, _ => by simp [getBlockHashes]
  | .memory cache :: parents, startBlockIndex, maxCount => by
    have fromParents := length_getBlockHashes_le parents startBlockIndex maxCount
    simp only [getBlockHashes]
    split_ifs
    · simp only [List.length_append, List.length_map, List.length_take]
      omega
    · simp only [List.length_map, List.length_take]
      omega
  | .database cache :: _, startBlockIndex, maxCount => by
    simp only [getBlockHashes, DatabaseBlockchainCache.getBlockHashes, List.length_map, List.length_take]
    omega

end Segment

namespace Core

variable (core : Core)

/-- The hashes before the full offset are at most those from the start index to it. -/
theorem length_pushBlockHashes_le (startIndex fullOffset maxItemsCount : ℕ) :
    (core.pushBlockHashes startIndex fullOffset maxItemsCount).length ≤ fullOffset - startIndex := by
  simp only [pushBlockHashes]
  split_ifs
  · simp
  · have asked := Segment.length_getBlockHashes_le core.mainLeafSegments startIndex
      (min (fullOffset - startIndex) maxItemsCount)
    omega

/-- The full offset is never before the start index. -/
theorem le_of_queryFullOffset {startIndex fullOffset : ℕ} {timestamp : UInt64}
    (found : core.queryFullOffset startIndex timestamp = some fullOffset) : startIndex ≤ fullOffset := by
  simp only [queryFullOffset, bind, pure, Option.bind_eq_some_iff, Option.some.injEq] at found
  obtain ⟨lowerBound, -, rfl⟩ := found
  split_ifs <;> omega

/-- The `uint32_t` difference of two block indexes in order is their difference. -/
theorem toNat_sub_ofNat {currentIndex fullOffset : ℕ} (ordered : fullOffset ≤ currentIndex)
    (fits : currentIndex < 2 ^ 32) :
    (UInt32.ofNat currentIndex - UInt32.ofNat fullOffset).toNat = currentIndex - fullOffset := by
  have size : UInt32.size = 2 ^ 32 := rfl
  have currentFits : (UInt32.ofNat currentIndex).toNat = currentIndex :=
    UInt32.toNat_ofNat_of_lt' (by omega)
  have offsetFits : (UInt32.ofNat fullOffset).toNat = fullOffset := UInt32.toNat_ofNat_of_lt' (by omega)
  rw [UInt32.toNat_sub_of_le _ _ (UInt32.le_iff_toNat_le.mpr (by omega)), currentFits, offsetFits]

/-- The full variant fills at most `currentIndex - fullOffset` blocks. -/
theorem length_fillQueryBlockFullInfo {fullOffset currentIndex maxItemsCount : ℕ} {full : List BlockFullInfo}
    (filled : core.fillQueryBlockFullInfo fullOffset currentIndex maxItemsCount = some full)
    (ordered : fullOffset ≤ currentIndex) (fits : currentIndex < 2 ^ 32) :
    full.length = min maxItemsCount (currentIndex - fullOffset) := by
  simp only [fillQueryBlockFullInfo] at filled
  rw [List.length_eq_of_mapM_eq_some filled, List.length_range', toNat_sub_ofNat ordered fits]

end Core

end Nox.CryptoNote
