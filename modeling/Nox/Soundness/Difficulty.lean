import Nox.Model.CryptoNoteCore.Currency
import Nox.Proofs.CryptoNoteCore.Difficulty
import Nox.Soundness.SegmentTree

/-! # LWMA-2 divides by zero on an accepted chain

`Core::validateBlock` refuses a timestamp beyond the future limit and, once the chain has a full
window, one below the median of the last `timestampCheckWindow` timestamps; a timestamp equal to
every timestamp before it passes. A miner can therefore add `DIFFICULTY_WINDOW_V3 + 1` blocks with
one timestamp, the last of the chain, and the next difficulty is `nextDifficultyV5` of a window
without any solve time: `L` is zero and the division by `200 L` is reached, for every sequence of
cumulative difficulties. Below the bounds of `nextDifficultyV5_isSome` it is the only undefined
step, and where it is avoided the result can still be zero.
-/

namespace Nox.CryptoNote

/-- The timestamp checks of `Core::validateBlock` for the block at `height` of a main chain whose
blocks have `timestamps`, at the adjusted time of the node checking it: not beyond the future limit,
and not below the median of the last `timestampCheckWindow` timestamps once there are as many. -/
def TimestampAccepted (currency : Currency) (adjustedTime : UInt64) (timestamps : List UInt64) (height : ℕ) :
    Prop :=
  ∀ timestamp, timestamps[height]? = some timestamp →
    ¬ timestamp > adjustedTime + currency.blockFutureTimeLimitAt height ∧
    ¬ (((timestamps.take height).drop (height - currency.timestampCheckWindowAt height)).length ≥
          currency.timestampCheckWindowAt height ∧
        timestamp < medianValue ((timestamps.take height).drop (height - currency.timestampCheckWindowAt height)))

/-- Every block after the genesis block passed the checks at the time `arrival` of its height. -/
def ChainTimestampsAccepted (currency : Currency) (arrival : ℕ → UInt64) (timestamps : List UInt64) : Prop :=
  ∀ height, 1 ≤ height → TimestampAccepted currency (arrival height) timestamps height

/-- The median of values at most `bound` is at most `bound`, the sum of the two middle ones wrapping
included. -/
theorem medianValue_le {values : List UInt64} {bound : UInt64} (below : ∀ value ∈ values, value ≤ bound) :
    medianValue values ≤ bound := by
  have entry : ∀ j, ((values.insertionSort (· ≤ ·)).getD j 0).toNat ≤ bound.toNat := by
    intro j
    rw [List.getD_eq_getElem?_getD]
    cases found : (values.insertionSort (· ≤ ·))[j]? with
    | none => simp
    | some value =>
      exact UInt64.le_iff_toNat_le.mp
        (below value ((List.perm_insertionSort _ _).mem_iff.mp (List.mem_of_getElem? found)))
  unfold medianValue
  split
  · exact UInt64.le_iff_toNat_le.mpr (Nat.zero_le _)
  · exact below _ List.mem_cons_self
  · split_ifs
    · exact UInt64.le_iff_toNat_le.mpr (entry _)
    · have low := entry (values.length / 2 - 1)
      have high := entry (values.length / 2)
      have fits := bound.toNat_lt
      have two : (2 : UInt64).toNat = 2 := rfl
      rw [UInt64.le_iff_toNat_le, UInt64.toNat_div, UInt64.toNat_add, two]
      omega

/-- Blocks with a timestamp at least every earlier one, in time, extend an accepted chain. -/
theorem chainTimestampsAccepted_replicate {currency : Currency} {arrival : ℕ → UInt64} {history : List UInt64}
    {timestamp : UInt64} (accepted : ChainTimestampsAccepted currency arrival history)
    (latest : ∀ earlier ∈ history, earlier ≤ timestamp)
    (inTime : ∀ height, history.length ≤ height →
      ¬ timestamp > arrival height + currency.blockFutureTimeLimitAt height) (count : ℕ) :
    ChainTimestampsAccepted currency arrival (history ++ List.replicate count timestamp) := by
  intro height first added found
  by_cases old : height < history.length
  · have taken : (history ++ List.replicate count timestamp).take height = history.take height :=
      List.take_append_of_le_length old.le
    rw [List.getElem?_append_left old] at found
    rw [taken]
    exact accepted height first added found
  · rw [List.getElem?_append_right (by omega), List.getElem?_replicate] at found
    split_ifs at found
    obtain rfl := Option.some.inj found
    refine ⟨inTime height (by omega), ?_⟩
    rintro ⟨-, belowMedian⟩
    have bounded : ∀ value ∈ ((history ++ List.replicate count timestamp).take height).drop
        (height - currency.timestampCheckWindowAt height), value ≤ timestamp := by
      intro value member
      rcases List.mem_append.mp (List.mem_of_mem_take (List.mem_of_mem_drop member)) with early | same
      · exact latest value early
      · rw [List.eq_of_mem_replicate same]
        exact UInt64.le_refl _
    exact absurd (medianValue_le bounded) (UInt64.not_le.mpr belowMedian)

/-- A miner adds `DIFFICULTY_WINDOW_V3 + 1` blocks with the timestamp of the chain's last block to
an accepted chain: they are accepted, the window of the next difficulty has no solve time, and
`nextDifficultyV5` divides by zero whatever the cumulative difficulties. -/
theorem nextDifficultyV5_divides_by_zero_on_equal_timestamps (currency : Currency) (arrival : ℕ → UInt64)
    {history : List UInt64} {timestamp : UInt64} (accepted : ChainTimestampsAccepted currency arrival history)
    (latest : ∀ earlier ∈ history, earlier ≤ timestamp)
    (inTime : ∀ height, history.length ≤ height →
      ¬ timestamp > arrival height + currency.blockFutureTimeLimitAt height)
    {cumulativeDifficulties : List UInt64} (enough : DIFFICULTY_WINDOW_V3 + 1 ≤ cumulativeDifficulties.length) :
    ChainTimestampsAccepted currency arrival (history ++ List.replicate (DIFFICULTY_WINDOW_V3 + 1) timestamp) ∧
      solveTimeSums (List.replicate (DIFFICULTY_WINDOW_V3 + 1) timestamp) = some (0, 0) ∧
      nextDifficultyV5 (List.replicate (DIFFICULTY_WINDOW_V3 + 1) timestamp) cumulativeDifficulties = none :=
  ⟨chainTimestampsAccepted_replicate accepted latest inTime _, solveTimeSums_replicate timestamp,
    nextDifficultyV5_replicate timestamp enough⟩

open Scenario in
/-- From a genesis block at time 0, 61 blocks at time 1000 received at time 1000, with the
cumulative difficulties `1..61`. -/
theorem nextDifficultyV5_divides_by_zero_after_genesis :
    ChainTimestampsAccepted currency (fun _ => 1000) [0] ∧ (∀ earlier ∈ [(0 : UInt64)], earlier ≤ 1000) ∧
      (∀ height, [(0 : UInt64)].length ≤ height →
        ¬ (1000 : UInt64) > (fun _ => (1000 : UInt64)) height + currency.blockFutureTimeLimitAt height) ∧
      DIFFICULTY_WINDOW_V3 + 1 ≤ ((List.range 61).map fun i => UInt64.ofNat (i + 1)).length ∧
      ChainTimestampsAccepted currency (fun _ => 1000) ([0] ++ List.replicate (DIFFICULTY_WINDOW_V3 + 1) 1000) ∧
      solveTimeSums (List.replicate (DIFFICULTY_WINDOW_V3 + 1) 1000) = some (0, 0) ∧
      nextDifficultyV5 (List.replicate (DIFFICULTY_WINDOW_V3 + 1) 1000)
        ((List.range 61).map fun i => UInt64.ofNat (i + 1)) = none := by
  have genesisOnly : ChainTimestampsAccepted currency (fun _ => 1000) [0] := by
    intro height first timestamp found
    rw [List.getElem?_eq_none (by simp only [List.length_singleton]; omega)] at found
    cases found
  have inTime : ∀ height, [(0 : UInt64)].length ≤ height →
      ¬ (1000 : UInt64) > (fun _ => (1000 : UInt64)) height + currency.blockFutureTimeLimitAt height := by
    intro height _
    dsimp only
    unfold Currency.blockFutureTimeLimitAt
    split_ifs <;> decide
  exact ⟨genesisOnly, by decide, inTime, by decide,
    nextDifficultyV5_divides_by_zero_on_equal_timestamps currency (fun _ => 1000) genesisOnly (by decide) inTime
      (by decide)⟩

/-- Where `L` is positive the difficulty can still be zero: a window of blocks 180 s apart, each of
difficulty 1, leaves `next_D` at 0 and the 67% floor of a difficulty of 1 is 0 too. -/
theorem nextDifficultyV5_zero_on_slow_unit_blocks :
    nextDifficultyV5 ((List.range 61).map fun i => UInt64.ofNat (180 * i))
      ((List.range 61).map fun i => UInt64.ofNat (i + 1)) = some 0 := by
  decide

end Nox.CryptoNote
