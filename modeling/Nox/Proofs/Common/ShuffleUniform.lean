import Nox.Proofs.CryptoNoteCore.RandomOutputs
import Mathlib.Data.Set.Card
import Mathlib.Data.List.Permutation

/-! # Every order comes from exactly one sequence of draws

A call of the generator with `count` indexes left draws a position below `count`, hands out the
entry the array holds there and moves the last live entry into its place. The live entries are
distinct, so the value handed out names the position drawn, and what the array becomes depends on
that position alone. Hence two sequences of draws in range that hand out the same values are the
same sequence; and every order of the live entries is handed out by some sequence, the one that
draws, at each call, the position of the next value wanted.
-/

namespace Nox.Common

namespace ShuffleGenerator

open Nox.CryptoNote.ShuffleGenerator

/-- The engine that yields the given draws in turn, then zeros. -/
def drawStream (draws : List ℕ) : ℕ → ℕ := fun k => draws.getD k 0

/-- Draws in range for a generator with `count` indexes left: one per index, the `k`-th below
`count - k`, as `uniform_int_distribution(0, count - 1 - k)` gives them. -/
def InRange (count : ℕ) (draws : List ℕ) : Prop :=
  draws.length = count ∧ ∀ k < count, draws.getD k 0 < count - k

theorem drawStream_shift (draw : ℕ) (draws : List ℕ) :
    (fun k => drawStream (draw :: draws) (k + 1)) = drawStream draws := by
  funext k
  simp [drawStream]

theorem InRange.cons {count draw : ℕ} {draws : List ℕ} (inRange : InRange (count + 1) (draw :: draws)) :
    draw < count + 1 ∧ InRange count draws := by
  obtain ⟨length, below⟩ := inRange
  refine ⟨by simpa using below 0 (Nat.succ_pos _), by simpa using length, fun k inside => ?_⟩
  have next := below (k + 1) (by omega)
  rw [List.getD_cons_succ] at next
  omega

/-- The live part of a generator does not depend on its engine. -/
theorem live_mk (selected : ℕ → Option ℕ) (count : ℕ) (generator : ℕ → ℕ) :
    (ShuffleGenerator.mk selected count generator).live =
      (List.range count).map fun position => (selected position).getD position := rfl

/-- A call on a generator with indexes left: the entry at the drawn position, and the array with
the last live entry moved there. -/
theorem next_of_pos {shuffle : ShuffleGenerator} (positive : 0 < shuffle.count) :
    shuffle.next = some (shuffle.entry (shuffle.generator 0 % shuffle.count),
      ⟨Function.update shuffle.selected (shuffle.generator 0 % shuffle.count) (some (shuffle.entry (shuffle.count - 1))),
        shuffle.count - 1, fun k => shuffle.generator (k + 1)⟩) := by
  have recount : shuffle.count - 1 + 1 = shuffle.count := by omega
  rw [next, if_neg (by omega)]
  dsimp only
  rw [recount]
  split <;> rename_i found <;> simp [entry, found]

/-- A batch of calls, the first drawing `draw`: its value, then the batch from the generator that
call leaves. -/
theorem drawMany_draw {selected : ℕ → Option ℕ} {count draw : ℕ} (inside : draw < count + 1) (draws : List ℕ)
    (calls : ℕ) :
    drawMany ⟨selected, count + 1, drawStream (draw :: draws)⟩ (calls + 1) =
      (drawMany ⟨Function.update selected draw (some ((selected count).getD count)), count, drawStream draws⟩ calls).map
        fun drawn => ((selected draw).getD draw :: drawn.1, drawn.2) := by
  have first : drawStream (draw :: draws) 0 % (count + 1) = draw := by
    simp [drawStream, Nat.mod_eq_of_lt inside]
  rw [drawMany, next_of_pos (Nat.succ_pos count)]
  simp only [first, Nat.add_sub_cancel, drawStream_shift, entry, bind, Option.bind_some]
  cases drawMany ⟨Function.update selected draw (some ((selected count).getD count)), count, drawStream draws⟩ calls <;>
    rfl

/-- A generator hands out as many values as it has indexes left, whatever its engine draws. -/
theorem drawMany_isSome : ∀ (calls : ℕ) (shuffle : ShuffleGenerator), calls ≤ shuffle.count →
    ∃ values after, drawMany shuffle calls = some (values, after)
  | 0, shuffle, _ => ⟨[], shuffle, rfl⟩
  | calls + 1, shuffle, enough => by
    obtain ⟨values, after, rest⟩ := drawMany_isSome calls
      ⟨Function.update shuffle.selected (shuffle.generator 0 % shuffle.count) (some (shuffle.entry (shuffle.count - 1))),
        shuffle.count - 1, fun k => shuffle.generator (k + 1)⟩ (by dsimp only; omega)
    refine ⟨shuffle.entry (shuffle.generator 0 % shuffle.count) :: values, after, ?_⟩
    rw [drawMany, next_of_pos (by omega)]
    simp only [bind, Option.bind_some, rest]
    rfl

/-- The value a draw hands out and the live entries it leaves are the live entries before it. -/
theorem live_draw_perm {selected : ℕ → Option ℕ} {count draw : ℕ} (inside : draw < count + 1) :
    ((selected draw).getD draw :: (List.range count).map fun position =>
        (Function.update selected draw (some ((selected count).getD count)) position).getD position).Perm
      ((List.range (count + 1)).map fun position => (selected position).getD position) := by
  have first : drawStream [draw] 0 % (count + 1) = draw := by
    simp [drawStream, Nat.mod_eq_of_lt inside]
  have moved := ShuffleGenerator.next_perm (@next_of_pos ⟨selected, count + 1, drawStream [draw]⟩ (Nat.succ_pos count))
  simp only [first, Nat.add_sub_cancel, live, entry] at moved
  exact moved

/-- Draws in range that hand out the same values are the same draws. The induction is on the
indexes left; the live entries are distinct, so the first value names the first draw. -/
theorem drawMany_injective : ∀ (count : ℕ) (selected : ℕ → Option ℕ) (draws draws' : List ℕ),
    ((List.range count).map fun position => (selected position).getD position).Nodup →
    InRange count draws → InRange count draws' →
    (drawMany ⟨selected, count, drawStream draws⟩ count).map Prod.fst =
      (drawMany ⟨selected, count, drawStream draws'⟩ count).map Prod.fst →
    draws = draws'
  | 0, _, draws, draws', _, inRange, inRange', _ => by
    rw [List.length_eq_zero_iff.mp inRange.1, List.length_eq_zero_iff.mp inRange'.1]
  | count + 1, selected, draws, draws', distinct, inRange, inRange', same => by
    obtain ⟨draw, rest, rfl⟩ := List.exists_cons_of_length_eq_add_one inRange.1
    obtain ⟨draw', rest', rfl⟩ := List.exists_cons_of_length_eq_add_one inRange'.1
    obtain ⟨inside, restInRange⟩ := inRange.cons
    obtain ⟨inside', restInRange'⟩ := inRange'.cons
    rw [drawMany_draw inside, drawMany_draw inside'] at same
    -- the first values agree, and the live entries are distinct, so the first draws agree
    obtain ⟨values, after, restDrawn⟩ := drawMany_isSome count
      ⟨Function.update selected draw (some ((selected count).getD count)), count, drawStream rest⟩ le_rfl
    obtain ⟨values', after', restDrawn'⟩ := drawMany_isSome count
      ⟨Function.update selected draw' (some ((selected count).getD count)), count, drawStream rest'⟩ le_rfl
    rw [restDrawn, restDrawn'] at same
    simp only [Option.map_some, Option.some.injEq, List.cons.injEq] at same
    have sameDraw : draw = draw' :=
      List.inj_on_of_nodup_map distinct (List.mem_range.mpr inside) (List.mem_range.mpr inside') same.1
    subst sameDraw
    -- what the array becomes depends on the draw alone
    have nextDistinct := ((live_draw_perm inside).nodup_iff.mpr distinct).of_cons
    have tail := drawMany_injective count _ rest rest' nextDistinct restInRange restInRange'
      (by rw [restDrawn, restDrawn', Option.map_some, Option.map_some, same.2])
    rw [tail]

/-- Every order of the live entries is handed out by some draws in range: at each call, the
position of the next value wanted. -/
theorem drawMany_surjective : ∀ (count : ℕ) (selected : ℕ → Option ℕ) (order : List ℕ),
    order.Perm ((List.range count).map fun position => (selected position).getD position) →
    ∃ draws, InRange count draws ∧
      (drawMany ⟨selected, count, drawStream draws⟩ count).map Prod.fst = some order
  | 0, _, order, reordered => by
    rw [List.range_zero, List.map_nil, List.perm_nil] at reordered
    exact ⟨[], ⟨rfl, fun _ none => absurd none (Nat.not_lt_zero _)⟩, by rw [reordered]; rfl⟩
  | count + 1, selected, order, reordered => by
    obtain ⟨first, later, rfl⟩ : ∃ first later, order = first :: later := by
      cases order with
      | nil => simp at reordered
      | cons first later => exact ⟨first, later, rfl⟩
    -- the first value wanted sits at some live position
    obtain ⟨draw, inside, found⟩ := List.mem_map.mp (reordered.subset (List.mem_cons_self ..))
    rw [List.mem_range] at inside
    have moved := @live_draw_perm selected _ _ inside
    rw [found] at moved
    have laterReordered := (reordered.trans moved.symm).cons_inv
    obtain ⟨rest, restInRange, restDrawn⟩ := drawMany_surjective count _ later laterReordered
    refine ⟨draw :: rest, ⟨by simp [restInRange.1], fun k below => ?_⟩, ?_⟩
    · cases k with
      | zero => simpa using inside
      | succ k =>
        rw [List.getD_cons_succ]
        have := restInRange.2 k (by omega)
        omega
    · rw [drawMany_draw inside, Option.map_map]
      obtain ⟨values, after, drawn⟩ := drawMany_isSome count
        ⟨Function.update selected draw (some ((selected count).getD count)), count, drawStream rest⟩ le_rfl
      rw [drawn] at restDrawn ⊢
      simp only [Option.map_some, Option.some.injEq] at restDrawn ⊢
      rw [Function.comp_apply, restDrawn, found]

/-- The live entries of a new generator are the indexes in order. -/
theorem live_new (n : ℕ) :
    ((List.range n).map fun position => ((fun _ => none : ℕ → Option ℕ) position).getD position) = List.range n := by
  simp

/-- `ShuffleGenerator(n)` hands out `n` values, the indexes below `n` in some order, and throws
`SequenceEnded` at the next call, whatever its engine draws. -/
theorem drawMany_new (n : ℕ) (generator : ℕ → ℕ) :
    ∃ values after, drawMany (ShuffleGenerator.new n generator) n = some (values, after) ∧
      values.Perm (List.range n) ∧ after.next = none := by
  obtain ⟨values, after, drawn⟩ := drawMany_isSome n (ShuffleGenerator.new n generator) le_rfl
  obtain ⟨drawnAll, length⟩ := drawMany_drawn (Drawn.new n generator) drawn
  rw [List.nil_append] at drawnAll
  have exhausted : after.count = 0 := by
    have := drawnAll.length_add
    omega
  refine ⟨values, after, drawn, ?_, by rw [next, if_pos exhausted]⟩
  have noneLive : after.live = [] := by
    rw [live, exhausted, List.range_zero, List.map_nil]
  simpa [Drawn, noneLive] using drawnAll

/-- A sequence of draws for a generator of `n` indexes: the `k`-th below `n - k`. -/
abbrev DrawSequence (n : ℕ) : Type := (k : Fin n) → Fin (n - k)

/-- The draws in turn. -/
def DrawSequence.toList {n : ℕ} (draws : DrawSequence n) : List ℕ := List.ofFn fun k => (draws k : ℕ)

/-- The values the `n` calls of `ShuffleGenerator(n)` hand out over an engine drawing `draws`. -/
def shuffleOrder (n : ℕ) (draws : DrawSequence n) : Option (List ℕ) :=
  (drawMany (ShuffleGenerator.new n (drawStream draws.toList)) n).map Prod.fst

theorem DrawSequence.inRange_toList {n : ℕ} (draws : DrawSequence n) : InRange n draws.toList := by
  refine ⟨by simp [toList], fun k below => ?_⟩
  have inside : k < draws.toList.length := by simpa [toList] using below
  rw [List.getD_eq_getElem?_getD, List.getElem?_eq_getElem inside, Option.getD_some]
  simp [toList]

theorem DrawSequence.toList_injective (n : ℕ) : Function.Injective (@toList n) := by
  intro draws draws' same
  funext k
  exact Fin.ext (congrFun (List.ofFn_injective same) k)

/-- Every list of draws in range is a sequence of draws. -/
theorem DrawSequence.exists_toList {n : ℕ} {draws : List ℕ} (inRange : InRange n draws) :
    ∃ sequence : DrawSequence n, sequence.toList = draws := by
  refine ⟨fun k => ⟨draws.getD k 0, inRange.2 k k.isLt⟩, ?_⟩
  apply List.ext_getElem (by simp [toList, inRange.1])
  intro k _ below
  simp [toList, List.getD_eq_getElem?_getD, List.getElem?_eq_getElem below]

theorem shuffleOrder_injective (n : ℕ) : Function.Injective (shuffleOrder n) := by
  intro draws draws' same
  have distinct := live_new n ▸ List.nodup_range
  exact DrawSequence.toList_injective n
    (drawMany_injective n _ _ _ distinct draws.inRange_toList draws'.inRange_toList same)

/-- The orders the generator hands out are exactly the orders of the indexes below `n`. -/
theorem perm_range_iff_shuffleOrder (n : ℕ) (order : List ℕ) :
    order.Perm (List.range n) ↔ ∃ draws, shuffleOrder n draws = some order := by
  constructor
  · intro reordered
    obtain ⟨draws, inRange, drawn⟩ := drawMany_surjective n (fun _ => none) order ((live_new n).symm ▸ reordered)
    obtain ⟨sequence, rfl⟩ := DrawSequence.exists_toList inRange
    exact ⟨sequence, drawn⟩
  · rintro ⟨draws, drawn⟩
    obtain ⟨values, after, handedOut, reordered, -⟩ := drawMany_new n (drawStream draws.toList)
    rw [shuffleOrder, handedOut, Option.map_some, Option.some.injEq] at drawn
    exact drawn ▸ reordered

/-- A list without repeats has `length!` orders. -/
theorem ncard_perm {α : Type*} [DecidableEq α] {l : List α} (distinct : l.Nodup) :
    {other : List α | other.Perm l}.ncard = l.length.factorial := by
  have asFinset : {other : List α | other.Perm l} = (l.permutations.toFinset : Set (List α)) := by
    ext other
    simp [List.mem_permutations]
  rw [asFinset, Set.ncard_coe_finset, List.toFinset_card_of_nodup (List.nodup_permutations l distinct),
    List.length_permutations]

/-- The orders of `whole` that start with `pre` are `pre` followed by an order of what `pre` leaves. -/
theorem perm_prefix_iff {α : Type*} {pre rest whole order : List α} (split : (pre ++ rest).Perm whole) :
    order.Perm whole ∧ pre <+: order ↔ ∃ later, later.Perm rest ∧ pre ++ later = order := by
  constructor
  · rintro ⟨reordered, later, rfl⟩
    exact ⟨later, (List.perm_append_left_iff pre).mp (reordered.trans split.symm), rfl⟩
  · rintro ⟨later, reordered, rfl⟩
    exact ⟨(reordered.append_left pre).trans split, List.prefix_append pre later⟩

/-- Every `m` distinct indexes below `n`, in every order, start the output of `(n - m)!` sequences of
draws: as many for each. -/
theorem card_shuffleOrder_prefix (n : ℕ) {pre : List ℕ} (distinct : pre.Nodup) (below : ∀ value ∈ pre, value < n) :
    Nat.card {draws : DrawSequence n // ∃ order, shuffleOrder n draws = some order ∧ pre <+: order} =
      (n - pre.length).factorial := by
  -- the indexes `pre` leaves, and the orders of them
  set rest := (List.range n).diff pre
  have split : (pre ++ rest).Perm (List.range n) :=
    List.subperm_append_diff_self_of_count_le
      (List.subperm_ext_iff.mp (distinct.subperm fun value member => List.mem_range.mpr (below value member)))
  have restDistinct : rest.Nodup := (split.nodup_iff.mpr List.nodup_range).of_append_right
  have restLength : rest.length = n - pre.length := by
    have := split.length_eq
    simp only [List.length_append, List.length_range] at this
    omega
  -- the draws giving the prefix are in bijection with its orders, and these with the orders of `rest`
  have drawsImage : shuffleOrder n '' {draws | ∃ order, shuffleOrder n draws = some order ∧ pre <+: order} =
      Option.some '' ((pre ++ ·) '' {later : List ℕ | later.Perm rest}) := by
    ext found
    simp only [Set.mem_image, Set.mem_ofPred_eq]
    constructor
    · rintro ⟨draws, ⟨order, drawn, prefixed⟩, rfl⟩
      have reordered := (perm_range_iff_shuffleOrder n order).mpr ⟨draws, drawn⟩
      exact ⟨order, (perm_prefix_iff split).mp ⟨reordered, prefixed⟩, drawn.symm⟩
    · rintro ⟨order, started, rfl⟩
      obtain ⟨reordered, prefixed⟩ := (perm_prefix_iff split).mpr started
      obtain ⟨draws, drawn⟩ := (perm_range_iff_shuffleOrder n order).mp reordered
      exact ⟨draws, ⟨order, drawn, prefixed⟩, drawn⟩
  calc Nat.card {draws : DrawSequence n // ∃ order, shuffleOrder n draws = some order ∧ pre <+: order}
      = (shuffleOrder n '' {draws | ∃ order, shuffleOrder n draws = some order ∧ pre <+: order}).ncard :=
        ((Set.ncard_image_of_injective _ (shuffleOrder_injective n)).trans (Nat.card_coe_set_eq _).symm).symm
    _ = {later : List ℕ | later.Perm rest}.ncard := by
        rw [drawsImage, Set.ncard_image_of_injective _ (Option.some_injective _),
          Set.ncard_image_of_injective _ fun _ _ same => List.append_cancel_left same]
    _ = (n - pre.length).factorial := by rw [ncard_perm restDistinct, restLength]

end ShuffleGenerator

end Nox.Common
