import Mathlib.Data.List.Perm.Basic
import Mathlib.Data.List.Nodup
import Nox.Model.Common.ShuffleGenerator

/-! # The generator hands out each index once

The array the generator shuffles is `entry`, its live part `live`. A call returns the entry at the
drawn position and moves the last live entry there, so the value it returns and the new live part
are a permutation of the old live part. Starting from the identity on `0 .. n`, the values handed out
and the live part are therefore always the indexes below `n`, each once (`Drawn`): the values
handed out are distinct and below `n`.
-/

namespace List

variable {α : Type}

/-- Taking an element out of its place and putting `last` there is a permutation of appending
`last`. -/
theorem getElem_cons_set_perm : ∀ (l : List α) (position : ℕ) (inside : position < l.length) (last : α),
    (l[position] :: l.set position last).Perm (l ++ [last])
  | [], _, inside, _ => absurd inside (Nat.not_lt_zero _)
  | head :: tail, 0, _, last => by
    rw [getElem_cons_zero, set_cons_zero, cons_append]
    exact (perm_append_singleton last tail).symm.cons head
  | head :: tail, position + 1, inside, last => by
    have inTail : position < tail.length := Nat.lt_of_succ_lt_succ inside
    rw [getElem_cons_succ, set_cons_succ, cons_append]
    exact (Perm.swap head tail[position] _).trans ((getElem_cons_set_perm tail position inTail last).cons head)

/-- Reading a list at each of its positions gives the list back. -/
theorem filterMap_getElem?_range : ∀ l : List α, (range l.length).filterMap (fun position => l[position]?) = l
  | [] => rfl
  | head :: tail => by
    rw [length_cons, range_succ_eq_map, filterMap_cons, filterMap_map]
    simp only [getElem?_cons_zero, Function.comp_def, getElem?_cons_succ]
    rw [filterMap_getElem?_range tail]

/-- Reading a list at distinct positions within it draws a part of it, without repetition. -/
theorem subperm_filterMap_getElem? (l : List α) {positions : List ℕ} (distinct : positions.Nodup)
    (inside : ∀ position ∈ positions, position < l.length) :
    (positions.filterMap fun position => l[position]?).Subperm l := by
  have drawn : positions.Subperm (range l.length) :=
    subperm_of_subset distinct fun position member => mem_range.mpr (inside position member)
  obtain ⟨reordered, reorder, within⟩ := drawn
  have read := ((reorder.filterMap fun position => l[position]?).symm.subperm).trans
    (within.filterMap fun position => l[position]?).subperm
  rwa [filterMap_getElem?_range] at read

/-- A part of a list, mapped, is a part of the mapped list; the map need not be injective. -/
theorem Subperm.map_subperm_map {β : Type} (f : α → β) {l₁ l₂ : List α} (within : l₁.Subperm l₂) :
    (l₁.map f).Subperm (l₂.map f) := by
  obtain ⟨reordered, reorder, sub⟩ := within
  exact ⟨reordered.map f, reorder.map f, sub.map f⟩

/-- A part of a list without repetition has none. -/
theorem Subperm.nodup_of_nodup {l₁ l₂ : List α} (within : l₁.Subperm l₂) (distinct : l₂.Nodup) : l₁.Nodup := by
  obtain ⟨reordered, reorder, sub⟩ := within
  exact reorder.nodup_iff.mp (distinct.sublist sub)

end List

namespace Nox.Common

namespace ShuffleGenerator

/-- The array being shuffled: the identity except at the swaps. -/
def entry (shuffle : ShuffleGenerator) (position : ℕ) : ℕ := (shuffle.selected position).getD position

/-- The entries not yet handed out. -/
def live (shuffle : ShuffleGenerator) : List ℕ := (List.range shuffle.count).map shuffle.entry

/-- After handing out `returned` from a generator of `n` indexes, those and the live entries are the
indexes below `n`, each once. -/
def Drawn (n : ℕ) (returned : List ℕ) (shuffle : ShuffleGenerator) : Prop :=
  (returned ++ shuffle.live).Perm (List.range n)

theorem next_isSome_iff (shuffle : ShuffleGenerator) : shuffle.next.isSome ↔ shuffle.empty = false := by
  rw [next, empty, beq_eq_false_iff_ne]
  split_ifs with exhausted
  · simp [exhausted]
  · dsimp only
    split <;> simp [exhausted]

/-- A call returns the entry at the drawn position, moves the last live entry there and retires
one position. -/
theorem next_eq {shuffle shuffle' : ShuffleGenerator} {value : ℕ} (drawn : shuffle.next = some (value, shuffle')) :
    ∃ count, shuffle.count = count + 1 ∧ shuffle'.count = count ∧
      ∃ position ≤ count, value = shuffle.entry position ∧
        shuffle'.entry = Function.update shuffle.entry position (shuffle.entry count) := by
  rw [next] at drawn
  split_ifs at drawn with exhausted
  refine ⟨shuffle.count - 1, by omega, ?_⟩
  generalize shuffle.count - 1 = count at drawn ⊢
  have position_le : shuffle.generator 0 % (count + 1) ≤ count := Nat.le_of_lt_succ (Nat.mod_lt _ count.succ_pos)
  have swapped (selected : ℕ → Option ℕ) (chosen : selected = Function.update shuffle.selected
      (shuffle.generator 0 % (count + 1)) (some (shuffle.entry count))) :
      (fun position => (selected position).getD position) =
        Function.update shuffle.entry (shuffle.generator 0 % (count + 1)) (shuffle.entry count) := by
    funext position
    rw [chosen]
    by_cases same : position = shuffle.generator 0 % (count + 1)
    · subst same
      simp
    · simp [Function.update_of_ne same, entry]
  dsimp only at drawn
  split at drawn <;>
  · rename_i found
    cases drawn
    refine ⟨rfl, _, position_le, by simp [entry, found], swapped _ rfl⟩

/-- The value returned and the new live part are a permutation of the old live part. -/
theorem next_perm {shuffle shuffle' : ShuffleGenerator} {value : ℕ} (drawn : shuffle.next = some (value, shuffle')) :
    (value :: shuffle'.live).Perm shuffle.live := by
  obtain ⟨count, before, after, position, position_le, rfl, moved⟩ := next_eq drawn
  rw [live, live, before, after, moved, List.range_succ, List.map_append, List.map_singleton]
  rcases Nat.lt_or_eq_of_le position_le with inside | rfl
  · -- the live part with the last entry written over the drawn position
    have written : (List.range count).map (Function.update shuffle.entry position (shuffle.entry count)) =
        ((List.range count).map shuffle.entry).set position (shuffle.entry count) := by
      apply List.ext_getElem (by simp)
      intro index _ _
      by_cases same : index = position
      · subst same
        simp
      · simp [Function.update_of_ne same, Ne.symm same]
    have length : position < ((List.range count).map shuffle.entry).length := by simpa using inside
    rw [written]
    have taken := List.getElem_cons_set_perm _ position length (shuffle.entry count)
    rwa [List.getElem_map, List.getElem_range] at taken
  · -- the last position itself was drawn
    have unchanged : (List.range position).map (Function.update shuffle.entry position (shuffle.entry position)) =
        (List.range position).map shuffle.entry := by simp
    rw [unchanged]
    exact (List.perm_append_singleton _ _).symm

theorem Drawn.new (n : ℕ) (generator : ℕ → ℕ) : Drawn n [] (ShuffleGenerator.new n generator) := by
  have identity : (ShuffleGenerator.new n generator).entry = id := by
    funext position
    rfl
  rw [Drawn, List.nil_append, live, identity, List.map_id]
  rfl

theorem Drawn.next {n : ℕ} {returned : List ℕ} {shuffle shuffle' : ShuffleGenerator} {value : ℕ}
    (drawnSoFar : Drawn n returned shuffle) (drawn : shuffle.next = some (value, shuffle')) :
    Drawn n (returned ++ [value]) shuffle' := by
  rw [Drawn, List.append_assoc, List.singleton_append]
  exact ((next_perm drawn).append_left returned).trans drawnSoFar

/-- The values handed out are distinct and below `n`. -/
theorem Drawn.nodup_lt {n : ℕ} {returned : List ℕ} {shuffle : ShuffleGenerator} (drawnSoFar : Drawn n returned shuffle) :
    returned.Nodup ∧ ∀ value ∈ returned, value < n := by
  have all := drawnSoFar.nodup_iff.mpr (List.nodup_range)
  refine ⟨(List.nodup_append.mp all).1, fun value member => ?_⟩
  exact List.mem_range.mp (drawnSoFar.mem_iff.mp (List.mem_append_left _ member))

/-- No more values are handed out than the generator had. -/
theorem Drawn.length_add {n : ℕ} {returned : List ℕ} {shuffle : ShuffleGenerator} (drawnSoFar : Drawn n returned shuffle) :
    returned.length + shuffle.count = n := by
  simpa [live] using drawnSoFar.length_eq

end ShuffleGenerator

end Nox.Common
