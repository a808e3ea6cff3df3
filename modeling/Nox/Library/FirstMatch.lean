import Mathlib.Data.List.Basic
import Nox.Library.BoundedQuantifiers

/-! # Taking the first match out of a list

A loop that runs once for each element of a list with a property, and each time finds the first
such element and erases it, takes those elements out in their order and leaves the others in
theirs. These are the facts about one round of such a loop.
-/

namespace List

variable {α : Type} {p : α → Bool} {l : List α} {first : α}

/-- The matches of a list are its first match, then the matches of what erasing it leaves. -/
theorem filter_eq_cons_filter_eraseP (found : l.find? p = some first) :
    l.filter p = first :: (l.eraseP p).filter p := by
  obtain ⟨matched, before, after, rfl, unmatched⟩ := find?_eq_some_iff_append.mp found
  have noneBefore : before.filter p = [] :=
    filter_eq_nil_iff.mpr fun a mem => by simpa using unmatched a mem
  rw [eraseP_append_right _ (fun a mem => by simpa using unmatched a mem), eraseP_cons_of_pos matched,
    filter_append, filter_append, noneBefore, filter_cons_of_pos matched]
  rfl

/-- Erasing the first match leaves the elements without the property as they were. -/
theorem filter_not_eraseP (l : List α) : (l.eraseP p).filter (fun a => !p a) = l.filter (fun a => !p a) := by
  induction l with
  | nil => rfl
  | cons a l ih => by_cases matched : p a <;> simp [matched, ih]

/-- A list with a match has a first one. -/
theorem exists_find?_eq_some_of_countP_pos (positive : 0 < l.countP p) : ∃ first, l.find? p = some first :=
  Option.isSome_iff_exists.mp (find?_isSome.mpr (countP_pos_iff.mp positive))

/-- Erasing the first match leaves one match fewer. -/
theorem countP_eraseP_of_find? (found : l.find? p = some first) : l.countP p = (l.eraseP p).countP p + 1 := by
  rw [countP_eq_length_filter, countP_eq_length_filter, filter_eq_cons_filter_eraseP found, length_cons]

end List
