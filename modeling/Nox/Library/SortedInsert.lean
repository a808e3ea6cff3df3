import Mathlib.Data.List.Sort
import Nox.Library.BoundedQuantifiers

/-! # Sorting by a key and inserting in order

A list sorted by a key, with distinct keys, has strictly increasing keys. An element put at the
first position whose key is not below its own, `std::find_if` followed by `insert`, keeps the keys
strictly increasing when its key is new, and sits at that position.
-/

namespace List

variable {α β : Type} [LinearOrder β] (key : α → β)

/-- `mergeSort` by a key over distinct keys gives strictly increasing keys. -/
theorem pairwise_lt_mergeSort {l : List α} (distinct : (l.map key).Nodup) :
    ((l.mergeSort fun a b => decide (key a ≤ key b)).map key).Pairwise (· < ·) := by
  have sorted := @pairwise_mergeSort _ (fun a b => decide (key a ≤ key b))
    (fun _ _ _ first second => by simp only [decide_eq_true_eq] at *; exact first.trans second)
    (fun a b => by simpa using le_total (key a) (key b)) l
  have keysSorted : ((l.mergeSort fun a b => decide (key a ≤ key b)).map key).Pairwise (· ≤ ·) :=
    pairwise_map.mpr (sorted.imp fun ordered => of_decide_eq_true ordered)
  have keysDistinct := ((mergeSort_perm l fun a b => decide (key a ≤ key b)).map key).nodup_iff.mpr distinct
  exact (keysSorted.and keysDistinct).imp fun ⟨le, ne⟩ => lt_of_le_of_ne le ne

variable {key}

theorem insertIdx_findIdx_cons (q : α → Bool) (a b : α) (l : List α) :
    (b :: l).insertIdx ((b :: l).findIdx q) a = if q b then a :: b :: l else b :: l.insertIdx (l.findIdx q) a := by
  rw [findIdx_cons]
  cases q b <;> rfl

theorem getElem?_insertIdx_findIdx (q : α → Bool) (a : α) (l : List α) :
    (l.insertIdx (l.findIdx q) a)[l.findIdx q]? = some a := by
  rw [getElem?_insertIdx_self, if_pos findIdx_le_length]

theorem length_insertIdx_findIdx (q : α → Bool) (a : α) (l : List α) :
    (l.insertIdx (l.findIdx q) a).length = l.length + 1 := by
  rw [length_insertIdx, if_pos findIdx_le_length]

/-- Inserting an element with a new key before the first element whose key is not below it keeps
the keys strictly increasing. -/
theorem pairwise_insertIdx_findIdx (a : α) :
    ∀ {l : List α}, (l.map key).Pairwise (· < ·) → key a ∉ l.map key →
      ((l.insertIdx (l.findIdx fun b => decide (key a ≤ key b)) a).map key).Pairwise (· < ·)
  | [], _, _ => pairwise_singleton _ _
  | b :: l, increasing, fresh => by
    rw [map_cons, pairwise_cons] at increasing
    rw [map_cons, mem_cons, not_or] at fresh
    rw [insertIdx_findIdx_cons]
    split_ifs with before
    · -- the new element goes first, below `b` and so below every later key
      have below : key a < key b := lt_of_le_of_ne (of_decide_eq_true before) fresh.1
      rw [map_cons, map_cons, pairwise_cons, pairwise_cons]
      refine ⟨fun k member => ?_, increasing⟩
      rcases mem_cons.mp member with rfl | later
      · exact below
      · exact below.trans (increasing.1 k later)
    · have above : key b < key a := lt_of_not_ge (fun le => before (decide_eq_true le))
      rw [map_cons, pairwise_cons]
      refine ⟨fun k member => ?_, pairwise_insertIdx_findIdx a increasing.2 fresh.2⟩
      obtain ⟨c, inserted, rfl⟩ := mem_map.mp member
      rcases (mem_insertIdx findIdx_le_length).mp inserted with rfl | old
      · exact above
      · exact increasing.1 _ (mem_map_of_mem old)

end List
