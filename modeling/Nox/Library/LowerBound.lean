import Mathlib.Data.List.Basic
import Nox.Library.BoundedQuantifiers

/-! # The lower-bound search of the C++ library

`std::lower_bound(first, last, value, comp)` as libstdc++ runs it: it halves the length of the
range still searched, stepping past the middle element when `comp(middle, value)` holds. On a range
partitioned by `comp` it returns the end of the part below the value; on any other range it returns
some position of the range. What holds on every range is bounded: the result is at most the length,
and below it when the last element is not below the value.
-/

namespace List

variable {α : Type} (below : α → Bool) (l : List α)

/-- The loop of `__lower_bound` with `fuel` rounds left, searching `len` elements from position
`first`. -/
def lowerBoundLoop : ℕ → ℕ → ℕ → ℕ
  | 0, first, _ => first
  | fuel + 1, first, len =>
    if len = 0 then first
    else
      let half := len / 2
      if (l[first + half]?.map below).getD false then lowerBoundLoop fuel (first + half + 1) (len - half - 1)
      else lowerBoundLoop fuel first half

/-- `std::lower_bound(l.begin(), l.end(), value, comp)`, where `below x` is `comp(x, value)`. Each
round shortens the range, so its length is enough rounds. -/
def lowerBound : ℕ := lowerBoundLoop below l l.length 0 l.length

variable {below l}

theorem lowerBoundLoop_le (fuel : ℕ) :
    ∀ first len, first + len ≤ l.length → lowerBoundLoop below l fuel first len ≤ l.length := by
  induction fuel with
  | zero => intro first len within; simp only [lowerBoundLoop]; omega
  | succ fuel ih =>
    intro first len within
    simp only [lowerBoundLoop]
    split_ifs
    · omega
    · exact ih _ _ (by omega)
    · exact ih _ _ (by omega)

/-- The result lies inside the range while the range still reaches past its last element only when
that element is not below the value. -/
theorem lowerBoundLoop_lt (last : ∀ x ∈ l.getLast?, below x = false) (fuel : ℕ) :
    ∀ first len, first + len ≤ l.length → len ≤ fuel → (len = 0 → first < l.length) →
      lowerBoundLoop below l fuel first len < l.length := by
  induction fuel with
  | zero => intro first len _ enough searching; exact searching (by omega)
  | succ fuel ih =>
    intro first len within enough searching
    simp only [lowerBoundLoop]
    split_ifs with empty stepped
    · exact searching empty
    · -- past the middle: when nothing is left, the middle was the last element, which is not below
      refine ih _ _ (by omega) (by omega) fun done => ?_
      by_contra atEnd
      have middle : first + len / 2 = l.length - 1 := by omega
      rw [middle, ← List.getLast?_eq_getElem?] at stepped
      cases lastElement : l.getLast? with
      | none => simp [lastElement] at stepped
      | some x => simp [lastElement, last x lastElement] at stepped
    · exact ih _ _ (by omega) (by omega) fun _ => by omega

theorem lowerBound_le_length : lowerBound below l ≤ l.length :=
  lowerBoundLoop_le _ _ _ (by omega)

/-- On a nonempty range whose last element is not below the value, the search stops inside it. -/
theorem lowerBound_lt_length (nonempty : l ≠ []) (last : ∀ x ∈ l.getLast?, below x = false) :
    lowerBound below l < l.length :=
  lowerBoundLoop_lt last _ _ _ (by omega) (Nat.le_refl _) fun empty => absurd (List.length_eq_zero_iff.mp empty) nonempty

end List
