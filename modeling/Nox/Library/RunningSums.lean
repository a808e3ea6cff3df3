import Mathlib.Data.List.Chain
import Nox.Library.BoundedQuantifiers

/-! # Running sums in a word

A counter of width `m` that adds offsets one by one holds the true running sums modulo `m`. When
every offset is positive and below `m`, the values it holds increase strictly exactly as long as
the true sum stays below `m`: the first addition that reaches `m` wraps to a value below the one
before it.
-/

namespace List

/-- Reducing the start modulo `m` changes no running sum modulo `m`. -/
theorem map_mod_scanl_mod (m b : ℕ) (offsets : List ℕ) :
    (offsets.scanl (· + ·) (b % m)).map (· % m) = (offsets.scanl (· + ·) b).map (· % m) := by
  induction offsets generalizing b with
  | nil => simp
  | cons offset offsets ih =>
    simp only [scanl_cons, map_cons, Nat.mod_mod]
    rw [← ih (b % m + offset), Nat.mod_add_mod, ih]

/-- Each step of the running sums of positive offsets below `m`, reduced modulo `m`, goes up
exactly when the true sum stays below `m`. -/
theorem isChain_lt_map_mod_scanl_iff {m : ℕ} :
    ∀ {b : ℕ} {offsets : List ℕ}, b < m → (∀ offset ∈ offsets, 0 < offset ∧ offset < m) →
      (IsChain (· < ·) ((offsets.scanl (· + ·) b).map (· % m)) ↔ b + offsets.sum < m) := by
  intro b offsets
  induction offsets generalizing b with
  | nil =>
    intro below _
    simp [below]
  | cons offset offsets ih =>
    intro below bounds
    obtain ⟨positive, small⟩ := bounds offset (mem_cons_self ..)
    have rest : ∀ offset ∈ offsets, 0 < offset ∧ offset < m := fun other member =>
      bounds other (mem_cons_of_mem _ member)
    simp only [scanl_cons, map_cons, isChain_cons, head?_map, head?_scanl, Option.map_some,
      Option.mem_def, Option.some.injEq, forall_eq', sum_cons, Nat.mod_eq_of_lt below]
    by_cases fits : b + offset < m
    · rw [ih fits rest, Nat.mod_eq_of_lt fits]
      omega
    · -- the first sum to reach `m` wraps below `b`
      have wrapped : (b + offset) % m < b := by
        rw [Nat.mod_eq_sub_mod (by omega), Nat.mod_eq_of_lt (by omega)]
        omega
      constructor
      · rintro ⟨up, -⟩
        omega
      · intro total
        omega

/-- The running sums of positive offsets below `m`, reduced modulo `m`, increase strictly exactly
when the true sum stays below `m`. -/
theorem pairwise_lt_map_mod_scanl_iff {m b : ℕ} {offsets : List ℕ} (below : b < m)
    (bounds : ∀ offset ∈ offsets, 0 < offset ∧ offset < m) :
    ((offsets.scanl (· + ·) b).map (· % m)).Pairwise (· < ·) ↔ b + offsets.sum < m := by
  rw [← isChain_iff_pairwise]
  exact isChain_lt_map_mod_scanl_iff below bounds

end List
