import Nox.Model.CryptoNoteCore.Core
import Nox.Library.RunningSums

/-! # The global indexes of a ring

A key input names its ring by relative offsets: the first is a global index, each later one the
distance to the previous member. `validateSemantic` refuses an empty ring and a later offset of
zero. `validateTransaction` adds the offsets up in a `uint32_t`, so the global indexes are the true
running sums modulo `2 ^ 32`: they increase strictly exactly when the true sum of the offsets stays
below `2 ^ 32`.
-/

namespace Nox.CryptoNote

/-- A running sum in a `uint32_t` is the true running sum modulo `2 ^ 32`. -/
theorem map_toNat_scanl_add (start : UInt32) (offsets : List UInt32) :
    (offsets.scanl (· + ·) start).map UInt32.toNat =
      ((offsets.map UInt32.toNat).scanl (· + ·) start.toNat).map (· % 2 ^ 32) := by
  induction offsets generalizing start with
  | nil => simp [Nat.mod_eq_of_lt start.toNat_lt]
  | cons offset offsets ih =>
    simp only [List.scanl_cons, List.map_cons, Nat.mod_eq_of_lt start.toNat_lt, ih, UInt32.toNat_add,
      List.map_mod_scanl_mod]

theorem absoluteGlobalIndexes_cons (first : UInt32) (offsets : List UInt32) :
    absoluteGlobalIndexes (first :: offsets) =
      ((offsets.map UInt32.toNat).scanl (· + ·) first.toNat).map (· % 2 ^ 32) := by
  rw [absoluteGlobalIndexes, List.scanl_cons, List.drop_one, List.tail_cons, map_toNat_scanl_add]
  simp

/-- The global indexes of a ring whose later offsets are positive increase strictly exactly when the
true sum of its offsets stays below `2 ^ 32`. -/
theorem absoluteGlobalIndexes_pairwise_lt_iff (first : UInt32) {offsets : List UInt32} (positive : 0 ∉ offsets) :
    (absoluteGlobalIndexes (first :: offsets)).Pairwise (· < ·) ↔
      ((first :: offsets).map UInt32.toNat).sum < 2 ^ 32 := by
  have bounds : ∀ offset ∈ offsets.map UInt32.toNat, 0 < offset ∧ offset < 2 ^ 32 := by
    simp only [List.mem_map]
    rintro _ ⟨offset, member, rfl⟩
    have nonzero : offset ≠ 0 := fun zero => positive (zero ▸ member)
    exact ⟨Nat.pos_of_ne_zero (fun zero => nonzero (UInt32.toNat_inj.mp zero)), offset.toNat_lt⟩
  rw [absoluteGlobalIndexes_cons, List.pairwise_lt_map_mod_scanl_iff first.toNat_lt bounds, List.map_cons,
    List.sum_cons]

/-- The inputs loop of `validateSemantic` accepts only nonempty rings whose later offsets are
positive. -/
theorem validateInputs_rings {primitives : Primitives} {blockIndex : ℕ} :
    ∀ {inputs : List TransactionInput} {keyImages : List Crypto.KeyImage} {summary total : UInt64},
      validateInputs primitives blockIndex inputs keyImages summary = .ok total →
      ∀ input, .key input ∈ inputs → ∃ first offsets, input.outputIndexes = first :: offsets ∧ 0 ∉ offsets := by
  intro inputs
  induction inputs with
  | nil =>
    intro _ _ _ _ _ member
    cases member
  | cons head inputs ih =>
    intro keyImages summary total valid input member
    cases head with
    | base _ => cases valid
    | key head =>
      simp only [validateInputs] at valid
      split_ifs at valid with repeated empty domain identical overflow
      rcases List.mem_cons.mp member with same | later
      · cases same
        cases ring : input.outputIndexes with
        | nil => simp [ring] at empty
        | cons first offsets =>
          refine ⟨first, offsets, rfl, fun zero => identical ?_⟩
          simpa [ring] using zero
      · exact ih valid input later

/-- Every ring of a transaction `validateSemantic` accepts is nonempty, with positive later
offsets. -/
theorem validateSemantic_rings {primitives : Primitives} {transaction : Transaction} {blockIndex : ℕ}
    {fee : UInt64} (valid : validateSemantic primitives transaction blockIndex = .ok fee) :
    ∀ input, .key input ∈ transaction.inputs → ∃ first offsets, input.outputIndexes = first :: offsets ∧ 0 ∉ offsets := by
  unfold validateSemantic at valid
  repeat' (first | split at valid | simp only [bind, Except.bind, pure, Except.pure, throw, throwThe,
    MonadExceptOf.throw, reduceCtorEq] at valid)
  exact validateInputs_rings ‹validateInputs _ _ _ _ _ = .ok _›

end Nox.CryptoNote
