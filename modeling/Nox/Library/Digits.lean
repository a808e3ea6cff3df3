import Mathlib.Data.List.Induction
import Mathlib.Data.Nat.Digits.Defs
import Mathlib.Algebra.BigOperators.Ring.List
import Nox.Library.BoundedQuantifiers

/-! # Fixed-width digit strings and sparse expansions

A codec that writes a number in a fixed count of places of some base, the most significant first,
and reads the places back as a number. `fixedDigits base width v` is what it writes, and
`Nat.ofDigits base l.reverse` is what it reads: writing gives `v % base ^ width`, and reading a
string of digits below the base and writing it back at its own width gives the same string.

A sparse expansion lists only the nonzero digits, each with its place, the places increasing. The
lowest place is not below any power of the base that divides the value, and `k` places from place
`b` on are worth at least `base ^ (b + k - 1)`.
-/

namespace Nat

/-- The `width` lowest places of `v` in `base`, the most significant first. -/
def fixedDigits (base : ℕ) (width v : ℕ) : List ℕ :=
  (List.range width).reverse.map fun place => v / base ^ place % base

variable {base : ℕ}

@[simp] theorem fixedDigits_zero (v : ℕ) : fixedDigits base 0 v = [] := rfl

@[simp] theorem fixedDigits_length (width v : ℕ) : (fixedDigits base width v).length = width := by
  simp [fixedDigits]

/-- A new most significant place. -/
theorem fixedDigits_succ_cons (width v : ℕ) :
    fixedDigits base (width + 1) v = v / base ^ width % base :: fixedDigits base width v := by
  simp [fixedDigits, List.range_succ]

/-- A new least significant place; the others are the places of the quotient. -/
theorem fixedDigits_succ (width v : ℕ) :
    fixedDigits base (width + 1) v = fixedDigits base width (v / base) ++ [v % base] := by
  simp only [fixedDigits, List.range_succ_eq_map, List.reverse_cons, List.map_append, List.map_reverse,
    List.map_map, List.map_cons, List.map_nil, pow_zero, Nat.div_one]
  congr 3
  funext place
  simp [Function.comp, Nat.div_div_eq_div_mul, pow_succ']

/-- The `k` most significant of `width + k` places are the places of the quotient by the others. -/
theorem take_fixedDigits (width k v : ℕ) :
    (fixedDigits base (width + k) v).take k = fixedDigits base k (v / base ^ width) := by
  induction k with
  | zero => simp
  | succ k ih =>
    rw [← Nat.add_assoc, fixedDigits_succ_cons, List.take_succ_cons, ih, fixedDigits_succ_cons,
      Nat.div_div_eq_div_mul, ← Nat.pow_add]

theorem fixedDigits_lt (positive : 0 < base) (width v : ℕ) : ∀ digit ∈ fixedDigits base width v, digit < base := by
  intro digit member
  obtain ⟨place, -, rfl⟩ := List.mem_map.mp member
  exact Nat.mod_lt _ positive

@[simp] theorem fixedDigits_of_zero (width : ℕ) : fixedDigits base width 0 = List.replicate width 0 := by
  simp [fixedDigits, List.map_const']

/-- Reading the places back gives the number modulo the width. -/
theorem ofDigits_fixedDigits (width v : ℕ) :
    ofDigits base (fixedDigits base width v).reverse = v % base ^ width := by
  induction width with
  | zero => simp [Nat.mod_one]
  | succ width ih =>
    rw [fixedDigits_succ_cons, List.reverse_cons, ofDigits_append, ih, List.length_reverse, fixedDigits_length,
      ofDigits_singleton, Nat.mod_pow_succ]

/-- A string of digits is the writing of its own value at its own width. -/
theorem fixedDigits_ofDigits {digits : List ℕ} (small : ∀ digit ∈ digits, digit < base) :
    fixedDigits base digits.length (ofDigits base digits.reverse) = digits := by
  induction digits using List.reverseRecOn with
  | nil => rfl
  | append_singleton digits last ih =>
    have lastSmall : last < base := small last (by simp)
    have value : ofDigits base (digits ++ [last]).reverse = last + base * ofDigits base digits.reverse := by
      rw [List.reverse_append, List.reverse_singleton, List.singleton_append, ofDigits_cons]
    have positive : 0 < base := by omega
    rw [List.length_append, List.length_singleton, fixedDigits_succ, value,
      Nat.add_mul_div_left _ _ positive, Nat.div_eq_of_lt lastSmall, Nat.zero_add, Nat.add_mul_mod_self_left,
      Nat.mod_eq_of_lt lastSmall, ih fun digit member => small digit (by simp [member])]

/-- A string of digits reads below the base to its length. -/
theorem ofDigits_reverse_lt (large : 1 < base) {digits : List ℕ} (small : ∀ digit ∈ digits, digit < base) :
    ofDigits base digits.reverse < base ^ digits.length := by
  rw [← List.length_reverse]
  exact ofDigits_lt_base_pow_length large fun digit member => small digit (List.mem_reverse.mp member)

/-! ## Chained places

A number of three places in a base can be written as three indexes, each place added to the index
before it modulo the base. Subtracting the index before it modulo the base gives each place back,
and the three places give the number back when it is below the cube of the base.
-/

theorem sub_add_mod_add_mod {r : ℕ} (x : ℕ) (small : r < base) :
    (base - r + (x + r) % base) % base = x % base := by
  rw [Nat.add_mod, Nat.mod_mod, ← Nat.add_mod, show base - r + (x + r) = x + base by omega, Nat.add_mod_right]

theorem chained_places (v : ℕ) (positive : 0 < base) (small : v < base ^ 3) :
    v % base + base * ((base - v % base + (v / base + v % base) % base) % base) +
      base * base * ((base - (v / base + v % base) % base +
        (v / base / base + (v / base + v % base) % base) % base) % base) = v := by
  have top : v / base / base < base := by
    rw [Nat.div_div_eq_div_mul, Nat.div_lt_iff_lt_mul (Nat.mul_pos positive positive)]
    rwa [Nat.pow_succ, Nat.pow_two, Nat.mul_assoc] at small
  -- The two upper places come back by subtraction, and the top one needs no reduction.
  rw [sub_add_mod_add_mod _ (Nat.mod_lt _ positive), sub_add_mod_add_mod _ (Nat.mod_lt _ positive),
    Nat.mod_eq_of_lt top]
  calc v % base + base * (v / base % base) + base * base * (v / base / base)
      = v % base + base * (v / base % base + base * (v / base / base)) := by
        rw [Nat.mul_add, Nat.mul_assoc, Nat.add_assoc]
    _ = v % base + base * (v / base) := by rw [Nat.mod_add_div]
    _ = v := Nat.mod_add_div v base

/-! ## Sparse expansions -/

section Sparse

variable {places : List (ℕ × ℕ)}

/-- Places from `k` on make a multiple of `base ^ k`. -/
theorem pow_dvd_placesSum {k : ℕ} (above : ∀ place ∈ places, k ≤ place.2) :
    base ^ k ∣ (places.map fun place => place.1 * base ^ place.2).sum :=
  List.dvd_sum fun _ member => by
    obtain ⟨place, within, rfl⟩ := List.mem_map.mp member
    exact Dvd.dvd.mul_left (Nat.pow_dvd_pow base (above place within)) _

/-- A power of the base that divides a sparse expansion is not above its lowest place: the lowest
digit would have to be a multiple of the base. -/
theorem le_place_of_pow_dvd {b : ℕ} (digits : ∀ place ∈ places, 0 < place.1 ∧ place.1 < base)
    (increasing : (places.map Prod.snd).Pairwise (· < ·))
    (divides : base ^ b ∣ (places.map fun place => place.1 * base ^ place.2).sum) :
    ∀ place ∈ places, b ≤ place.2 := by
  cases places with
  | nil => simp
  | cons lowest higher =>
    rw [List.map_cons, List.pairwise_cons] at increasing
    have above : ∀ place ∈ higher, lowest.2 + 1 ≤ place.2 :=
      fun place member => increasing.1 place.2 (List.mem_map_of_mem member)
    have lowestDigit := digits lowest List.mem_cons_self
    have lowestAbove : b ≤ lowest.2 := by
      by_contra below
      rw [List.map_cons, List.sum_cons] at divides
      have whole : base ^ (lowest.2 + 1) ∣ lowest.1 * base ^ lowest.2 + _ :=
        (Nat.pow_dvd_pow base (by omega)).trans divides
      have single : base ^ lowest.2 * base ∣ base ^ lowest.2 * lowest.1 := by
        rw [← Nat.pow_succ, Nat.mul_comm]
        exact (Nat.dvd_add_left (pow_dvd_placesSum above)).mp whole
      have := Nat.le_of_dvd lowestDigit.1
        (Nat.dvd_of_mul_dvd_mul_left (Nat.pow_pos (by omega)) single)
      omega
    intro place member
    rcases List.mem_cons.mp member with rfl | higherPlace
    · exact lowestAbove
    · have := above place higherPlace
      omega

/-- `k` places from place `b` on are worth at least `base ^ (b + k - 1)`: the highest is at least
`k - 1` places above the lowest. -/
theorem pow_le_placesSum (positive : 0 < base) (digits : ∀ place ∈ places, 0 < place.1)
    (increasing : (places.map Prod.snd).Pairwise (· < ·)) :
    ∀ {b : ℕ}, (∀ place ∈ places, b ≤ place.2) → places ≠ [] →
      base ^ (b + places.length - 1) ≤ (places.map fun place => place.1 * base ^ place.2).sum := by
  induction places with
  | nil => exact fun _ nonempty => absurd rfl nonempty
  | cons lowest higher ih =>
    intro b above _
    rw [List.map_cons, List.pairwise_cons] at increasing
    rw [List.map_cons, List.sum_cons, List.length_cons]
    cases higher with
    | nil =>
      have := Nat.pow_le_pow_right positive (above lowest List.mem_cons_self)
      have := Nat.le_mul_of_pos_left (base ^ lowest.2) (digits lowest List.mem_cons_self)
      simp only [List.map_nil, List.sum_nil, List.length_nil, Nat.zero_add, Nat.add_sub_cancel]
      omega
    | cons next rest =>
      -- the higher places all lie above the lowest, so they start at `b + 1`
      have higherAbove : ∀ place ∈ next :: rest, b + 1 ≤ place.2 := fun place member => by
        have := increasing.1 place.2 (List.mem_map_of_mem member)
        have := above lowest List.mem_cons_self
        omega
      have := ih (fun place member => digits place (List.mem_cons_of_mem _ member)) increasing.2
        higherAbove (List.cons_ne_nil _ _)
      rw [List.length_cons] at this ⊢
      rw [show b + (rest.length + 1 + 1) - 1 = b + 1 + (rest.length + 1) - 1 by omega]
      omega

end Sparse

end Nat
