import Mathlib

/-! # Quantifiers bounded by a list

Every module of the development sees all of Mathlib, through this one, so that an instance found
for a definition is the same whichever modules are loaded beside it.

A statement `∀ x ∈ l, p x` about a concrete list is decided by walking the list. Mathlib also
decides it as a quantifier over the whole element type when that type is finite, which for a byte
means enumerating all 256 values, and it tries that instance first. The instances here walk the
list and come first, so a test over a few bytes looks at those bytes only.
-/

universe u

namespace List

variable {α : Type u}

/-- `∀ x ∈ l, p x`, decided element by element. -/
instance (priority := high) decidableForallMem (p : α → Prop) [DecidablePred p] (l : List α) :
    Decidable (∀ x ∈ l, p x) :=
  decidableBAll p l

/-- `∃ x ∈ l, p x`, decided element by element. -/
instance (priority := high) decidableExistsMem (p : α → Prop) [DecidablePred p] (l : List α) :
    Decidable (∃ x ∈ l, p x) :=
  decidableBEx p l

end List
