import Nox.Model.CryptoNoteCore.Core

/-! # The segment table of the core and what `split` does to it

`Core.updateSegment` rewrites one stored segment and leaves every other lookup alone; a fresh
address lies above every stored one. Splitting an in-memory segment leaves a lower part that ends
right before the split index and has the upper part as its only child, and an upper part that
starts at the split index, ends where the segment ended and takes over its children; the core
points those children at the upper part. Splitting the database root shortens it the same way but
keeps its children and adds the upper part to them.
-/

namespace Nox.CryptoNote

open Nox.Crypto

theorem lookup_cons_key {β : Type} (key other : ℕ) (value : β) (entries : List (ℕ × β)) :
    ((key, value) :: entries).lookup other = if other = key then some value else entries.lookup other := by
  by_cases h : other = key
  · simp [List.lookup, h]
  · have differs : (other == key) = false := by simpa using h
    simp [List.lookup, h, differs]

theorem le_foldr_max (values : List ℕ) : ∀ value ∈ values, value ≤ values.foldr max 0 := by
  induction values with
  | nil => simp
  | cons head tail ih =>
    intro value member
    rcases List.mem_cons.mp member with rfl | inTail
    · exact le_max_left _ _
    · exact (ih value inTail).trans (le_max_right _ _)

theorem lookup_eq_none_of_ne {β : Type} (entries : List (ℕ × β)) (other : ℕ)
    (absent : ∀ entry ∈ entries, entry.1 ≠ other) : entries.lookup other = none := by
  induction entries with
  | nil => rfl
  | cons entry entries ih =>
    obtain ⟨key, value⟩ := entry
    rw [lookup_cons_key, if_neg (absent _ List.mem_cons_self).symm]
    exact ih fun entry member => absent entry (List.mem_cons_of_mem _ member)

namespace Core

variable (core : Core)

@[simp] theorem getSegment_updateSegment (pointer other : SegmentPointer) (update : Segment → Segment) :
    (core.updateSegment pointer update).getSegment other =
      if other = pointer then (core.getSegment other).map update else core.getSegment other := by
  simp only [getSegment, updateSegment]
  induction core.chainsStorage with
  | nil => simp
  | cons entry entries ih =>
    obtain ⟨key, segment⟩ := entry
    by_cases same : key = pointer
    · subst same
      by_cases hit : other = key <;> simp_all [lookup_cons_key]
    · have other_key : pointer ≠ key := Ne.symm same
      by_cases hit : other = key
      · subst hit; simp_all
      · simp_all [lookup_cons_key]

@[simp] theorem updateSegment_chainsLeaves (pointer : SegmentPointer) (update : Segment → Segment) :
    (core.updateSegment pointer update).chainsLeaves = core.chainsLeaves := rfl

theorem lt_freshPointer : ∀ entry ∈ core.chainsStorage, entry.1 < core.freshPointer := by
  intro entry member
  have bound := le_foldr_max (core.chainsStorage.map (·.1)) entry.1 (List.mem_map_of_mem member)
  exact Nat.lt_succ_of_le bound

theorem getSegment_freshPointer : core.getSegment core.freshPointer = none :=
  lookup_eq_none_of_ne _ _ fun entry member => (core.lt_freshPointer entry member).ne

/-- A stored segment's address is not fresh. -/
theorem ne_freshPointer_of_getSegment {pointer : SegmentPointer} {segment : Segment}
    (stored : core.getSegment pointer = some segment) : pointer ≠ core.freshPointer := by
  rintro rfl
  rw [getSegment_freshPointer] at stored
  cases stored

end Core

namespace BlockchainCache

variable (self upper : SegmentPointer) (splitBlockIndex : ℕ) (cache : BlockchainCache)

@[simp] theorem split_lower_children : (cache.split self upper splitBlockIndex).1.children = [upper] := rfl

@[simp] theorem split_upper_parent : (cache.split self upper splitBlockIndex).2.parent = some self := rfl

@[simp] theorem split_upper_children : (cache.split self upper splitBlockIndex).2.children = cache.children := rfl

@[simp] theorem split_upper_startIndex : (cache.split self upper splitBlockIndex).2.startIndex = splitBlockIndex := rfl

@[simp] theorem split_lower_startIndex :
    (cache.split self upper splitBlockIndex).1.startIndex = cache.startIndex := rfl

section Inside

variable {self upper splitBlockIndex cache}
variable (inside : cache.startIndex < splitBlockIndex)
  (below : splitBlockIndex ≤ (Segment.memory cache).getTopBlockIndex)
include inside below

/-- The lower part ends right before the split index. -/
theorem split_lower_top :
    (Segment.memory (cache.split self upper splitBlockIndex).1).getTopBlockIndex + 1 = splitBlockIndex := by
  simp only [Segment.getTopBlockIndex, Segment.getStartBlockIndex, Segment.getBlockCount] at below ⊢
  simp only [split, List.length_take]
  omega

/-- The upper part ends where the segment ended. -/
theorem split_upper_top :
    (Segment.memory (cache.split self upper splitBlockIndex).2).getTopBlockIndex =
      (Segment.memory cache).getTopBlockIndex := by
  simp only [Segment.getTopBlockIndex, Segment.getStartBlockIndex, Segment.getBlockCount] at below ⊢
  simp only [split, List.length_drop]
  omega

end Inside

end BlockchainCache

namespace DatabaseBlockchainCache

variable (primitives : Primitives) (self upper : SegmentPointer) (splitBlockIndex : ℕ)
  (cache : DatabaseBlockchainCache)

@[simp] theorem split_lower_children :
    (cache.split primitives self upper splitBlockIndex).1.children = cache.children ++ [upper] := rfl

/-- The shortened database ends right before the split index. -/
theorem split_lower_top (inside : 0 < splitBlockIndex)
    (below : splitBlockIndex ≤ (Segment.database cache).getTopBlockIndex) :
    (Segment.database (cache.split primitives self upper splitBlockIndex).1).getTopBlockIndex + 1 =
      splitBlockIndex := by
  simp only [Segment.getTopBlockIndex, Segment.getStartBlockIndex, Segment.getBlockCount] at below ⊢
  simp only [split, removeBlocksFrom, List.length_take]
  omega

end DatabaseBlockchainCache

@[simp] theorem Segment.setParent_setParent (parent : SegmentPointer) (segment : Segment) :
    (segment.setParent parent).setParent parent = segment.setParent parent := by
  cases segment <;> rfl

namespace Core

variable (core : Core) (primitives : Primitives) (pointer : SegmentPointer) (splitBlockIndex : ℕ)

/-- Pointing a list of children at a new parent rewrites exactly those children. -/
theorem getSegment_foldl_setParent (parent : SegmentPointer) (children : List SegmentPointer)
    (other : SegmentPointer) :
    (children.foldl (fun core child => core.updateSegment child (Segment.setParent parent)) core).getSegment other =
      if other ∈ children then (core.getSegment other).map (Segment.setParent parent) else core.getSegment other := by
  induction children generalizing core with
  | nil => simp
  | cons child children ih =>
    rw [List.foldl_cons, ih, getSegment_updateSegment]
    by_cases first : other = child
    · subst first
      by_cases later : other ∈ children <;> simp [later, Option.map_map, Function.comp_def]
    · simp [first]

/-- After splitting an in-memory segment, its address holds the lower part, its former children
have the upper part as their parent, and every other segment is unchanged. -/
theorem split_memory_getSegment {cache : BlockchainCache}
    (stored : core.getSegment pointer = some (.memory cache)) (notOwnChild : pointer ∉ cache.children)
    (other : SegmentPointer) :
    (core.split primitives pointer splitBlockIndex).1.getSegment other =
      if other = pointer then some (.memory (cache.split pointer core.freshPointer splitBlockIndex).1)
      else if other ∈ cache.children then (core.getSegment other).map (Segment.setParent core.freshPointer)
      else core.getSegment other := by
  simp only [split, stored]
  rw [getSegment_foldl_setParent, getSegment_updateSegment]
  by_cases self : other = pointer
  · subst self
    simp [notOwnChild, stored]
  · simp [self]

/-- An in-memory split returns a fresh address and the upper part of the segment. -/
theorem split_memory_upper {cache : BlockchainCache} (stored : core.getSegment pointer = some (.memory cache)) :
    (core.split primitives pointer splitBlockIndex).2 =
      (core.freshPointer, (cache.split pointer core.freshPointer splitBlockIndex).2) := by
  simp [split, stored]

/-- After splitting the database root, its address holds the shortened database and every other
segment is unchanged. -/
theorem split_database_getSegment {cache : DatabaseBlockchainCache}
    (stored : core.getSegment pointer = some (.database cache)) (other : SegmentPointer) :
    (core.split primitives pointer splitBlockIndex).1.getSegment other =
      if other = pointer then
        some (.database (cache.split primitives pointer core.freshPointer splitBlockIndex).1)
      else core.getSegment other := by
  simp only [split, stored]
  rw [getSegment_updateSegment]
  by_cases self : other = pointer
  · subst self
    simp [stored]
  · simp [self]

end Core

end Nox.CryptoNote
