import Mathlib.Data.List.Sort
import Nox.Library.BoundedQuantifiers

/-! # A container with a unique key index and a non-unique rank index

`boost::multi_index_container` with an `ordered_unique` index on a key and an `ordered_non_unique`
index on a rank. The entries are kept in the order of the rank index: sorted by rank, and entries
of one rank in the order the index links them. The key index is a uniqueness constraint and a
lookup, so the container carries both as fields and no operation can break them.

The rank index links a new element at the upper bound of its rank's range, after the entries of
its rank. `replace` keeps an entry in place when its new rank still fits between its neighbours and
relinks it at the upper bound otherwise. Erasing from the front of the rank index drops the entries
of least rank first.
-/

namespace MultiIndex

variable {α κ : Type} [DecidableEq κ]

/-! ## Upper-bound insertion by rank -/

section LinkByRank

variable (rank : α → ℕ)

/-- The rank index's insertion: before the first entry of greater rank. -/
def linkByRank (x : α) (entries : List α) : List α :=
  entries.orderedInsert (fun a b => rank a < rank b) x

variable {rank}

theorem linkByRank_perm (x : α) (entries : List α) : (linkByRank rank x entries).Perm (x :: entries) :=
  List.perm_orderedInsert _ x entries

theorem mem_linkByRank {x y : α} {entries : List α} : y ∈ linkByRank rank x entries ↔ y = x ∨ y ∈ entries := by
  rw [(linkByRank_perm x entries).mem_iff, List.mem_cons]

/-- Linking by rank keeps a list sorted by rank. -/
theorem pairwise_linkByRank (x : α) :
    ∀ {entries : List α}, entries.Pairwise (fun a b => rank a ≤ rank b) →
      (linkByRank rank x entries).Pairwise fun a b => rank a ≤ rank b
  | [], _ => List.pairwise_singleton _ _
  | y :: rest, sorted => by
    rw [List.pairwise_cons] at sorted
    unfold linkByRank
    rw [List.orderedInsert_cons]
    split_ifs with before
    · -- `x` goes first, below `y` and so below everything after it
      refine List.pairwise_cons.mpr ⟨fun z member => ?_, List.pairwise_cons.mpr sorted⟩
      rcases List.mem_cons.mp member with rfl | later
      · exact le_of_lt before
      · exact (le_of_lt before).trans (sorted.1 z later)
    · refine List.pairwise_cons.mpr ⟨fun z member => ?_, pairwise_linkByRank x sorted.2⟩
      rcases mem_linkByRank.mp member with rfl | later
      · exact le_of_not_gt before
      · exact sorted.1 z later

end LinkByRank

/-! ## The container -/

/-- The entries in the order of the rank index: sorted by rank, with distinct keys. -/
structure Container (key : α → κ) (rank : α → ℕ) where
  entries : List α
  sorted : entries.Pairwise fun earlier later => rank earlier ≤ rank later
  unique : (entries.map key).Nodup

namespace Container

variable {key : α → κ} {rank : α → ℕ}

/-- An empty container. -/
def empty : Container key rank := ⟨[], .nil, .nil⟩

/-- The keys the container holds. -/
def keys (container : Container key rank) : List κ := container.entries.map key

/-- `find(k)` on the key index. -/
def find (container : Container key rank) (k : κ) : Option α := container.entries.find? (key · = k)

/-- `insert(x)`: refused when the key is taken, linked by rank otherwise. -/
def insert (container : Container key rank) (x : α) : Container key rank :=
  if taken : key x ∈ container.keys then container
  else
    ⟨linkByRank rank x container.entries, pairwise_linkByRank x container.sorted,
      ((linkByRank_perm x container.entries).map key).nodup_iff.mpr
        (List.nodup_cons.mpr ⟨taken, container.unique⟩)⟩

/-- `erase` through the key index. -/
def erase (container : Container key rank) (k : κ) : Container key rank :=
  ⟨container.entries.filter (key · ≠ k), container.sorted.sublist List.filter_sublist,
    container.unique.sublist (List.filter_sublist.map key)⟩

/-- The entries of the rank index before the entry of key `k`, and after it. -/
def around (container : Container key rank) (k : κ) : List α × List α :=
  (container.entries.take (container.entries.findIdx (key · = k)),
    container.entries.drop (container.entries.findIdx (key · = k) + 1))

/-- Whether `x` may stay at the place of the entry of its key: its rank is not below the previous
entry's nor above the next one's. -/
def fitsInPlace (container : Container key rank) (x : α) : Bool :=
  ((container.around (key x)).1.getLast?.all fun previous => rank previous ≤ rank x) &&
    ((container.around (key x)).2.head?.all fun next => rank x ≤ rank next)

/-- Two consecutive parts of a sorted list with an entry between them that fits. -/
theorem pairwise_fits {before after : List α} {old x : α}
    (sorted : (before ++ old :: after).Pairwise fun earlier later => rank earlier ≤ rank later)
    (fitsBefore : ∀ previous ∈ before.getLast?, rank previous ≤ rank x)
    (fitsAfter : ∀ next ∈ after.head?, rank x ≤ rank next) :
    (before ++ x :: after).Pairwise fun earlier later => rank earlier ≤ rank later := by
  rw [List.pairwise_append, List.pairwise_cons] at sorted ⊢
  obtain ⟨beforeSorted, ⟨-, afterSorted⟩, across⟩ := sorted
  -- the last entry before bounds every entry before, the first entry after bounds every entry after
  have belowX : ∀ p ∈ before, rank p ≤ rank x := by
    intro p member
    obtain ⟨last, lastEq⟩ := Option.isSome_iff_exists.mp (List.getLast?_isSome.mpr (List.ne_nil_of_mem member))
    have bound := fitsBefore last lastEq
    obtain ⟨init, rfl⟩ := List.getLast?_eq_some_iff.mp lastEq
    rcases List.mem_append.mp member with earlier | isLast
    · exact ((List.pairwise_append.mp beforeSorted).2.2 p earlier last (List.mem_singleton_self last)).trans bound
    · rw [List.mem_singleton.mp isLast]
      exact bound
  have aboveX : ∀ q ∈ after, rank x ≤ rank q := by
    intro q member
    cases after with
    | nil => simp at member
    | cons first rest =>
      have bound := fitsAfter first rfl
      rcases List.mem_cons.mp member with rfl | later
      · exact bound
      · exact bound.trans ((List.pairwise_cons.mp afterSorted).1 q later)
  refine ⟨beforeSorted, ⟨aboveX, afterSorted⟩, fun p inBefore q inRest => ?_⟩
  rcases List.mem_cons.mp inRest with rfl | inAfter
  · exact belowX p inBefore
  · exact across p inBefore q (List.mem_cons_of_mem _ inAfter)

/-- The entry of a key the container holds sits between the two parts `around` gives. -/
theorem entries_eq_around (container : Container key rank) {k : κ} (present : k ∈ container.keys) :
    ∃ old, key old = k ∧ container.entries = (container.around k).1 ++ old :: (container.around k).2 := by
  obtain ⟨y, member, keyEq⟩ := List.mem_map.mp present
  have inside : container.entries.findIdx (key · = k) < container.entries.length :=
    List.findIdx_lt_length_of_exists ⟨y, member, by simp [keyEq]⟩
  refine ⟨container.entries[container.entries.findIdx (key · = k)], ?_, ?_⟩
  · simpa using @List.findIdx_getElem _ _ _ inside
  · rw [around, List.getElem_cons_drop inside, List.take_append_drop]

/-- The entry of `x`'s key with `x` in its place. -/
def setInPlace (container : Container key rank) (x : α) (present : key x ∈ container.keys)
    (fits : container.fitsInPlace x = true) : Container key rank :=
  ⟨(container.around (key x)).1 ++ x :: (container.around (key x)).2, by
    obtain ⟨old, -, split⟩ := container.entries_eq_around present
    rw [fitsInPlace, Bool.and_eq_true, Option.all_eq_true, Option.all_eq_true] at fits
    exact pairwise_fits (split ▸ container.sorted) (fun previous found => of_decide_eq_true (fits.1 previous found))
      (fun next found => of_decide_eq_true (fits.2 next found)), by
    obtain ⟨old, sameKey, split⟩ := container.entries_eq_around present
    have keys := container.unique
    rw [split, List.map_append, List.map_cons, sameKey] at keys
    simpa using keys⟩

/-- `replace(it, x)` at the entry of `x`'s key: in place when `x` fits there, relinked by rank
otherwise. The peer lists replace only entries they have found; a key the container lacks leaves
it unchanged. -/
def replace (container : Container key rank) (x : α) : Container key rank :=
  if present : key x ∈ container.keys then
    if fits : container.fitsInPlace x = true then container.setInPlace x present fits
    else (container.erase (key x)).insert x
  else container

/-- The rank index erased from its front until at most `maxSize` entries are left. -/
def trimFront (container : Container key rank) (maxSize : ℕ) : Container key rank :=
  ⟨container.entries.drop (container.entries.length - maxSize),
    container.sorted.sublist (List.drop_sublist _ _), container.unique.sublist ((List.drop_sublist _ _).map key)⟩

/-! ## What each operation keeps -/

theorem find_eq_none_iff (container : Container key rank) (k : κ) :
    container.find k = none ↔ k ∉ container.keys := by
  simp [find, keys, List.find?_eq_none]

theorem find_eq_none_iff_forall (container : Container key rank) (k : κ) :
    container.find k = none ↔ ∀ y ∈ container.entries, key y ≠ k := by
  simp [find, List.find?_eq_none]

theorem mem_insert {container : Container key rank} {x y : α} (member : y ∈ (container.insert x).entries) :
    y ∈ container.entries ∨ y = x := by
  unfold insert at member
  split_ifs at member
  · exact .inl member
  · exact (mem_linkByRank.mp member).symm

theorem length_insert_le (container : Container key rank) (x : α) :
    (container.insert x).entries.length ≤ container.entries.length + 1 := by
  unfold insert
  split_ifs
  · omega
  · simp [(linkByRank_perm x container.entries).length_eq]

theorem mem_erase {container : Container key rank} {k : κ} {y : α} :
    y ∈ (container.erase k).entries ↔ y ∈ container.entries ∧ key y ≠ k := by
  simp [erase]

theorem length_erase_le (container : Container key rank) (k : κ) :
    (container.erase k).entries.length ≤ container.entries.length :=
  List.length_filter_le _ _

theorem mem_setInPlace {container : Container key rank} {x y : α} {present : key x ∈ container.keys}
    {fits : container.fitsInPlace x = true} (member : y ∈ (container.setInPlace x present fits).entries) :
    y ∈ container.entries ∨ y = x := by
  obtain ⟨old, -, split⟩ := container.entries_eq_around present
  unfold setInPlace at member
  rw [split]
  simp only [List.mem_append, List.mem_cons] at member ⊢
  tauto

theorem mem_replace {container : Container key rank} {x y : α} (member : y ∈ (container.replace x).entries) :
    y ∈ container.entries ∨ y = x := by
  unfold replace at member
  split_ifs at member
  · exact mem_setInPlace member
  · exact (mem_insert member).imp_left fun erased => (mem_erase.mp erased).1
  · exact .inl member

/-- Replacing the entry of a key keeps the number of entries. -/
theorem length_replace (container : Container key rank) (x : α) :
    (container.replace x).entries.length = container.entries.length := by
  unfold replace
  split_ifs with present fits
  · obtain ⟨old, -, split⟩ := container.entries_eq_around present
    rw [split]
    simp [setInPlace]
  · -- the key's one entry goes, and `x` comes back in its stead
    obtain ⟨old, sameKey, split⟩ := container.entries_eq_around present
    have freed : key x ∉ (container.erase (key x)).keys := by
      simp [keys, erase]
    have erased : (container.erase (key x)).entries.length + 1 = container.entries.length := by
      have distinct := container.unique
      rw [split, List.map_append, List.map_cons, sameKey, List.nodup_append] at distinct
      simp only [erase, split, List.filter_append, List.filter_cons, sameKey, ne_eq, not_true_eq_false,
        decide_false, Bool.false_eq_true, if_false, List.length_append, List.length_cons]
      rw [List.filter_eq_self.mpr, List.filter_eq_self.mpr]
      · omega
      · intro y member
        simp only [decide_eq_true_eq]
        intro same
        have listed : key y ∈ (container.around (key x)).2.map key := List.mem_map_of_mem member
        rw [same] at listed
        exact (List.nodup_cons.mp distinct.2.1).1 listed
      · intro y member
        simp only [decide_eq_true_eq]
        exact fun same => distinct.2.2 _ (List.mem_map_of_mem member) _ (List.mem_cons_self ..) same
    simp only [insert, freed, dite_false, (linkByRank_perm x _).length_eq, List.length_cons]
    exact erased
  · rfl

omit [DecidableEq κ] in
theorem mem_trimFront {container : Container key rank} {maxSize : ℕ} {y : α}
    (member : y ∈ (container.trimFront maxSize).entries) : y ∈ container.entries :=
  (List.drop_sublist _ _).subset member

omit [DecidableEq κ] in
theorem length_trimFront (container : Container key rank) (maxSize : ℕ) :
    (container.trimFront maxSize).entries.length = min container.entries.length maxSize := by
  simp only [trimFront, List.length_drop]
  omega

omit [DecidableEq κ] in
/-- Trimming evicts the entries of least rank: each entry it drops ranks at most every entry it
keeps. -/
theorem trimFront_evicts_least (container : Container key rank) (maxSize : ℕ) :
    ∀ evicted ∈ container.entries.take (container.entries.length - maxSize),
      ∀ kept ∈ (container.trimFront maxSize).entries, rank evicted ≤ rank kept := by
  have sorted := container.sorted
  rw [← List.take_append_drop (container.entries.length - maxSize) container.entries, List.pairwise_append] at sorted
  exact sorted.2.2

end Container

end MultiIndex
