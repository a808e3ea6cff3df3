import Mathlib.Data.List.Induction
import Nox.Library.BoundedQuantifiers

/-! # Key-value stores written in batches

A store holds at most one value for each key. A write batch collects the pairs to insert and the
keys to remove, and the store applies it at once: the pairs in the order they were added, so the
last value given for a key wins, and then the removals. What reads the store while a batch is
being built sees the store as it was before the batch.
-/

namespace KeyValueStore

variable {K V : Type}

/-- The pairs to insert and the keys to remove, in the order they were added. -/
structure WriteBatch (K V : Type) where
  rawDataToInsert : List (K × V)
  rawKeysToRemove : List K

namespace WriteBatch

/-- A batch with nothing in it. -/
def empty : WriteBatch K V := ⟨[], []⟩

/-- The batch with one more pair to insert. -/
def insert (batch : WriteBatch K V) (key : K) (value : V) : WriteBatch K V :=
  { batch with rawDataToInsert := batch.rawDataToInsert ++ [(key, value)] }

/-- The batch with one more key to remove. -/
def remove (batch : WriteBatch K V) (key : K) : WriteBatch K V :=
  { batch with rawKeysToRemove := batch.rawKeysToRemove ++ [key] }

@[simp] theorem insert_rawDataToInsert (batch : WriteBatch K V) (key : K) (value : V) :
    (batch.insert key value).rawDataToInsert = batch.rawDataToInsert ++ [(key, value)] := rfl

@[simp] theorem insert_rawKeysToRemove (batch : WriteBatch K V) (key : K) (value : V) :
    (batch.insert key value).rawKeysToRemove = batch.rawKeysToRemove := rfl

@[simp] theorem remove_rawDataToInsert (batch : WriteBatch K V) (key : K) :
    (batch.remove key).rawDataToInsert = batch.rawDataToInsert := rfl

@[simp] theorem remove_rawKeysToRemove (batch : WriteBatch K V) (key : K) :
    (batch.remove key).rawKeysToRemove = batch.rawKeysToRemove ++ [key] := rfl

end WriteBatch

variable [DecidableEq K]

/-- The store with `key` holding `value`. -/
def put (store : K → Option V) (key : K) (value : V) : K → Option V :=
  fun other => if other = key then some value else store other

/-- The store with nothing at `key`. -/
def delete (store : K → Option V) (key : K) : K → Option V :=
  fun other => if other = key then none else store other

/-- Writing a batch: every insertion in order, then every removal. -/
def write (store : K → Option V) (batch : WriteBatch K V) : K → Option V :=
  batch.rawKeysToRemove.foldl delete (batch.rawDataToInsert.foldl (fun store pair => put store pair.1 pair.2) store)

/-- The value that the last pair of `key` in a list gives it. -/
def lastValue (pairs : List (K × V)) (key : K) : Option V :=
  ((pairs.filter (·.1 = key)).getLast?).map (·.2)

@[simp] theorem put_apply (store : K → Option V) (key other : K) (value : V) :
    put store key value other = if other = key then some value else store other := rfl

@[simp] theorem delete_apply (store : K → Option V) (key other : K) :
    delete store key other = if other = key then none else store other := rfl

@[simp] theorem lastValue_nil (key : K) : lastValue ([] : List (K × V)) key = none := rfl

theorem lastValue_append_singleton (pairs : List (K × V)) (pair : K × V) (key : K) :
    lastValue (pairs ++ [pair]) key = if pair.1 = key then some pair.2 else lastValue pairs key := by
  by_cases same : pair.1 = key <;> simp [lastValue, List.filter_append, same]

theorem lastValue_eq_none {pairs : List (K × V)} {key : K} (absent : key ∉ pairs.map (·.1)) :
    lastValue pairs key = none := by
  have none_left : pairs.filter (·.1 = key) = [] := by
    rw [List.filter_eq_nil_iff]
    intro pair mem same
    exact absent (List.mem_map.mpr ⟨pair, mem, of_decide_eq_true same⟩)
  simp [lastValue, none_left]

/-- Where every pair of a key gives it one value, that is its last value. -/
theorem lastValue_eq_of_forall {pairs : List (K × V)} {key : K} {value : V}
    (same : ∀ pair ∈ pairs, pair.1 = key → pair.2 = value) :
    lastValue pairs key = if key ∈ pairs.map (·.1) then some value else none := by
  split
  case isTrue present =>
    obtain ⟨pair, mem, rfl⟩ := List.mem_map.mp present
    have nonempty : pairs.filter (·.1 = pair.1) ≠ [] :=
      List.ne_nil_of_mem (List.mem_filter.mpr ⟨mem, decide_eq_true rfl⟩)
    obtain ⟨last, found⟩ := Option.isSome_iff_exists.mp (List.getLast?_isSome.mpr nonempty)
    obtain ⟨inPairs, hasKey⟩ := List.mem_filter.mp (List.mem_of_getLast? found)
    rw [lastValue, found, Option.map_some, same last inPairs (of_decide_eq_true hasKey)]
  case isFalse absent => exact lastValue_eq_none absent

/-- The insertions of a batch give each key the value of its last pair, over the store's own. -/
theorem foldl_put_apply (pairs : List (K × V)) (store : K → Option V) (key : K) :
    pairs.foldl (fun store pair => put store pair.1 pair.2) store key = (lastValue pairs key).or (store key) := by
  induction pairs using List.reverseRecOn with
  | nil => rfl
  | append_singleton pairs pair ih =>
    rw [List.foldl_append, List.foldl_cons, List.foldl_nil, put_apply, lastValue_append_singleton, ih]
    by_cases same : pair.1 = key
    · simp [same]
    · simp [same, Ne.symm same]

theorem foldl_delete_apply (keys : List K) (store : K → Option V) (key : K) :
    keys.foldl delete store key = if key ∈ keys then none else store key := by
  induction keys generalizing store with
  | nil => simp
  | cons removed keys ih =>
    rw [List.foldl_cons, ih, delete_apply]
    by_cases same : key = removed <;> simp [same]

/-- What a key holds after a batch: nothing if the batch removes it, else the value of its last
insertion, else what it held before. -/
theorem write_apply (store : K → Option V) (batch : WriteBatch K V) (key : K) :
    write store batch key =
      if key ∈ batch.rawKeysToRemove then none else (lastValue batch.rawDataToInsert key).or (store key) := by
  rw [write, foldl_delete_apply, foldl_put_apply]

/-- A key the batch neither inserts nor removes keeps its value. -/
theorem write_apply_of_untouched (store : K → Option V) (batch : WriteBatch K V) {key : K}
    (notInserted : key ∉ batch.rawDataToInsert.map (·.1)) (notRemoved : key ∉ batch.rawKeysToRemove) :
    write store batch key = store key := by
  rw [write_apply, if_neg notRemoved, lastValue_eq_none notInserted, Option.none_or]

@[simp] theorem write_empty (store : K → Option V) : write store WriteBatch.empty = store := rfl

end KeyValueStore
