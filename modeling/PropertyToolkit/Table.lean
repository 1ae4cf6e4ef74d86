/-!
Tables: maps that keep the order in which their keys came. A key that is put again keeps its first
place and takes the last value.
-/

set_option autoImplicit false

namespace PropertyToolkit

/-- The entries of a map with every key once. -/
structure Table (κ ν : Type) where
  entries : List (κ × ν)
  distinct : (entries.map Prod.fst).Nodup

namespace Table

variable {κ ν μ : Type} [DecidableEq κ]

def empty : Table κ ν := ⟨[], List.nodup_nil⟩

instance : EmptyCollection (Table κ ν) := ⟨empty⟩

instance : Inhabited (Table κ ν) := ⟨empty⟩

/-- Puts a value in the place of the key, or at the end. -/
def putEntry (key : κ) (value : ν) : List (κ × ν) → List (κ × ν)
  | [] => [(key, value)]
  | entry :: rest =>
    if entry.1 = key then (key, value) :: rest else entry :: putEntry key value rest

theorem keys_putEntry (key : κ) (value : ν) (entries : List (κ × ν)) :
    (putEntry key value entries).map Prod.fst =
      if key ∈ entries.map Prod.fst then entries.map Prod.fst
      else entries.map Prod.fst ++ [key] := by
  induction entries with
  | nil => rfl
  | cons entry rest ih =>
    unfold putEntry
    by_cases here : entry.1 = key
    · simp [here]
    · have other : ¬key = entry.1 := fun same => here same.symm
      rw [if_neg here, List.map_cons, ih, List.map_cons]
      by_cases later : key ∈ rest.map Prod.fst
      · simp only [List.mem_cons, later, or_true, ↓reduceIte]
      · simp only [List.mem_cons, later, other, or_self, ↓reduceIte, List.cons_append]

def put (table : Table κ ν) (key : κ) (value : ν) : Table κ ν where
  entries := putEntry key value table.entries
  distinct := by
    rw [keys_putEntry]
    split
    · exact table.distinct
    · next new =>
      rw [List.nodup_append]
      refine ⟨table.distinct, by simp, fun a mem b single => ?_⟩
      rw [List.mem_singleton.1 single]
      exact fun same => new (same ▸ mem)

def erase (table : Table κ ν) (key : κ) : Table κ ν where
  entries := table.entries.filter fun entry => entry.1 ≠ key
  distinct := table.distinct.sublist (List.filter_sublist.map Prod.fst)

def get? (table : Table κ ν) (key : κ) : Option ν :=
  (table.entries.find? fun entry => entry.1 = key).map Prod.snd

/-- Among entries with distinct keys, the search for the key of one of them finds that one. -/
theorem find?_of_mem {entries : List (κ × ν)} (distinct : (entries.map Prod.fst).Nodup)
    {key : κ} {value : ν} (mem : (key, value) ∈ entries) :
    (entries.find? fun entry => entry.1 = key) = some (key, value) := by
  induction entries with
  | nil => cases mem
  | cons first rest ih =>
    obtain ⟨absent, distinct⟩ := List.nodup_cons.1 distinct
    by_cases here : first.1 = key
    · rw [List.find?_cons_of_pos (by simpa using here)]
      cases mem with
      | head => rfl
      | tail _ later => exact absurd (List.mem_map_of_mem later) (here ▸ absent)
    · rw [List.find?_cons_of_neg (by simpa using here)]
      cases mem with
      | head => exact absurd rfl here
      | tail _ later => exact ih distinct later

theorem get?_eq_some_iff {table : Table κ ν} {key : κ} {value : ν} :
    table.get? key = some value ↔ (key, value) ∈ table.entries := by
  constructor
  · intro found
    obtain ⟨entry, here, rfl⟩ := Option.map_eq_some_iff.1 found
    have same : entry.1 = key := by simpa using List.find?_some here
    exact same ▸ List.mem_of_find?_eq_some here
  · intro mem
    unfold get?
    rw [find?_of_mem table.distinct mem]
    rfl

theorem find?_putEntry (key : κ) (value : ν) (entries : List (κ × ν)) (other : κ) :
    ((putEntry key value entries).find? fun entry => entry.1 = other) =
      if key = other then some (key, value) else entries.find? fun entry => entry.1 = other := by
  induction entries with
  | nil => by_cases same : key = other <;> simp [putEntry, same]
  | cons entry rest ih =>
    unfold putEntry
    by_cases here : entry.1 = key
    · by_cases same : key = other <;> simp [here, same]
    · rw [if_neg here]
      by_cases first : entry.1 = other
      · have apart : ¬key = other := fun same => here (first.trans same.symm)
        simp [first, apart]
      · simp [first, ih]

/-- A key that is put has its new value, and the other keys keep theirs. -/
theorem get?_put (table : Table κ ν) (key : κ) (value : ν) (other : κ) :
    (table.put key value).get? other = if key = other then some value else table.get? other := by
  unfold get? put
  rw [find?_putEntry]
  split <;> rfl

def keys (table : Table κ ν) : List κ := table.entries.map Prod.fst

def contains (table : Table κ ν) (key : κ) : Bool := decide (key ∈ table.keys)

/-- Puts all entries of a list, one after the other. -/
def putAll (table : Table κ ν) (entries : List (κ × ν)) : Table κ ν :=
  entries.foldl (fun table entry => table.put entry.1 entry.2) table

def ofList (entries : List (κ × ν)) : Table κ ν := empty.putAll entries

/-- The entries of the second table on top of those of the first. -/
def update (first second : Table κ ν) : Table κ ν := first.putAll second.entries

def map (f : κ → ν → μ) (table : Table κ ν) : Table κ μ where
  entries := table.entries.map fun entry => (entry.1, f entry.1 entry.2)
  distinct := by
    rw [List.map_map]
    exact table.distinct

end Table

end PropertyToolkit
