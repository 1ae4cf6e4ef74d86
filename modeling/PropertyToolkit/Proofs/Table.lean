import Mathlib.Data.List.Nodup
import PropertyToolkit.Table

/-!
Tables that are filled from a list. Entries with keys of their own stay as they are, in their order;
of several entries for a key the last one counts. A table is known by its keys, in their order, and
by what is found for them.
-/

set_option autoImplicit false

namespace PropertyToolkit.Table

variable {κ ν : Type} [DecidableEq κ]

@[simp] theorem putAll_nil (table : Table κ ν) : table.putAll [] = table := rfl

@[simp] theorem putAll_cons (table : Table κ ν) (entry : κ × ν) (entries : List (κ × ν)) :
    table.putAll (entry :: entries) = (table.put entry.1 entry.2).putAll entries := rfl

omit [DecidableEq κ] in
theorem ext_entries {first second : Table κ ν} (same : first.entries = second.entries) :
    first = second := by
  cases first
  cases second
  cases same
  rfl

theorem get?_eq_none_iff {table : Table κ ν} {key : κ} :
    table.get? key = none ↔ key ∉ table.keys := by
  constructor
  · intro missing listed
    obtain ⟨entry, mem, rfl⟩ := List.mem_map.1 listed
    rw [get?_eq_some_iff.2 mem] at missing
    cases missing
  · intro absent
    rw [Option.eq_none_iff_forall_not_mem]
    intro value found
    exact absent (List.mem_map_of_mem (get?_eq_some_iff.1 found))

/-- A new key goes to the end. -/
theorem putEntry_of_not_mem {key : κ} {entries : List (κ × ν)}
    (new : key ∉ entries.map Prod.fst) (value : ν) :
    putEntry key value entries = entries ++ [(key, value)] := by
  induction entries with
  | nil => rfl
  | cons entry rest ih =>
    rw [List.map_cons, List.mem_cons, not_or] at new
    rw [putEntry, if_neg (Ne.symm new.1), ih new.2, List.cons_append]

theorem entries_putAll (table : Table κ ν) {entries : List (κ × ν)}
    (distinct : ((table.entries ++ entries).map Prod.fst).Nodup) :
    (table.putAll entries).entries = table.entries ++ entries := by
  induction entries generalizing table with
  | nil => exact (List.append_nil _).symm
  | cons entry rest ih =>
    have new : entry.1 ∉ table.entries.map Prod.fst := by
      rw [List.map_append, List.nodup_append] at distinct
      intro known
      exact distinct.2.2 _ known _ (List.mem_cons_self ..) rfl
    have placed : (table.put entry.1 entry.2).entries = table.entries ++ [entry] :=
      putEntry_of_not_mem new entry.2
    rw [putAll_cons, ih _ (by rwa [placed, List.append_assoc]), placed, List.append_assoc]
    rfl

/-- A table of entries with distinct keys has these entries. -/
theorem entries_ofList {entries : List (κ × ν)} (distinct : (entries.map Prod.fst).Nodup) :
    (ofList entries : Table κ ν).entries = entries :=
  entries_putAll empty distinct

theorem ofList_entries (table : Table κ ν) : ofList table.entries = table :=
  ext_entries (entries_ofList table.distinct)

/-- A key that some entry puts has the value that all entries have for it. -/
theorem get?_putAll (value : κ → ν) {entries : List (κ × ν)}
    (agree : ∀ entry ∈ entries, entry.2 = value entry.1) (table : Table κ ν) (key : κ) :
    (table.putAll entries).get? key =
      if key ∈ entries.map Prod.fst then some (value key) else table.get? key := by
  induction entries generalizing table with
  | nil => simp
  | cons entry rest ih =>
    have first : entry.2 = value entry.1 := agree entry (List.mem_cons_self ..)
    have later := fun other mem => agree other (List.mem_cons_of_mem entry mem)
    simp only [putAll_cons, ih later, get?_put, List.map_cons, List.mem_cons]
    by_cases again : key ∈ rest.map Prod.fst
    · simp only [again, or_true, ↓reduceIte]
    · by_cases here : entry.1 = key
      · simp only [here, again, or_false, ↓reduceIte, first]
      · have other : ¬key = entry.1 := Ne.symm here
        simp only [here, other, again, or_self, ↓reduceIte]

/-- The value of the last entry of a key. -/
def last? (entries : List (κ × ν)) (key : κ) : Option ν :=
  (entries.reverse.find? fun entry => entry.1 = key).map Prod.snd

/-- Of the values that are put for a key the last one counts, or an earlier one if there is none. -/
theorem get?_putAll_eq_or (table : Table κ ν) (entries : List (κ × ν)) (key : κ) :
    (table.putAll entries).get? key = (last? entries key).or (table.get? key) := by
  induction entries generalizing table with
  | nil => rfl
  | cons entry rest ih =>
    rw [putAll_cons, ih, get?_put, last?, last?, List.reverse_cons, List.find?_append]
    cases List.find? (fun entry => decide (entry.1 = key)) rest.reverse with
    | some later => rfl
    | none =>
      by_cases here : entry.1 = key
      · simp [here]
      · simp [here]

theorem get?_ofList (entries : List (κ × ν)) (key : κ) :
    (ofList entries).get? key = last? entries key := by
  have missing : (empty : Table κ ν).get? key = none := rfl
  rw [ofList, get?_putAll_eq_or, missing, Option.or_none]

theorem mem_of_last? {entries : List (κ × ν)} {key : κ} {value : ν}
    (found : last? entries key = some value) : (key, value) ∈ entries := by
  obtain ⟨entry, last, rfl⟩ := Option.map_eq_some_iff.1 found
  have same : entry.1 = key := by simpa using List.find?_some last
  exact List.mem_reverse.1 (same ▸ List.mem_of_find?_eq_some last)

theorem exists_last?_of_mem {entries : List (κ × ν)} {entry : κ × ν} (mem : entry ∈ entries) :
    ∃ value, last? entries entry.1 = some value := by
  cases missing : last? entries entry.1 with
  | some value => exact ⟨value, rfl⟩
  | none =>
    have absent := List.find?_eq_none.1 (Option.map_eq_none_iff.1 missing) entry
      (List.mem_reverse.2 mem)
    exact absurd (decide_eq_true rfl) absent

/-- A table has one entry for a key at most, so that is the last one. -/
theorem last?_entries (table : Table κ ν) (key : κ) : last? table.entries key = table.get? key := by
  have same := get?_putAll_eq_or empty table.entries key
  have filled : empty.putAll table.entries = table := ofList_entries table
  rw [filled] at same
  exact (Option.or_none.symm.trans same.symm)

theorem get?_update (first second : Table κ ν) (key : κ) :
    (first.update second).get? key = (second.get? key).or (first.get? key) := by
  rw [update, get?_putAll_eq_or, last?_entries]

theorem keys_put (table : Table κ ν) (key : κ) (value : ν) :
    (table.put key value).keys =
      if key ∈ table.keys then table.keys else table.keys ++ [key] :=
  keys_putEntry key value table.entries

theorem mem_keys_put {table : Table κ ν} {key : κ} {value : ν} {other : κ} :
    other ∈ (table.put key value).keys ↔ other = key ∨ other ∈ table.keys := by
  rw [keys_put]
  by_cases known : key ∈ table.keys
  · rw [if_pos known]
    exact ⟨.inr, fun either => either.elim (fun same => same ▸ known) id⟩
  · rw [if_neg known, List.mem_append, List.mem_singleton, or_comm]

theorem keys_putAll (table : Table κ ν) {entries : List (κ × ν)}
    (distinct : (entries.map Prod.fst).Nodup) :
    (table.putAll entries).keys =
      table.keys ++ (entries.map Prod.fst).filter fun key => key ∉ table.keys := by
  induction entries generalizing table with
  | nil => exact (List.append_nil _).symm
  | cons entry rest ih =>
    obtain ⟨new, distinct⟩ := List.nodup_cons.1 distinct
    rw [putAll_cons, ih _ distinct, keys_put, List.map_cons]
    by_cases known : entry.1 ∈ table.keys
    · simp [known]
    · have later : ∀ key ∈ rest.map Prod.fst, key ≠ entry.1 := fun key mem same => new (same ▸ mem)
      rw [if_neg known, List.filter_cons_of_pos (by simpa using known), List.append_assoc]
      refine congrArg (table.keys ++ entry.1 :: ·) (List.filter_congr fun key mem => ?_)
      simp [later key mem]

/-- New keys go behind those that are there. -/
theorem keys_update (first second : Table κ ν) :
    (first.update second).keys = first.keys ++ second.keys.filter fun key => key ∉ first.keys :=
  keys_putAll first second.distinct

theorem entries_eq_filterMap (table : Table κ ν) :
    table.entries = table.keys.filterMap fun key => (table.get? key).map (key, ·) := by
  have found : ∀ entry ∈ table.entries,
      (table.get? entry.1).map (entry.1, ·) = some entry := fun entry mem => by
    rw [get?_eq_some_iff.2 mem]
    rfl
  rw [keys, List.filterMap_map]
  exact ((List.filterMap_congr found).trans List.filterMap_some).symm

/-- A table is its keys, in their order, with what is found for them. -/
theorem ext_keys {first second : Table κ ν} (keys : first.keys = second.keys)
    (found : ∀ key, first.get? key = second.get? key) : first = second := by
  apply ext_entries
  rw [entries_eq_filterMap first, entries_eq_filterMap second, keys]
  simp only [found]

/-- What is put into the upper one of two tables is put on top of both. -/
theorem update_put (first second : Table κ ν) (key : κ) (value : ν) :
    first.update (second.put key value) = (first.update second).put key value := by
  apply ext_keys
  · rw [keys_update, keys_put, keys_put, keys_update]
    by_cases above : key ∈ second.keys
    · by_cases below : key ∈ first.keys
      · simp [above, below]
      · simp [above, below]
    · by_cases below : key ∈ first.keys
      · simp [above, below, List.filter_append]
      · simp [above, below, List.filter_append]
  · intro other
    rw [get?_update, get?_put, get?_put, get?_update]
    by_cases same : key = other
    · rw [if_pos same, if_pos same]
      rfl
    · rw [if_neg same, if_neg same]

/-- A key that is dropped is not found, and the other keys keep their values. -/
theorem get?_erase (table : Table κ ν) (key other : κ) :
    (table.erase key).get? other = if key = other then none else table.get? other := by
  refine Option.ext fun value => ?_
  rw [get?_eq_some_iff, erase, List.mem_filter]
  by_cases same : key = other
  · simp [same]
  · have apart : other ≠ key := Ne.symm same
    simp only [same, ↓reduceIte, get?_eq_some_iff, apart, ne_eq, not_false_eq_true, decide_true,
      and_true]

/-- The last of some tables that has a key gives its value. -/
theorem get?_foldl_update (tables : List (Table κ ν)) (start : Table κ ν) (key : κ) :
    (tables.foldl update start).get? key =
      (tables.reverse.findSome? fun table => table.get? key).or (start.get? key) := by
  induction tables generalizing start with
  | nil => rfl
  | cons table rest ih =>
    rw [List.foldl_cons, ih, get?_update, List.reverse_cons, List.findSome?_append,
      List.findSome?_singleton, Option.or_assoc]

/-- Tables with the same values have the same keys, in some order. -/
theorem perm_keys {first second : Table κ ν} (same : ∀ key, first.get? key = second.get? key) :
    first.keys.Perm second.keys := by
  refine (List.perm_ext_iff_of_nodup first.distinct second.distinct).2 fun key => ?_
  have absent : key ∉ first.keys ↔ key ∉ second.keys := by
    rw [← get?_eq_none_iff, ← get?_eq_none_iff, same]
  exact not_iff_not.1 absent

/-- The order of the entries has no part in what is found. -/
theorem get?_of_perm {first second : Table κ ν} (same : first.entries.Perm second.entries)
    (key : κ) : first.get? key = second.get? key := by
  refine Option.ext fun value => ?_
  rw [get?_eq_some_iff, get?_eq_some_iff]
  exact same.mem_iff

end PropertyToolkit.Table
