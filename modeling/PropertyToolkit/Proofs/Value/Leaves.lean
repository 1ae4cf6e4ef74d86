import PropertyToolkit.Value.Basic

/-!
The texts of nested data and what is around them. The leaves of a value are its texts from left to
right, each with the name that it belongs to; the outline of a value is all the rest. The two
together make up the value.
-/

set_option autoImplicit false

namespace PropertyToolkit.Value

mutual

/-- The texts of a value from left to right. Each one belongs to the key of the innermost entry
around it, or to `key` if there is none; a key that is no text names nothing. -/
def leaves (key : Option Text) : Value → List (Option Text × Text)
  | text t => [(key, t)]
  | list items => leavesOfItems key items
  | map entries => leavesOfEntries entries
  | _ => []

def leavesOfItems (key : Option Text) : List Value → List (Option Text × Text)
  | [] => []
  | item :: rest => leaves key item ++ leavesOfItems key rest

def leavesOfEntries : List (Value × Value) → List (Option Text × Text)
  | [] => []
  | (key, value) :: rest => leaves key.name? value ++ leavesOfEntries rest

end

example :
    (map [(text "a", list [text "x", int 1]), (int 2, text "y")]).leaves none =
      [(some (Text.ofString "a"), Text.ofString "x"), (none, Text.ofString "y")] := rfl

mutual

/-- A value with its texts left empty. Its lists keep their lengths and its maps their keys. -/
def outline : Value → Value
  | text _ => text []
  | list items => list (outlines items)
  | map entries => map (outlinesOfEntries entries)
  | value => value

def outlines : List Value → List Value
  | [] => []
  | item :: rest => outline item :: outlines rest

def outlinesOfEntries : List (Value × Value) → List (Value × Value)
  | [] => []
  | (key, value) :: rest => (key, outline value) :: outlinesOfEntries rest

end

mutual

/-- How many leaves there are shows in the outline. -/
theorem length_leaves_outline (key other : Option Text) :
    ∀ v : Value, (v.outline.leaves other).length = (v.leaves key).length
  | null | bool _ | int _ | float _ | text _ | bytes _ | date _ | dateTime _ => rfl
  | list items => length_leaves_outlines key other items
  | map entries => length_leaves_outlinesOfEntries entries

theorem length_leaves_outlines (key other : Option Text) : ∀ items : List Value,
    (leavesOfItems other (outlines items)).length = (leavesOfItems key items).length
  | [] => rfl
  | item :: rest => by
    rw [outlines, leavesOfItems, leavesOfItems, List.length_append, List.length_append,
      length_leaves_outline key other item, length_leaves_outlines key other rest]

theorem length_leaves_outlinesOfEntries : ∀ entries : List (Value × Value),
    (leavesOfEntries (outlinesOfEntries entries)).length = (leavesOfEntries entries).length
  | [] => rfl
  | (key, value) :: rest => by
    rw [outlinesOfEntries, leavesOfEntries, leavesOfEntries, List.length_append,
      List.length_append, length_leaves_outline key.name? key.name? value,
      length_leaves_outlinesOfEntries rest]

end

theorem length_leaves_of_outline {v w : Value} (same : v.outline = w.outline)
    (key : Option Text) : (v.leaves key).length = (w.leaves key).length := by
  rw [← length_leaves_outline key key v, same, length_leaves_outline key key w]

mutual

/-- A value is made up of its outline and its leaves. -/
theorem eq_of_outline_of_leaves (key : Option Text) : ∀ v w : Value,
    v.outline = w.outline → v.leaves key = w.leaves key → v = w
  | text s, w, same, leaves => by
    cases w with
    | text t =>
      rw [Value.leaves, Value.leaves, List.singleton_inj, Prod.mk.injEq] at leaves
      rw [leaves.2]
    | _ => cases same
  | list items, w, same, leaves => by
    cases w with
    | list others =>
      rw [outline, outline, list.injEq] at same
      rw [eq_of_outlines key items others same leaves]
    | _ => cases same
  | map entries, w, same, leaves => by
    cases w with
    | map others =>
      rw [outline, outline, map.injEq] at same
      rw [eq_of_outlinesOfEntries entries others same leaves]
    | _ => cases same
  | null, w, same, _ | bool _, w, same, _ | int _, w, same, _ | float _, w, same, _
  | bytes _, w, same, _ | date _, w, same, _ | dateTime _, w, same, _ => by
    cases w <;> cases same
    rfl

theorem eq_of_outlines (key : Option Text) : ∀ items others : List Value,
    outlines items = outlines others → leavesOfItems key items = leavesOfItems key others →
      items = others
  | [], [], _, _ => rfl
  | [], _ :: _, same, _ | _ :: _, [], same, _ => by cases same
  | item :: rest, other :: more, same, leaves => by
    rw [outlines, outlines, List.cons.injEq] at same
    rw [leavesOfItems, leavesOfItems] at leaves
    obtain ⟨here, later⟩ := List.append_inj leaves (length_leaves_of_outline same.1 key)
    rw [eq_of_outline_of_leaves key item other same.1 here,
      eq_of_outlines key rest more same.2 later]

theorem eq_of_outlinesOfEntries : ∀ entries others : List (Value × Value),
    outlinesOfEntries entries = outlinesOfEntries others →
      leavesOfEntries entries = leavesOfEntries others → entries = others
  | [], [], _, _ => rfl
  | [], _ :: _, same, _ | _ :: _, [], same, _ => by cases same
  | (key, value) :: rest, (other, valueToo) :: more, same, leaves => by
    rw [outlinesOfEntries, outlinesOfEntries, List.cons.injEq, Prod.mk.injEq] at same
    obtain ⟨⟨rfl, here⟩, later⟩ := same
    rw [leavesOfEntries, leavesOfEntries] at leaves
    obtain ⟨first, others⟩ := List.append_inj leaves (length_leaves_of_outline here key.name?)
    rw [eq_of_outline_of_leaves key.name? value valueToo here first,
      eq_of_outlinesOfEntries rest more later others]

end

mutual

/-- Under another name a value has the same texts. -/
theorem texts_leaves (key other : Option Text) :
    ∀ v : Value, (v.leaves key).map Prod.snd = (v.leaves other).map Prod.snd
  | null | bool _ | int _ | float _ | text _ | bytes _ | date _ | dateTime _ | map _ => rfl
  | list items => texts_leavesOfItems key other items

theorem texts_leavesOfItems (key other : Option Text) : ∀ items : List Value,
    (leavesOfItems key items).map Prod.snd = (leavesOfItems other items).map Prod.snd
  | [] => rfl
  | item :: rest => by
    rw [leavesOfItems, leavesOfItems, List.map_append, List.map_append,
      texts_leaves key other item, texts_leavesOfItems key other rest]

end

end PropertyToolkit.Value
