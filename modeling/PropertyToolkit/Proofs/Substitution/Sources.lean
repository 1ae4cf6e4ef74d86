import PropertyToolkit.Substitution.Properties

/-!
What a property map answers when it is the primary source: its own values, and for all other names
what the fallback gives.
-/

set_option autoImplicit false

namespace PropertyToolkit.Substitution

theorem Source.ofTable_congr {first second : Properties}
    (same : ∀ key, first.get? key = second.get? key) :
    Source.ofTable first = Source.ofTable second := by
  have answers : first.get? = second.get? := funext same
  unfold ofTable
  simp only [answers]

namespace Sources

variable {properties : Properties} {fallback : Option Source} {name value : Text}

theorem lookup_of_mem (mem : (name, value) ∈ properties.entries) :
    (⟨some (.ofTable properties), fallback⟩ : Sources).lookup name = .ok value := by
  have found : properties.get? name = some value := Table.get?_eq_some_iff.2 mem
  simp only [lookup, ask, Source.ofTable, found]

theorem lookup_of_not_mem (absent : name ∉ properties.keys) :
    (⟨some (.ofTable properties), fallback⟩ : Sources).lookup name =
      (⟨none, fallback⟩ : Sources).lookup name := by
  have missed : properties.get? name = none := by
    rw [Option.eq_none_iff_forall_not_mem]
    exact fun value found => absent (Source.mem_keys_of_get? found)
  simp only [lookup, ask, Source.ofTable, missed]

/-- Without a fallback there are the values of the map and nothing else. -/
theorem mem_or_nil_of_lookup
    (found : (⟨some (.ofTable properties), none⟩ : Sources).lookup name = .ok value) :
    (name, value) ∈ properties.entries ∨ value = [] := by
  by_cases known : name ∈ properties.keys
  · obtain ⟨entry, mem, rfl⟩ := List.mem_map.1 known
    rw [lookup_of_mem mem] at found
    rw [← Except.ok.inj found]
    exact Or.inl mem
  · rw [lookup_of_not_mem known] at found
    exact Or.inr (Except.ok.inj found).symm

end Sources

end PropertyToolkit.Substitution
