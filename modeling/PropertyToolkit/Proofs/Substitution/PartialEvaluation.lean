import PropertyToolkit.Proofs.Substitution.Advance
import PropertyToolkit.Proofs.Substitution.Journal
import PropertyToolkit.Proofs.Substitution.Sources

/-!
Expanding a part of a property map in advance. A map that can be resolved may take any of its values
from what it resolves to; it still resolves, and to the same.
-/

set_option autoImplicit false

namespace PropertyToolkit

/-- The properties with the values of some names taken from a resolved map. -/
def Properties.takeFrom (properties : Properties) (resolved : List (Text × Text))
    (names : Substitution.Names) : Properties :=
  properties.map fun name value =>
    if name ∈ names then ((resolved.find? fun entry => entry.1 = name).map Prod.snd).getD value
    else value

namespace Substitution

open Marked

/-- Each value with what it expands to, under its own name. -/
def Resolves (sources : Sources) (entry final : Text × Text) : Prop :=
  final.1 = entry.1 ∧ (expand sources entry.2 (some entry.1) []).result = .ok final.2

theorem expandEach_eq_ok_iff (sources : Sources) {entries finals : List (Text × Text)} :
    (expandEach sources entries).result = .ok finals ↔
      List.Forall₂ (Resolves sources) entries finals := by
  induction entries generalizing finals with
  | nil =>
    rw [List.forall₂_nil_left_iff, expandEach, Except.ok.injEq]
    exact eq_comm
  | cons entry rest ih =>
    rw [List.forall₂_cons_left_iff, expandEach]
    simp only
    constructor
    · intro done
      split at done
      · cases done
      · next t expanded =>
        cases others : (expandEach sources rest).result with
        | error fault =>
          rw [others] at done
          cases done
        | ok tail =>
          rw [others] at done
          cases done
          exact ⟨(entry.1, t), tail, ⟨rfl, expanded⟩, ih.1 others, rfl⟩
    · rintro ⟨⟨name, final⟩, tail, ⟨rfl, expanded⟩, others, rfl⟩
      rw [expanded]
      simp only [ih.2 others]
      rfl

theorem exists_of_mem_entries {sources : Sources} {entries finals : List (Text × Text)}
    (resolved : List.Forall₂ (Resolves sources) entries finals) {name value : Text}
    (mem : (name, value) ∈ entries) :
    ∃ final, (name, final) ∈ finals ∧ (expand sources value (some name) []).result = .ok final := by
  induction resolved with
  | nil => cases mem
  | @cons entry first _ _ here _ ih =>
    rcases List.mem_cons.1 mem with rfl | later
    · obtain ⟨named, expanded⟩ := here
      exact ⟨first.2, List.mem_cons.2 (Or.inl (Prod.ext named.symm rfl)), expanded⟩
    · obtain ⟨final, found, expanded⟩ := ih later
      exact ⟨final, List.mem_cons_of_mem _ found, expanded⟩

theorem exists_of_mem_finals {sources : Sources} {entries finals : List (Text × Text)}
    (resolved : List.Forall₂ (Resolves sources) entries finals) {name final : Text}
    (mem : (name, final) ∈ finals) :
    ∃ value, (name, value) ∈ entries ∧
      (expand sources value (some name) []).result = .ok final := by
  induction resolved with
  | nil => cases mem
  | @cons entry first _ _ here _ ih =>
    rcases List.mem_cons.1 mem with rfl | later
    · obtain ⟨rfl, expanded⟩ := here
      exact ⟨entry.2, List.mem_cons_self .., expanded⟩
    · obtain ⟨value, listed, expanded⟩ := ih later
      exact ⟨value, List.mem_cons_of_mem _ listed, expanded⟩

theorem map_fst_of_resolves {sources : Sources} {entries finals : List (Text × Text)}
    (resolved : List.Forall₂ (Resolves sources) entries finals) :
    finals.map Prod.fst = entries.map Prod.fst := by
  induction resolved with
  | nil => rfl
  | cons here _ ih => rw [List.map_cons, List.map_cons, here.1, ih]

/-- What an expansion gives is settled, and expands to itself. -/
theorem expand_of_result {sources : Sources} {t final : Text} {key : Option Text} {busy : Names}
    (expanded : (expand sources t key busy).result = .ok final) (others : Sources) :
    (expand others final key busy).result = .ok final :=
  result_expand_settled (settled_of_result expanded) others key busy

section

variable {fallback : Option Source} {properties : Properties} {resolved : List (Text × Text)}
  {names : Names} {name value final : Text}

/-- The value of a name in a map that takes some values from a resolved one. -/
theorem mem_takeFrom (distinct : (resolved.map Prod.fst).Nodup)
    (mem : (name, value) ∈ properties.entries) (known : (name, final) ∈ resolved) :
    (name, if name ∈ names then final else value) ∈
      (properties.takeFrom resolved names).entries := by
  have found := Table.find?_of_mem distinct known
  refine List.mem_map.2 ⟨(name, value), mem, ?_⟩
  simp only [found, Option.map_some, Option.getD_some]

theorem nodup_of_resolveAll (done : (resolveAll fallback properties).result = .ok resolved) :
    (resolved.map Prod.fst).Nodup := by
  rw [map_fst_of_resolves ((expandEach_eq_ok_iff _).1 done)]
  exact properties.distinct

theorem keys_takeFrom : (properties.takeFrom resolved names).keys = properties.keys := by
  simp only [Properties.takeFrom, Table.map, Table.keys, List.map_map, Function.comp_def]

/-- A map that takes some values from a resolved one has these values in advance. -/
theorem advances_takeFrom
    (done : (resolveAll fallback properties).result = .ok resolved) (names : Names) :
    Advances (⟨some (.ofTable properties), fallback⟩ : Sources).lookup
      (⟨some (.ofTable (properties.takeFrom resolved names)), fallback⟩ : Sources).lookup := by
  have pairs := (expandEach_eq_ok_iff _).1 done
  have distinct := nodup_of_resolveAll done
  intro name
  by_cases listed : name ∈ properties.keys
  · obtain ⟨⟨_, value⟩, mem, rfl⟩ := List.mem_map.1 listed
    obtain ⟨final, known, expanded⟩ := exists_of_mem_entries pairs mem
    rw [Sources.lookup_of_mem mem, Sources.lookup_of_mem (mem_takeFrom distinct mem known)]
    split
    · obtain ⟨passed, ends⟩ := expand_ends ⟨some (.ofTable properties), fallback⟩ value (some _) []
      rw [expanded] at ends
      exact Or.inr ⟨value, final, passed, rfl, rfl, ends⟩
    · exact Or.inl rfl
  · have unlisted : name ∉ (properties.takeFrom resolved names).keys := by rwa [keys_takeFrom]
    rw [Sources.lookup_of_not_mem listed, Sources.lookup_of_not_mem unlisted]
    exact Or.inl rfl

end

/-- A property map that can be resolved resolves to the same when any of its values are resolved
before. -/
theorem resolveAll_takeFrom (fallback : Option Source) (properties : Properties)
    (resolved : List (Text × Text))
    (done : (resolveAll fallback properties).result = .ok resolved) (names : Names) :
    (resolveAll fallback (properties.takeFrom resolved names)).result = .ok resolved := by
  have pairs := (expandEach_eq_ok_iff _).1 done
  have distinct := nodup_of_resolveAll done
  refine (expandEach_eq_ok_iff _).2 (List.forall₂_map_left_iff.2 (List.forall₂_iff_zip.2
    ⟨pairs.length_eq, fun {entry final} both => ?_⟩))
  obtain ⟨named, expanded⟩ := List.forall₂_zip pairs both
  have known : (entry.1, final.2) ∈ resolved := named ▸ (List.of_mem_zip both).2
  refine ⟨named, ?_⟩
  simp only [Table.find?_of_mem distinct known, Option.map_some, Option.getD_some]
  split
  · exact expand_of_result expanded _
  · obtain ⟨passed, ends⟩ := expand_ends ⟨some (.ofTable properties), fallback⟩ entry.2
      (some entry.1) []
    rw [expanded] at ends
    obtain ⟨_, later⟩ := (advances_takeFrom done names).ends_ok ends (Fewer.refl _)
    exact result_of_ends later

/-- Properties whose values are halves of placeholders. -/
def halves : Properties where
  entries := [("open", "$\x7b"), ("again", "$\x7bopen\x7d"), ("name", "x"),
    ("joined", "$\x7bagain\x7dname\x7d")]
  distinct := by decide

/-- The opening that a name leaves behind is completed by the text around it, whether the name has
its own value or what that expands to. -/
theorem resolveAll_halves :
    (resolveAll none halves).result =
        .ok [("open", "$\x7b"), ("again", "$\x7b"), ("name", "x"), ("joined", "x")] ∧
      (resolveAll none (halves.takeFrom
          [("open", "$\x7b"), ("again", "$\x7b"), ("name", "x"), ("joined", "x")]
          ["again"])).result =
        .ok [("open", "$\x7b"), ("again", "$\x7b"), ("name", "x"), ("joined", "x")] := by
  have done : (resolveAll none halves).result =
      .ok [("open", "$\x7b"), ("again", "$\x7b"), ("name", "x"), ("joined", "x")] := by
    refine (expandEach_eq_ok_iff _).2 (.cons ⟨rfl, ?_⟩ (.cons ⟨rfl, ?_⟩ (.cons ⟨rfl, ?_⟩
      (.cons ⟨rfl, ?_⟩ .nil))))
    · exact result_expand_of_turns 1 (by decide +kernel)
    · exact result_expand_of_turns 2 (by decide +kernel)
    · exact result_expand_of_turns 1 (by decide +kernel)
    · exact result_expand_of_turns 4 (by decide +kernel)
  exact ⟨done, resolveAll_takeFrom none halves _ done ["again"]⟩

end Substitution

end PropertyToolkit
