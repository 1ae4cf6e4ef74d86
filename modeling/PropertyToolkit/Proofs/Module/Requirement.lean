import PropertyToolkit.Module.Capability
import PropertyToolkit.Proofs.Pattern.Glob
import PropertyToolkit.Proofs.Table

/-!
What a requirement asks for. A requirement can be made of a filter unless one of its texts has two
stars next to each other. It keeps the compiled texts with a star beside the filter, and a
capability satisfies it if every name of the filter is an attribute that matches the compiled text
of the name, or equals the value that is expected if there is none.
-/

set_option autoImplicit false

namespace PropertyToolkit.Module

/-- The text that an expectation wants to be matched; one without a star has to be equal. -/
def wildcard? : Value → Option Text
  | .text t => if t.contains Pattern.star then some t else none
  | _ => none

/-- No two stars stand next to each other. -/
def IsSpaced (expected : Value) : Prop :=
  ∀ t, expected = .text t → ¬[Pattern.star, Pattern.star] <:+: t

/-- The compiled text of an expectation. -/
def compiled? (expected : Value) : Option Pattern :=
  (wildcard? expected).bind fun t => (Pattern.compile t).toOption

theorem wildcard?_eq_some_iff {expected : Value} {t : Text} :
    wildcard? expected = some t ↔ expected = .text t ∧ Pattern.star ∈ t := by
  cases expected with
  | text s =>
    by_cases starred : Pattern.star ∈ s
    · simp only [wildcard?, List.contains_iff_mem, starred, ↓reduceIte, Option.some.injEq,
        Value.text.injEq]
      exact ⟨fun same => ⟨same, same ▸ starred⟩, And.left⟩
    · simp only [wildcard?, List.contains_iff_mem, starred, ↓reduceIte, Value.text.injEq,
        reduceCtorEq, false_iff, not_and]
      exact fun same => same ▸ starred
  | _ => simp [wildcard?]

namespace Requirement

/-! ## Making a requirement -/

theorem compileAll_of_plain {expected : Value} (plain : wildcard? expected = none) (name : Text)
    (rest : List (Text × Value)) : compileAll ((name, expected) :: rest) = compileAll rest := by
  cases expected with
  | text t =>
    have unstarred : ¬t.contains Pattern.star = true := fun starred => by
      rw [wildcard?, if_pos starred] at plain
      cases plain
    rw [compileAll, if_neg unstarred]
  | _ => rfl

theorem compileAll_of_wildcard {expected : Value} {t : Text} (starred : wildcard? expected = some t)
    (name : Text) (rest : List (Text × Value)) :
    compileAll ((name, expected) :: rest) =
      match Pattern.compile t with
      | .error fault => .error fault
      | .ok pattern => (compileAll rest).map ((name, pattern) :: ·) := by
  obtain ⟨rfl, mem⟩ := wildcard?_eq_some_iff.1 starred
  rw [compileAll]
  exact if_pos (List.contains_iff_mem.2 mem)

/-- The entries of a filter with their compiled texts, where there are any. -/
def compiledEntries (entries : List (Text × Value)) : List (Text × Pattern) :=
  entries.filterMap fun entry => (compiled? entry.2).map (entry.1, ·)

theorem compiledEntries_cons (name : Text) (expected : Value) (rest : List (Text × Value)) :
    compiledEntries ((name, expected) :: rest) =
      ((compiled? expected).map (name, ·)).toList ++ compiledEntries rest := by
  unfold compiledEntries
  rw [List.filterMap_cons]
  cases compiled? expected <;> rfl

theorem keys_compiledEntries (entries : List (Text × Value)) :
    ((compiledEntries entries).map Prod.fst).Sublist (entries.map Prod.fst) := by
  induction entries with
  | nil => exact List.Sublist.slnil
  | cons entry rest ih =>
    rw [compiledEntries_cons]
    cases compiled? entry.2 with
    | none => exact ih.cons entry.1
    | some pattern => exact ih.cons_cons entry.1

theorem compileAll_of_spaced {entries : List (Text × Value)}
    (spaced : ∀ entry ∈ entries, IsSpaced entry.2) :
    compileAll entries = .ok (compiledEntries entries) := by
  induction entries with
  | nil => rfl
  | cons entry rest ih =>
    obtain ⟨name, expected⟩ := entry
    obtain ⟨first, others⟩ := List.forall_mem_cons.1 spaced
    rw [compiledEntries_cons, compiled?]
    cases text : wildcard? expected with
    | none => rw [compileAll_of_plain text, ih others, Option.bind_none, Option.map_none]; rfl
    | some t =>
      obtain ⟨pattern, compiles, -⟩ :=
        Pattern.exists_compile_eq_ok (first t (wildcard?_eq_some_iff.1 text).1)
      rw [compileAll_of_wildcard text, compiles, ih others, Option.bind_some, compiles]
      rfl

theorem spaced_of_compileAll {entries : List (Text × Value)} {patterns : List (Text × Pattern)}
    (compiles : compileAll entries = .ok patterns) : ∀ entry ∈ entries, IsSpaced entry.2 := by
  induction entries generalizing patterns with
  | nil => exact nofun
  | cons entry rest ih =>
    obtain ⟨name, expected⟩ := entry
    rw [List.forall_mem_cons]
    cases text : wildcard? expected with
    | none =>
      rw [compileAll_of_plain text] at compiles
      refine ⟨?_, ih compiles⟩
      rintro t rfl doubled
      have starred : Pattern.star ∈ t := doubled.subset (List.mem_cons_self ..)
      rw [wildcard?_eq_some_iff.2 ⟨rfl, starred⟩] at text
      cases text
    | some t =>
      rw [compileAll_of_wildcard text] at compiles
      obtain ⟨rfl, -⟩ := wildcard?_eq_some_iff.1 text
      by_cases doubled : [Pattern.star, Pattern.star] <:+: t
      · rw [Pattern.compile_of_doubled doubled] at compiles
        cases compiles
      · obtain ⟨pattern, compiled, -⟩ := Pattern.exists_compile_eq_ok doubled
        rw [compiled] at compiles
        cases later : compileAll rest with
        | error fault =>
          rw [later] at compiles
          cases compiles
        | ok others =>
          refine ⟨?_, ih later⟩
          rintro _ ⟨⟩
          exact doubled

/-- All expectations of a filter are spaced. -/
def IsSpacedFilter (filter : Attributes) : Prop :=
  ∀ name expected, filter.get? name = some expected → IsSpaced expected

theorem isSpacedFilter_iff {filter : Attributes} :
    IsSpacedFilter filter ↔ ∀ entry ∈ filter.entries, IsSpaced entry.2 := by
  constructor
  · intro spaced entry mem
    exact spaced entry.1 entry.2 (Table.get?_eq_some_iff.2 mem)
  · intro spaced name expected found
    exact spaced (name, expected) (Table.get?_eq_some_iff.1 found)

/-- The requirement of a filter. -/
def of (space : Text) (filter : Attributes) : Requirement :=
  ⟨space, filter, Table.ofList (compiledEntries filter.entries)⟩

theorem make_eq_ok_iff {space : Text} {filter : Attributes} {requirement : Requirement} :
    make space filter = .ok requirement ↔
      IsSpacedFilter filter ∧ requirement = of space filter := by
  rw [isSpacedFilter_iff]
  constructor
  · intro made
    cases compiles : compileAll filter.entries with
    | error fault =>
      rw [make, compiles] at made
      cases made
    | ok patterns =>
      have spaced := spaced_of_compileAll compiles
      rw [make, compileAll_of_spaced spaced] at made
      exact ⟨spaced, (Except.ok.inj made).symm⟩
  · rintro ⟨spaced, rfl⟩
    rw [make, compileAll_of_spaced spaced]
    rfl

/-- A name has the compiled text of what the filter expects under it. -/
theorem get?_patterns_of (space : Text) (filter : Attributes) (name : Text) :
    (of space filter).patterns.get? name = (filter.get? name).bind compiled? := by
  -- The names of a filter are distinct, so no compiled text takes the place of another.
  have keys := keys_compiledEntries filter.entries
  refine Option.ext fun pattern => ?_
  rw [Table.get?_eq_some_iff, of, Table.entries_ofList (filter.distinct.sublist keys)]
  simp only [compiledEntries, List.mem_filterMap, Option.map_eq_some_iff, Prod.mk.injEq,
    Option.bind_eq_some_iff, Table.get?_eq_some_iff]
  constructor
  · rintro ⟨⟨_, expected⟩, mem, _, compiled, rfl, rfl⟩
    exact ⟨expected, mem, compiled⟩
  · rintro ⟨expected, mem, compiled⟩
    exact ⟨(name, expected), mem, pattern, compiled, rfl, rfl⟩

/-! ## Satisfying a requirement -/

/-- Whether a value fits an expectation: it is a text that matches, where there is a text to be
matched, and else equal to what is expected. -/
def Fits (text? : Option Text) (expected actual : Value) : Prop :=
  match text? with
  | some text => ∃ t pattern, actual = .text t ∧ Pattern.compile text = .ok pattern ∧
      pattern.accepts t = true
  | none => actual.same expected = true

theorem meets_iff_fits {old? : Option Value} (spaced : ∀ old, old? = some old → IsSpaced old)
    {expected actual : Value} :
    meets (old?.bind compiled?) expected actual = true ↔
      Fits (old?.bind wildcard?) expected actual := by
  cases text : old?.bind wildcard? with
  | none =>
    have uncompiled : old?.bind compiled? = none := by
      cases old? with
      | none => rfl
      | some old =>
        rw [Option.bind_some] at text
        rw [Option.bind_some, compiled?, text, Option.bind_none]
    rw [uncompiled]
    cases actual <;> exact Iff.rfl
  | some t =>
    obtain ⟨old, rfl, starred⟩ := Option.bind_eq_some_iff.1 text
    obtain ⟨pattern, compiles, -⟩ :=
      Pattern.exists_compile_eq_ok (spaced old rfl t (wildcard?_eq_some_iff.1 starred).1)
    rw [Option.bind_some, compiled?, starred, Option.bind_some, compiles]
    cases actual with
    | text s =>
      change pattern.accepts s = true ↔ _
      constructor
      · intro accepted
        exact ⟨s, pattern, rfl, compiles, accepted⟩
      · rintro ⟨_, other, ⟨⟩, again, accepted⟩
        cases compiles.symm.trans again
        exact accepted
    | _ =>
      apply iff_of_false
      · exact Bool.false_ne_true
      · rintro ⟨_, _, ⟨⟩, -⟩

theorem isSatisfiedBy_iff {requirement : Requirement} {capability : Capability} :
    requirement.isSatisfiedBy capability = true ↔
      capability.space = requirement.space ∧
        ∀ name expected, requirement.filter.get? name = some expected →
          ∃ actual, capability.attributes.get? name = some actual ∧
            meets (requirement.patterns.get? name) expected actual = true := by
  rw [isSatisfiedBy, Bool.and_eq_true, decide_eq_true_eq, List.all_eq_true]
  refine and_congr_right fun _ => ?_
  constructor
  · intro holds name expected found
    have here := holds (name, expected) (Table.get?_eq_some_iff.1 found)
    unfold expectationHolds at here
    cases owned : capability.attributes.get? name with
    | none =>
      rw [owned] at here
      cases here
    | some actual =>
      rw [owned] at here
      exact ⟨actual, rfl, here⟩
  · intro holds entry mem
    obtain ⟨actual, owned, here⟩ := holds entry.1 entry.2 (Table.get?_eq_some_iff.2 mem)
    rw [expectationHolds, owned]
    exact here

/-- A capability offers what a filter expects, where the texts to be matched are those of `origin`,
name by name. -/
def Offers (capability : Capability) (space : Text) (origin filter : Attributes) : Prop :=
  capability.space = space ∧ ∀ name expected, filter.get? name = some expected →
    ∃ actual, capability.attributes.get? name = some actual ∧
      Fits ((origin.get? name).bind wildcard?) expected actual

/-- A requirement asks for its filter, with the texts to be matched of the filter it was made of. -/
theorem isSatisfiedBy_iff_offers {space : Text} {origin : Attributes}
    (spaced : IsSpacedFilter origin) (filter : Attributes) (capability : Capability) :
    { of space origin with filter := filter }.isSatisfiedBy capability = true ↔
      Offers capability space origin filter := by
  simp only [isSatisfiedBy_iff, get?_patterns_of, Offers]
  refine and_congr_right fun _ => forall₃_congr fun name expected _ => exists_congr fun actual => ?_
  exact and_congr_right fun _ => meets_iff_fits (spaced name)

end Requirement

end PropertyToolkit.Module
