import PropertyToolkit.Proofs.Module.Requirement

/-!
Requirements whose filter is changed after they were made. The names and values that are asked for
follow each change; the texts to be matched do not. So the answers are those of a requirement made
of the filter as it is now as long as no name has changed between a text to be matched, another such
text and a value that has to be equal.
-/

set_option autoImplicit false

namespace PropertyToolkit.Module

/-- A change of a filter in place. -/
inductive FilterChange where
  | set (name : Text) (expected : Value)
  | drop (name : Text)

namespace FilterChange

def apply (requirement : Requirement) : FilterChange → Requirement
  | set name expected => requirement.setFilter name expected
  | drop name => requirement.dropFilter name

/-- A change puts no text with two stars next to each other. -/
def IsSpaced : FilterChange → Prop
  | set _ expected => Module.IsSpaced expected
  | drop _ => True

/-- A change has no effect but on the filter. -/
theorem apply_eq (requirement : Requirement) (change : FilterChange) :
    change.apply requirement =
      { requirement with filter := (change.apply requirement).filter } := by
  cases change <;> rfl

theorem isSpacedFilter_apply {requirement : Requirement} {change : FilterChange}
    (before : Requirement.IsSpacedFilter requirement.filter) (spaced : change.IsSpaced) :
    Requirement.IsSpacedFilter (change.apply requirement).filter := by
  intro other expected found
  cases change with
  | set name value =>
    rw [apply, Requirement.setFilter, Table.get?_put] at found
    by_cases here : name = other
    · rw [if_pos here] at found
      cases found
      exact spaced
    · rw [if_neg here] at found
      exact before other expected found
  | drop name =>
    rw [apply, Requirement.dropFilter, Table.get?_erase] at found
    by_cases here : name = other
    · rw [if_pos here] at found
      cases found
    · rw [if_neg here] at found
      exact before other expected found

end FilterChange

namespace Requirement

/-- A requirement after some changes of its filter. -/
def changed (requirement : Requirement) (changes : List FilterChange) : Requirement :=
  changes.foldl FilterChange.apply requirement

theorem changed_eq (requirement : Requirement) (changes : List FilterChange) :
    requirement.changed changes =
      { requirement with filter := (requirement.changed changes).filter } := by
  induction changes generalizing requirement with
  | nil => rfl
  | cons change rest ih =>
    let current := (requirement.changed (change :: rest)).filter
    calc requirement.changed (change :: rest)
        = { change.apply requirement with filter := current } := ih (change.apply requirement)
      _ = { requirement with filter := current } := by rw [FilterChange.apply_eq]

theorem isSpacedFilter_changed {requirement : Requirement} {changes : List FilterChange}
    (before : IsSpacedFilter requirement.filter) (spaced : ∀ change ∈ changes, change.IsSpaced) :
    IsSpacedFilter (requirement.changed changes).filter := by
  induction changes generalizing requirement with
  | nil => exact before
  | cons change rest ih =>
    obtain ⟨first, others⟩ := List.forall_mem_cons.1 spaced
    exact ih (FilterChange.isSpacedFilter_apply before first) others

/-- What becomes of a requirement whose filter is changed. A requirement can be made of the filter
as it is now. The changed requirement asks for this filter with the texts to be matched of the
filter that it was made of, the fresh one with those of the filter itself. They have the same
answers if every name stands for the same text to be matched as before, or as before for none. -/
theorem isSatisfiedBy_changed {space : Text} {filter : Attributes} {requirement : Requirement}
    (made : make space filter = .ok requirement) {changes : List FilterChange}
    (spaced : ∀ change ∈ changes, change.IsSpaced) :
    ∃ fresh, make space (requirement.changed changes).filter = .ok fresh ∧
      ∀ capability,
        ((requirement.changed changes).isSatisfiedBy capability = true ↔
          Offers capability space filter (requirement.changed changes).filter) ∧
        (fresh.isSatisfiedBy capability = true ↔
          Offers capability space (requirement.changed changes).filter
            (requirement.changed changes).filter) ∧
        ((∀ name expected, (requirement.changed changes).filter.get? name = some expected →
            (filter.get? name).bind wildcard? = wildcard? expected) →
          (requirement.changed changes).isSatisfiedBy capability =
            fresh.isSatisfiedBy capability) := by
  obtain ⟨before, rfl⟩ := make_eq_ok_iff.1 made
  have after : IsSpacedFilter ((of space filter).changed changes).filter := by
    apply isSpacedFilter_changed _ spaced
    exact before
  have whole := changed_eq (of space filter) changes
  -- From here on the filter that they leave is all that counts of the changes.
  generalize ((of space filter).changed changes).filter = current at after whole ⊢
  refine ⟨of space current, make_eq_ok_iff.2 ⟨after, rfl⟩, fun capability => ?_⟩
  have stale : ((of space filter).changed changes).isSatisfiedBy capability = true ↔
      Offers capability space filter current := by
    rw [whole]
    exact isSatisfiedBy_iff_offers before current capability
  have live : (of space current).isSatisfiedBy capability = true ↔
      Offers capability space current current :=
    isSatisfiedBy_iff_offers after current capability
  refine ⟨stale, live, fun unchanged => ?_⟩
  rw [Bool.eq_iff_iff, stale, live]
  refine and_congr_right fun _ => forall₃_congr fun name expected found => ?_
  rw [unchanged name expected found, found, Option.bind_some]

/-- Sets a vendor, and drops a version to set it again. -/
def vendorChanges : List FilterChange :=
  [.set "vendor" (.text "acme"), .drop "version", .set "version" (.text "1.*")]

/-- A new expectation without a star, and a pattern that is dropped and set again, leave the two
requirements with the same answers. -/
theorem isSatisfiedBy_changed_vendor :
    ∃ requirement, make "package" (Table.ofList [("version", .text "1.*")]) = .ok requirement ∧
      (∀ change ∈ vendorChanges, change.IsSpaced) ∧
      ∃ fresh, make "package" (requirement.changed vendorChanges).filter = .ok fresh ∧
        ∀ capability, (requirement.changed vendorChanges).isSatisfiedBy capability =
          fresh.isSatisfiedBy capability := by
  have acme : IsSpaced (.text "acme") := by
    intro t same
    cases same
    decide
  have version : IsSpaced (.text "1.*") := by
    intro t same
    cases same
    decide
  have spaced : ∀ change ∈ vendorChanges, change.IsSpaced := by
    simpa [vendorChanges, FilterChange.IsSpaced] using And.intro acme version
  have made : make "package" (Table.ofList [("version", .text "1.*")]) =
      .ok (of "package" (Table.ofList [("version", .text "1.*")])) := rfl
  obtain ⟨fresh, again, answers⟩ := isSatisfiedBy_changed made spaced
  refine ⟨_, made, spaced, fresh, again, fun capability => (answers capability).2.2 ?_⟩
  intro name expected found
  have entry : (name, expected) ∈
      ([("vendor", .text "acme"), ("version", .text "1.*")] : List (Text × Value)) :=
    Table.get?_eq_some_iff.1 found
  simp only [List.mem_cons, List.not_mem_nil, or_false] at entry
  cases entry with
  | inl vendor =>
    cases vendor
    decide
  | inr version =>
    cases version
    decide

/-- The text that was to be matched still is, in place of the value that has to be equal now. -/
theorem isSatisfiedBy_changed_stale :
    ∃ requirement fresh,
      make "package" (Table.ofList [("version", .text "1.*")]) = .ok requirement ∧
      make "package" (requirement.changed [.set "version" (.text "2.0")]).filter = .ok fresh ∧
      (requirement.changed [.set "version" (.text "2.0")]).isSatisfiedBy
        ⟨"package", Table.ofList [("version", .text "1.5")]⟩ = true ∧
      fresh.isSatisfiedBy ⟨"package", Table.ofList [("version", .text "1.5")]⟩ = false :=
  ⟨_, _, rfl, rfl, by decide, by decide⟩

end Requirement

end PropertyToolkit.Module
