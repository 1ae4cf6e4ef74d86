import PropertyToolkit.Proofs.Module.Requirement

/-!
A filter as the conjunction of its entries. Each entry is asked on its own, and the order of the
entries decides nothing but which of several refused texts is reported. So filters over different
names can be put together in any order of their entries: a capability satisfies the whole exactly if
it satisfies the parts.
-/

set_option autoImplicit false

namespace PropertyToolkit.Module

/-- A capability has the attribute that an entry of a filter names, with a value that fits. -/
def Capability.Grants (capability : Capability) (name : Text) (expected : Value) : Prop :=
  ∃ actual, capability.attributes.get? name = some actual ∧
    Requirement.Fits (wildcard? expected) expected actual

/-- A text with two stars next to each other is all that can be wrong with an expectation. -/
theorem not_isSpaced_iff {expected : Value} :
    ¬IsSpaced expected ↔ ∃ t, expected = .text t ∧ [Pattern.star, Pattern.star] <:+: t := by
  unfold IsSpaced
  push Not
  exact Iff.rfl

namespace Requirement

/-! ## Refused filters -/

theorem compileAll_of_doubled {before after : List (Text × Value)} {t : Text}
    (spaced : ∀ entry ∈ before, IsSpaced entry.2)
    (doubled : [Pattern.star, Pattern.star] <:+: t) (name : Text) :
    compileAll (before ++ (name, .text t) :: after) = .error ⟨t⟩ := by
  induction before with
  | nil =>
    have starred : Pattern.star ∈ t := doubled.subset (List.mem_cons_self ..)
    have text : wildcard? (.text t) = some t := wildcard?_eq_some_iff.2 ⟨rfl, starred⟩
    rw [List.nil_append, compileAll_of_wildcard text, Pattern.compile_of_doubled doubled]
  | cons entry before ih =>
    obtain ⟨other, expected⟩ := entry
    obtain ⟨first, others⟩ := List.forall_mem_cons.1 spaced
    have later := ih others
    cases text : wildcard? expected with
    | none => rw [List.cons_append, compileAll_of_plain text, later]
    | some s =>
      have plain := first s (wildcard?_eq_some_iff.1 text).1
      obtain ⟨pattern, compiles, -⟩ := Pattern.exists_compile_eq_ok plain
      rw [List.cons_append, compileAll_of_wildcard text, compiles, later]
      rfl

/-- The first text with two stars next to each other is reported. -/
theorem make_eq_error_iff {space : Text} {filter : Attributes} {fault : Pattern.Fault} :
    make space filter = .error fault ↔
      ∃ before name after, filter.entries = before ++ (name, .text fault.pattern) :: after ∧
        (∀ entry ∈ before, IsSpaced entry.2) ∧
        [Pattern.star, Pattern.star] <:+: fault.pattern := by
  have failing {before after : List (Text × Value)} {name t : Text}
      (split : filter.entries = before ++ (name, .text t) :: after)
      (spaced : ∀ entry ∈ before, IsSpaced entry.2)
      (doubled : [Pattern.star, Pattern.star] <:+: t) : make space filter = .error ⟨t⟩ := by
    rw [make, split, compileAll_of_doubled spaced doubled]
    rfl
  constructor
  · intro failed
    classical
    -- Some entry is to blame, for otherwise the requirement could be made.
    cases culprit : filter.entries.find? fun entry => ¬IsSpaced entry.2 with
    | none =>
      have spaced : ∀ entry ∈ filter.entries, IsSpaced entry.2 := by
        simpa using culprit
      rw [make_eq_ok_iff.2 ⟨isSpacedFilter_iff.2 spaced, rfl⟩] at failed
      cases failed
    | some entry =>
      obtain ⟨bad, before, after, split, fine⟩ := List.find?_eq_some_iff_append.1 culprit
      obtain ⟨name, expected⟩ := entry
      obtain ⟨t, rfl, doubled⟩ := not_isSpaced_iff.1 (of_decide_eq_true bad)
      have spaced : ∀ entry ∈ before, IsSpaced entry.2 := by simpa using fine
      have same := failed.symm.trans (failing split spaced doubled)
      cases same
      exact ⟨before, name, after, split, spaced, doubled⟩
  · rintro ⟨before, name, after, split, spaced, doubled⟩
    exact failing split spaced doubled

theorem exists_make_eq_ok_iff {space : Text} {filter : Attributes} :
    (∃ requirement, make space filter = .ok requirement) ↔
      ∀ entry ∈ filter.entries, IsSpaced entry.2 := by
  rw [← isSpacedFilter_iff]
  constructor
  · rintro ⟨requirement, made⟩
    exact (make_eq_ok_iff.1 made).1
  · intro spaced
    exact ⟨_, make_eq_ok_iff.2 ⟨spaced, rfl⟩⟩

theorem exists_make_eq_error_iff {space : Text} {filter : Attributes} :
    (∃ fault, make space filter = .error fault) ↔
      ∃ name t, filter.get? name = some (.text t) ∧ [Pattern.star, Pattern.star] <:+: t := by
  constructor
  · rintro ⟨fault, failed⟩
    obtain ⟨before, name, after, split, -, doubled⟩ := make_eq_error_iff.1 failed
    have mem : (name, .text fault.pattern) ∈ filter.entries := by
      rw [split]
      exact List.mem_append_right before (List.mem_cons_self ..)
    exact ⟨name, fault.pattern, Table.get?_eq_some_iff.2 mem, doubled⟩
  · rintro ⟨name, t, found, doubled⟩
    cases made : make space filter with
    | error fault => exact ⟨fault, rfl⟩
    | ok requirement =>
      have spaced := (make_eq_ok_iff.1 made).1
      exact absurd doubled (spaced name (.text t) found t rfl)

/-! ## Entries -/

/-- A requirement that was not changed asks every entry of its filter, each on its own. -/
theorem isSatisfiedBy_iff_grants {space : Text} {filter : Attributes} {requirement : Requirement}
    (made : make space filter = .ok requirement) (capability : Capability) :
    requirement.isSatisfiedBy capability = true ↔
      capability.space = space ∧
        ∀ entry ∈ filter.entries, capability.Grants entry.1 entry.2 := by
  obtain ⟨spaced, rfl⟩ := make_eq_ok_iff.1 made
  refine (isSatisfiedBy_iff_offers spaced filter capability).trans ?_
  refine and_congr_right fun _ => ?_
  constructor
  · intro offers entry mem
    have found := Table.get?_eq_some_iff.2 mem
    have granted := offers entry.1 entry.2 found
    rwa [found, Option.bind_some] at granted
  · intro grants name expected found
    have granted := grants (name, expected) (Table.get?_eq_some_iff.1 found)
    rwa [found, Option.bind_some]

/-- Filters over different names, put together in some order of their entries, are a filter with
these entries. -/
theorem entries_ofList_of_perm {f g : Attributes} (apart : ∀ name ∈ f.keys, name ∉ g.keys)
    {entries : List (Text × Value)} (order : entries.Perm (f.entries ++ g.entries)) :
    (Table.ofList entries : Attributes).entries = entries := by
  have both : ((f.entries ++ g.entries).map Prod.fst).Nodup := by
    rw [List.map_append, List.nodup_append]
    refine ⟨f.distinct, g.distinct, ?_⟩
    rintro name left _ right rfl
    exact apart name left right
  apply Table.entries_ofList
  exact ((order.map Prod.fst).nodup_iff).2 both

/-- A requirement cannot be made exactly if some text of its filter has two stars next to each
other. A filter put together from two over different names, in any order of the entries, can be
asked for exactly if both parts can, and what satisfies it is what satisfies both. A filter of a
single entry asks for the namespace, for the attribute, and for a text that matches where the entry
has a text with a star, or else for an equal value. -/
theorem isSatisfiedBy_conjunction (space : Text) :
    (∀ filter, (∃ fault, make space filter = .error fault) ↔
      ∃ name t, filter.get? name = some (.text t) ∧ [Pattern.star, Pattern.star] <:+: t) ∧
    (∀ f g : Attributes, (∀ name ∈ f.keys, name ∉ g.keys) →
      ∀ entries : List (Text × Value), entries.Perm (f.entries ++ g.entries) →
        ((∃ whole, make space (Table.ofList entries) = .ok whole) ↔
          (∃ left, make space f = .ok left) ∧ ∃ right, make space g = .ok right) ∧
        ∀ whole left right, make space (Table.ofList entries) = .ok whole →
          make space f = .ok left → make space g = .ok right →
          ∀ capability, whole.isSatisfiedBy capability =
            (left.isSatisfiedBy capability && right.isSatisfiedBy capability)) ∧
    ∀ name expected single, make space (Table.ofList [(name, expected)]) = .ok single →
      ∀ capability, single.isSatisfiedBy capability = true ↔
        capability.space = space ∧ capability.Grants name expected := by
  refine ⟨fun filter => exists_make_eq_error_iff, ?_, ?_⟩
  · intro f g apart entries order
    have listed := entries_ofList_of_perm apart order
    constructor
    · simp only [exists_make_eq_ok_iff, listed, order.mem_iff, List.forall_mem_append]
    · intro whole left right made leftMade rightMade capability
      rw [Bool.eq_iff_iff, Bool.and_eq_true, isSatisfiedBy_iff_grants made,
        isSatisfiedBy_iff_grants leftMade, isSatisfiedBy_iff_grants rightMade, listed]
      simp only [order.mem_iff, List.forall_mem_append]
      exact and_and_left
  · intro name expected single made capability
    have listed : (Table.ofList [(name, expected)] : Attributes).entries = [(name, expected)] :=
      rfl
    rw [isSatisfiedBy_iff_grants made, listed, List.forall_mem_singleton]

def versionFilter : Attributes := Table.ofList [("version", .text "1.*")]

def originFilter : Attributes := Table.ofList [("vendor", .null), ("depth", .int 1)]

/-- The entries of both filters, one of them between the two of the other. -/
def mixedEntries : List (Text × Value) :=
  [("vendor", .null), ("version", .text "1.*"), ("depth", .int 1)]

/-- An attribute that is null is there, and a truth value counts as a number. -/
def grantingCapability : Capability :=
  ⟨"package", Table.ofList [("version", .text "1.5"), ("depth", .bool true), ("vendor", .null)]⟩

theorem isSatisfiedBy_conjunction_mixed :
    (∀ name ∈ versionFilter.keys, name ∉ originFilter.keys) ∧
      mixedEntries.Perm (versionFilter.entries ++ originFilter.entries) ∧
      ∃ whole left right, make "package" (Table.ofList mixedEntries) = .ok whole ∧
        make "package" versionFilter = .ok left ∧ make "package" originFilter = .ok right ∧
        (∀ capability, whole.isSatisfiedBy capability =
          (left.isSatisfiedBy capability && right.isSatisfiedBy capability)) ∧
        whole.isSatisfiedBy grantingCapability = true := by
  have apart : ∀ name ∈ versionFilter.keys, name ∉ originFilter.keys := by decide
  have order : mixedEntries.Perm (versionFilter.entries ++ originFilter.entries) :=
    List.Perm.swap ..
  obtain ⟨-, joined, -⟩ := isSatisfiedBy_conjunction "package"
  obtain ⟨-, splits⟩ := joined versionFilter originFilter apart mixedEntries order
  have conjunction := splits _ _ _ rfl rfl rfl
  refine ⟨apart, order, _, _, _, rfl, rfl, rfl, conjunction, ?_⟩
  rw [conjunction]
  decide

end Requirement

end PropertyToolkit.Module
