import PropertyToolkit.Proofs.Module.SearchOrder
import PropertyToolkit.Proofs.Text.Cut

/-!
What the code of a module sees under a type name. A name without a dot stands for a type of the
module of the class, or of nothing where that module is not there; any other one names a module, up
to its last dot, and a type of that module. If nothing is there, the name is a miss. Relative names
are the only ones that fail.
-/

set_option autoImplicit false

namespace PropertyToolkit.Module

/-- The separator of a type name. -/
def dot : CodePoint := '.'

/-- What a name says before its last dot starts with a dot itself. -/
def IsRelative (name : Text) : Prop := ∃ rest, name = dot :: rest ∧ dot ∈ rest

theorem dot_infix_iff {t : Text} : ("." : Text) <:+: t ↔ dot ∈ t := List.singleton_infix_iff dot t

/-- A name is without a dot, or it falls at its last one into a module and a simple name. -/
theorem cutLast?_dot_cases (name : Text) :
    (name.cutLast? "." = none ∧ dot ∉ name) ∨
      ∃ home simple, name.cutLast? "." = some (home, simple) ∧ name = home ++ dot :: simple ∧
        dot ∉ simple := by
  have filled : ("." : Text) ≠ [] := List.cons_ne_nil _ _
  cases cut : name.cutLast? "." with
  | none =>
    left
    rw [Text.cutLast?_eq_none_iff filled, dot_infix_iff] at cut
    exact ⟨rfl, cut⟩
  | some parts =>
    right
    obtain ⟨home, simple⟩ := parts
    have last := Text.not_infix_of_cutLast? filled cut
    rw [dot_infix_iff] at last
    exact ⟨home, simple, rfl, Text.eq_of_cutLast? cut, last⟩

theorem cutLast?_dot {home simple : Text} (last : dot ∉ simple) :
    (home ++ dot :: simple).cutLast? "." = some (home, simple) :=
  Text.cutLast?_singleton_append last home

/-- A relative name is one whose module starts with a dot. -/
theorem isRelative_iff {home simple : Text} (last : dot ∉ simple) :
    IsRelative (home ++ dot :: simple) ↔ home.head? = some dot := by
  cases home with
  | nil =>
    refine iff_of_false ?_ (by simp)
    rintro ⟨rest, same, again⟩
    cases same
    exact last again
  | cons c home =>
    rw [List.head?_cons, Option.some.injEq]
    constructor
    · rintro ⟨rest, same, -⟩
      cases same
      rfl
    · intro first
      refine ⟨home ++ dot :: simple, by rw [first, List.cons_append], ?_⟩
      exact List.mem_append_right home (List.mem_cons_self ..)

namespace Scope

variable {τ : Type}

/-- A module can be imported and has a type under a name. -/
def Defines (scope : Scope τ) (home name : Text) (type : τ) : Prop :=
  ∃ attributes, scope.modules.get? home = some attributes ∧ attributes.get? name = some (some type)

theorem attribute?_eq_some_iff {scope : Scope τ} {standIn : Attributed τ} {home name : Text}
    {type : τ} :
    scope.attribute? standIn home name = some type ↔
      scope.Defines home name type ∨
        scope.modules.get? home = none ∧ standIn.get? name = some (some type) := by
  unfold attribute? Defines
  cases scope.modules.get? home with
  | none => simp [Option.join_eq_some_iff]
  | some attributes => simp [Option.join_eq_some_iff]

/-- A module that is not there defines nothing. -/
theorem attribute?_empty_eq_some_iff {scope : Scope τ} {home name : Text} {type : τ} :
    scope.attribute? Table.empty home name = some type ↔ scope.Defines home name type := by
  rw [attribute?_eq_some_iff, or_iff_left]
  rintro ⟨-, bound⟩
  cases bound

/-- A class sees a type under a name. -/
inductive Sees (scope : Scope τ) : ClassType → Text → τ → Prop
  | bare {c : ClassType} {name : Text} {type : τ} (plain : dot ∉ name)
    (defined : scope.Defines c.home name type) : Sees scope c name type
  | orphan {c : ClassType} {name : Text} {type : τ} (plain : dot ∉ name)
    (absent : scope.modules.get? c.home = none)
    (bound : scope.ofNothing.get? name = some (some type)) : Sees scope c name type
  | dotted (c : ClassType) {home simple : Text} {type : τ} (named : home ≠ []) (last : dot ∉ simple)
    (defined : scope.Defines home simple type) : Sees scope c (home ++ dot :: simple) type

theorem sees_bare_iff {scope : Scope τ} {c : ClassType} {name : Text} (plain : dot ∉ name)
    {type : τ} :
    scope.Sees c name type ↔ scope.attribute? scope.ofNothing c.home name = some type := by
  rw [attribute?_eq_some_iff]
  constructor
  · intro sees
    cases sees with
    | bare _ defined => exact .inl defined
    | orphan _ absent bound => exact .inr ⟨absent, bound⟩
    | dotted named last defined => simp at plain
  · rintro (defined | ⟨absent, bound⟩)
    · exact .bare plain defined
    · exact .orphan plain absent bound

theorem sees_dotted_iff {scope : Scope τ} {c : ClassType} {home simple : Text} (last : dot ∉ simple)
    {type : τ} :
    scope.Sees c (home ++ dot :: simple) type ↔ home ≠ [] ∧ scope.Defines home simple type := by
  constructor
  · generalize whole : home ++ dot :: simple = name
    intro sees
    cases sees with
    | bare plain | orphan plain =>
      rw [← whole] at plain
      simp at plain
    | @dotted otherHome otherSimple _ named otherLast defined =>
      -- A name has one last dot, so both ways to part it are the same.
      have cut : (home ++ dot :: simple).cutLast? "." = some (home, simple) := cutLast?_dot last
      rw [whole, cutLast?_dot otherLast] at cut
      cases cut
      exact ⟨named, defined⟩
  · intro parts
    exact .dotted c parts.1 last parts.2

theorem load_of_isRelative (scope : Scope τ) {name : Text} (relative : IsRelative name)
    (c : ClassType) : scope.load name c = .error .relativeName := by
  rcases cutLast?_dot_cases name with ⟨-, plain⟩ | ⟨home, simple, cut, rfl, last⟩
  · obtain ⟨rest, rfl, -⟩ := relative
    exact absurd (List.mem_cons_self ..) plain
  · have first : home.head? = some (CodePoint.ofChar '.') := (isRelative_iff last).1 relative
    rw [load, cut]
    simp only [first, ↓reduceIte]

/-- Any other name gives the type that the class sees, if there is one. -/
theorem exists_load_of_not_isRelative (scope : Scope τ) {name : Text} (absolute : ¬IsRelative name)
    (c : ClassType) :
    ∃ found, scope.load name c = .ok found ∧
      ∀ type, found = some type ↔ scope.Sees c name type := by
  rcases cutLast?_dot_cases name with ⟨cut, plain⟩ | ⟨home, simple, cut, rfl, last⟩
  · refine ⟨scope.attribute? scope.ofNothing c.home name, by rw [load, cut], ?_⟩
    intro type
    rw [sees_bare_iff plain]
  · have first : home.head? ≠ some (CodePoint.ofChar '.') := mt (isRelative_iff last).2 absolute
    by_cases unnamed : home = []
    · refine ⟨none, ?_, ?_⟩
      · rw [load, cut]
        exact (if_neg first).trans (if_pos unnamed)
      · intro type
        rw [sees_dotted_iff last]
        simp [unnamed]
    · refine ⟨scope.attribute? Table.empty home simple, ?_, ?_⟩
      · rw [load, cut]
        exact (if_neg first).trans (if_neg unnamed)
      · intro type
        rw [sees_dotted_iff last, attribute?_empty_eq_some_iff, and_iff_right unnamed]

end Scope

namespace Search

variable {ε τ : Type}

/-- A search whose loader gives what a class sees gives what one of the classes sees, or nothing if
none of them sees anything. -/
theorem Follows.exists_result {load : ClassType → Except ε (Option τ)} {order : List ClassType}
    {search : Search ε τ} (follows : Follows load order search) {sees : ClassType → τ → Prop}
    (loads : ∀ c, ∃ found, load c = .ok found ∧ ∀ type, found = some type ↔ sees c type) :
    ∃ found, search.result = .ok found ∧
      (∀ type, found = some type → ∃ c ∈ order, sees c type) ∧
      (found = none ↔ ∀ c ∈ order, ∀ type, ¬sees c type) := by
  by_cases miss : search.result = .ok none
  · refine ⟨none, miss, ?_, iff_of_true rfl ?_⟩
    · intro type impossible
      cases impossible
    · intro c listed type seen
      obtain ⟨found, loaded, exact⟩ := loads c
      have nothing := follows.result_eq_none_iff.1 miss c listed
      rw [loaded, Except.ok.injEq, (exact type).2 seen] at nothing
      cases nothing
  · obtain ⟨c, listed, answer⟩ := follows.exists_of_ne miss
    obtain ⟨found, loaded, exact⟩ := loads c
    rw [answer] at loaded
    refine ⟨found, loaded, fun type here => ⟨c, listed, (exact type).1 here⟩, ?_⟩
    cases found with
    | none => exact absurd loaded miss
    | some type =>
      apply iff_of_false (Option.some_ne_none type)
      intro unseen
      exact unseen c listed type ((exact type).1 rfl)

/-- What a search finds in a scope. A relative name is an error, of the search as of a single class,
and the first class that is asked ends it. With any other name there is no error: a single class
gives the type that it sees, and the search gives a type that some class on its way sees, or nothing
if none of them sees any. -/
theorem fromRoot_load_outcomes (scope : Scope τ) (name : Text) (c : ClassType) :
    (IsRelative name → scope.load name c = .error .relativeName ∧
      fromRoot (scope.load name) (some c) = ⟨[c], .error .relativeName⟩) ∧
    (¬IsRelative name →
      (∃ found, scope.load name c = .ok found ∧
        ∀ type, found = some type ↔ scope.Sees c name type) ∧
      ∃ found, (fromRoot (scope.load name) (some c)).result = .ok found ∧
        (∀ type, found = some type → ∃ above, c.Reaches above ∧ scope.Sees above name type) ∧
        (found = none ↔ ∀ above, c.Reaches above → ∀ type, ¬scope.Sees above name type)) := by
  constructor
  · intro relative
    have fault := scope.load_of_isRelative relative c
    have answered : (Search.mk [c] (scope.load name c)).result ≠ .ok none := by simp [fault]
    refine ⟨fault, ?_⟩
    rw [fromRoot_eq_through, order, Option.toList_some, List.flatMap_singleton,
      ClassType.lineage_eq, through, orElse_of_ne answered, fault]
  · intro absolute
    have loads := scope.exists_load_of_not_isRelative absolute
    refine ⟨loads c, ?_⟩
    rw [fromRoot_eq_through, order, Option.toList_some, List.flatMap_singleton]
    have follows := through_follows (scope.load name) c.lineage
    obtain ⟨found, result, visible, unseen⟩ := follows.exists_result loads
    simp only [ClassType.mem_lineage_iff] at visible unseen
    exact ⟨found, result, visible, unseen⟩

/-- The module of `..Foo` would be a relative one. -/
theorem fromRoot_load_parent :
    (⟨Table.empty, Table.empty⟩ : Scope Text).load "..Foo" (.mk "object" "builtins" []) =
        .error .relativeName ∧
      (fromRoot ((⟨Table.empty, Table.empty⟩ : Scope Text).load "..Foo")
        (some (.mk "object" "builtins" []))).result = .error .relativeName :=
  ⟨rfl, rfl⟩

end Search

end PropertyToolkit.Module
