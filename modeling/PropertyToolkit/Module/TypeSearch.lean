import PropertyToolkit.Table
import PropertyToolkit.Text.Cut

/-!
Finding a type by name from a class. The class itself is asked first, then its further bases with
all that is above them, then its primary base with all that is above it. The first answer ends the
search, and so does a loader that fails.
-/

set_option autoImplicit false

namespace PropertyToolkit.Module

/-- A class with its bases, the primary one first; `home` is the module that defines it. -/
inductive ClassType where
  | mk (name home : Text) (bases : List ClassType)

namespace ClassType

def name : ClassType → Text
  | mk name _ _ => name

def home : ClassType → Text
  | mk _ home _ => home

def bases : ClassType → List ClassType
  | mk _ _ bases => bases

/-- The name of a class with the module that defines it. -/
def path (c : ClassType) : Text := c.home ++ ("." ++ c.name)

end ClassType

/-- A search: the classes asked, in order, and what was found in the end. -/
structure Search (ε τ : Type) where
  asked : List ClassType
  result : Except ε (Option τ)

namespace Search

variable {ε τ : Type}

/-- Goes on with another search where the first one has found nothing. -/
def orElse (first : Search ε τ) (next : Unit → Search ε τ) : Search ε τ :=
  match first.result with
  | .ok none =>
    let second := next ()
    ⟨first.asked ++ second.asked, second.result⟩
  | _ => first

mutual

/-- Searches from a class, asking the loader of one class after the other. -/
def fromClass (load : ClassType → Except ε (Option τ)) : ClassType → Search ε τ
  | .mk name home [] => ⟨[.mk name home []], load (.mk name home [])⟩
  | .mk name home (primary :: others) =>
    let start := ClassType.mk name home (primary :: others)
    (Search.mk [start] (load start)).orElse fun _ =>
      (fromEach load others).orElse fun _ => fromClass load primary

/-- Searches from some classes in turn. -/
def fromEach (load : ClassType → Except ε (Option τ)) : List ClassType → Search ε τ
  | [] => ⟨[], .ok none⟩
  | c :: rest => (fromClass load c).orElse fun _ => fromEach load rest

end

/-- Searches from a class that may be absent. -/
def fromRoot (load : ClassType → Except ε (Option τ)) : Option ClassType → Search ε τ
  | none => ⟨[], .ok none⟩
  | some c => fromClass load c

end Search

/-- The attributes of a thing by their names: a type each, or something else. -/
abbrev Attributed (τ : Type) := Table Text (Option τ)

/-- The modules that can be imported, with their attributes. Where a class comes from a module that
is not there, its code sees the attributes of nothing. -/
structure Scope (τ : Type) where
  modules : Table Text (Attributed τ)
  ofNothing : Attributed τ

/-- A name that starts with a dot is relative, and there is nothing that it could be relative to. -/
inductive ImportFault where
  | relativeName
deriving DecidableEq

namespace Scope

variable {τ : Type}

/-- The type that a module has under a name, with the attributes of what stands in for a module that
is not there. -/
def attribute? (scope : Scope τ) (standIn : Attributed τ) (home name : Text) : Option τ :=
  (((scope.modules.get? home).getD standIn).get? name).join

/-- Resolves a type name as code in the module of a class sees it. What follows the last dot is
sought in the module named before it, a name without a dot in the module of the class. -/
def load (scope : Scope τ) (name : Text) (c : ClassType) : Except ImportFault (Option τ) :=
  match name.cutLast? "." with
  | none => .ok (scope.attribute? scope.ofNothing c.home name)
  | some (home, simple) =>
    if home.head? = some (CodePoint.ofChar '.') then .error .relativeName
    else if home = [] then .ok none
    else .ok (scope.attribute? Table.empty home simple)

end Scope

/-- Whether every declared class passes a check, with the classes that were checked: those up to
the first one that fails. -/
def assignable (check : Text → Bool) : List Text → List Text × Bool
  | [] => ([], true)
  | c :: rest =>
    if check c then
      let (checked, holds) := assignable check rest
      (c :: checked, holds)
    else ([c], false)

end PropertyToolkit.Module
