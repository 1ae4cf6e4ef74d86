import PropertyToolkit.Pattern
import PropertyToolkit.Table
import PropertyToolkit.Value.Basic

/-!
Modules, what they offer and what they need. A requirement is a conjunction of expectations on the
attributes of a capability of its namespace. An expected text with a star is a pattern; anything
else has to be equal. Patterns are compiled when the requirement is made, and a later change of its
filter does not compile them again.
-/

set_option autoImplicit false

namespace PropertyToolkit.Module

/-- The namespace of exported packages, and the attribute that names the package. -/
def packageNamespace : Text := "package"

/-- The header by which a module declares itself a fragment of another one. -/
def fragmentHost : Text := "Fragment-Host"

abbrev Attributes := Table Text Value

structure Capability where
  space : Text
  attributes : Attributes

namespace Capability

/-- The package that a capability names; null if it names none. -/
def packageName (capability : Capability) : Value :=
  (capability.attributes.get? packageNamespace).getD .null

end Capability

structure Requirement where
  space : Text
  filter : Attributes
  patterns : Table Text Pattern

namespace Requirement

/-- Compiles the expected texts that hold a star. -/
def compileAll : List (Text × Value) → Except Pattern.Fault (List (Text × Pattern))
  | [] => .ok []
  | (name, .text expected) :: rest =>
    if expected.contains Pattern.star then
      match Pattern.compile expected with
      | .error fault => .error fault
      | .ok pattern => (compileAll rest).map ((name, pattern) :: ·)
    else compileAll rest
  | _ :: rest => compileAll rest

def make (space : Text) (filter : Attributes) : Except Pattern.Fault Requirement :=
  (compileAll filter.entries).map fun patterns => ⟨space, filter, Table.ofList patterns⟩

/-- Changes one expectation; the patterns stay as they are. -/
def setFilter (requirement : Requirement) (name : Text) (expected : Value) : Requirement :=
  { requirement with filter := requirement.filter.put name expected }

/-- Drops one expectation; the patterns stay as they are. -/
def dropFilter (requirement : Requirement) (name : Text) : Requirement :=
  { requirement with filter := requirement.filter.erase name }

/-- Whether an attribute meets an expectation, for which there may be a pattern. -/
def meets (pattern? : Option Pattern) (expected actual : Value) : Bool :=
  match pattern?, actual with
  | some pattern, .text t => pattern.accepts t
  | some _, _ => false
  | none, _ => actual.same expected

/-- Whether a capability has the attribute of an expectation and meets it. -/
def expectationHolds (requirement : Requirement) (capability : Capability)
    (expectation : Text × Value) : Bool :=
  match capability.attributes.get? expectation.1 with
  | none => false
  | some actual => meets (requirement.patterns.get? expectation.1) expectation.2 actual

def isSatisfiedBy (requirement : Requirement) (capability : Capability) : Bool :=
  capability.space = requirement.space &&
    requirement.filter.entries.all (requirement.expectationHolds capability)

end Requirement

/-- A wire joins a module that imports to a capability of a module that exports. -/
structure Wire where
  importer : Text
  exporter : Text
  capability : Capability

end Module

/-- A module: absent headers are not the same as none. -/
structure Module where
  id : Text
  headers : Option (Table Text Text)
  capabilities : List Module.Capability
  wires : List Module.Wire

namespace Module

/-- The position of the first capability that satisfies a requirement. -/
def satisfying? (host : Module) (requirement : Requirement) : Option Nat :=
  host.capabilities.findIdx? requirement.isSatisfiedBy

/-- The positions of the capabilities of a namespace. -/
def capabilitiesIn (host : Module) (space : Text) : List Nat :=
  (host.capabilities.zipIdx.filter fun entry => entry.1.space = space).map Prod.snd

/-- The position of the first wire to a given package. -/
def wire? (host : Module) (package : Value) : Option Nat :=
  host.wires.findIdx? fun wire =>
    wire.capability.space = packageNamespace && wire.capability.packageName.same package

/-- Whether a module is a fragment; `none` if its headers are absent. -/
def isFragment? (host : Module) : Option Bool :=
  host.headers.map fun headers => headers.contains fragmentHost

end Module

end PropertyToolkit
