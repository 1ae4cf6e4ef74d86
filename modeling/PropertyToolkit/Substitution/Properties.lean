import PropertyToolkit.Substitution.Environment
import PropertyToolkit.Substitution.Expand

/-!
Expanding values and whole maps. In nested data every text is expanded under the key of the entry
around it. A property map is expanded against itself, each value under its own key.
-/

set_option autoImplicit false

namespace PropertyToolkit

/-- Properties by name. -/
abbrev Properties := Table Text Text

namespace Properties

/-- The texts of the keys and values of a map of dynamic values. -/
def ofEntries (entries : List (Value × Value)) : Properties :=
  Table.ofList (entries.map fun entry => (entry.1.display, entry.2.property))

end Properties

namespace Substitution

mutual

/-- Expands every text of a value; `key` is the name whose value this is. -/
def substitute (sources : Sources) (key : Option Text) : Value → Except Fault Value
  | .text t => (expand sources t key []).result.map .text
  | .list items => (substituteItems sources key items).map .list
  | .map entries => (substituteEntries sources entries).map .map
  | value => .ok value

def substituteItems (sources : Sources) (key : Option Text) : List Value → Except Fault (List Value)
  | [] => .ok []
  | item :: rest => do
    let item ← substitute sources key item
    let rest ← substituteItems sources key rest
    return item :: rest

def substituteEntries (sources : Sources) :
    List (Value × Value) → Except Fault (List (Value × Value))
  | [] => .ok []
  | (key, value) :: rest => do
    let value ← substitute sources key.name? value
    let rest ← substituteEntries sources rest
    return (key, value) :: rest

end

/-- What came of expanding several values, with all that happened on the way. -/
structure Resolution (α : Type) where
  result : Except Fault α
  journal : Journal

/-- Expands values one after the other, each under its own name, up to the first fault. -/
def expandEach (sources : Sources) : List (Text × Text) → Resolution (List (Text × Text))
  | [] => ⟨.ok [], []⟩
  | (name, value) :: rest =>
    let expansion := expand sources value (some name) []
    match expansion.result with
    | .error fault => ⟨.error fault, expansion.journal⟩
    | .ok t =>
      let others := expandEach sources rest
      ⟨others.result.map ((name, t) :: ·), expansion.journal ++ others.journal⟩

/-- Expands a property map against itself, with a fallback for names that it lacks. -/
def resolveAll (fallback : Option Source) (properties : Properties) :
    Resolution (List (Text × Text)) :=
  expandEach ⟨some (.ofTable properties), fallback⟩ properties.entries

end Substitution

end PropertyToolkit
