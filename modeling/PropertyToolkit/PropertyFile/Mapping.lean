import PropertyToolkit.PropertyFile.Problem
import PropertyToolkit.PropertyFile.Read
import PropertyToolkit.Yaml.Data

/-!
The properties of a YAML document. Its root is a mapping, or nothing; every entry of the mapping
gives a property or a problem. A name is a text that is not empty, and a value is a scalar or a set.
-/

set_option autoImplicit false

namespace PropertyToolkit.PropertyFile

/-- A value can be written unless it is a number with too many digits. -/
def isWritable : Value → Bool
  | .int n => Integer.isWritable n
  | _ => true

/-- The text of a scalar as a property; null is empty. -/
def scalarProperty : Value → Text
  | .null => []
  | value => value.property

/-- Reads an entry into the properties and problems so far. Nothing comes of an entry that cannot
be written. -/
def Reading.addYaml (runtime : Runtime) (reading : Reading) (name : Value)
    (shape : Yaml.Shape (List Value)) : Option Reading :=
  let failed (problem : Problem) : Reading :=
    { reading with problems := reading.problems ++ [problem] }
  let put (name value : Text) : Reading :=
    { reading with properties := reading.properties.put name value }
  match name, shape with
  | .text (c :: rest), .list => some (failed (.nested (c :: rest) false))
  | .text (c :: rest), .map => some (failed (.nested (c :: rest) true))
  | .text (c :: rest), .scalar value =>
    if isWritable value then some (put (c :: rest) (scalarProperty value)) else none
  | .text (c :: rest), .set items =>
    if items.all isWritable then some (put (c :: rest) (Value.setText (runtime.order items)))
    else none
  | name, _ => if isWritable name then some (failed (.badName name)) else none

/-- Reads the entries of a mapping in turn. An error keeps the problems that were found before the
entry that cannot be written. -/
def readMapping (runtime : Runtime) :
    List (Value × Yaml.Shape (List Value)) → Reading → Except (List Problem) Reading
  | [], reading => .ok reading
  | (name, shape) :: rest, reading =>
    match reading.addYaml runtime name shape with
    | none => .error reading.problems
    | some reading => readMapping runtime rest reading

/-- Reads the root of a document. A null and an empty text count as no root. -/
def readData (runtime : Runtime) : Option Yaml.Data → Except (List Problem) Reading
  | none | some (.scalar .null) | some (.scalar (.text [])) => .ok ⟨Table.empty, []⟩
  | some (.scalar _) | some .collection => .ok ⟨Table.empty, [.notAMapping]⟩
  | some (.map entries) => readMapping runtime entries ⟨Table.empty, []⟩

end PropertyToolkit.PropertyFile
