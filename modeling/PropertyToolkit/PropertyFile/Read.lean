import PropertyToolkit.PropertyFile.Entry
import PropertyToolkit.PropertyFile.Problem
import PropertyToolkit.Substitution.Properties

/-!
Reading a property file in the line format. Every logical line gives an entry or a problem.
-/

set_option autoImplicit false

namespace PropertyToolkit.PropertyFile

/-- The entry of a logical line. The key is looked at before the value. -/
def readEntry (number : Nat) (line : Text) : Except Problem (Text × Text) :=
  let (rawKey, rawValue) := splitEntry line
  match unescape rawKey, unescape rawValue with
  | .error fault, _ | .ok _, .error fault => .error (.malformedEscape number fault.digits)
  | .ok key, .ok value => if key = [] then .error (.emptyName number) else .ok (key, value)

/-- What a file comes to: the properties of its good entries, and the problems of the others. -/
structure Reading where
  properties : Properties
  problems : List Problem

def Reading.add (reading : Reading) (line : Nat × Text) : Reading :=
  match readEntry line.1 line.2 with
  | .error problem => { reading with problems := reading.problems ++ [problem] }
  | .ok (key, value) => { reading with properties := reading.properties.put key value }

def read (t : Text) : Reading := (logicalLines t).foldl Reading.add ⟨Table.empty, []⟩

end PropertyToolkit.PropertyFile
