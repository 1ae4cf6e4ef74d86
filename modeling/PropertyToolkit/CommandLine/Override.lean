import PropertyToolkit.Substitution.Properties
import PropertyToolkit.Text.Cut

/-!
Properties given on the command line, each as a key and a value around the first equals sign.
-/

set_option autoImplicit false

namespace PropertyToolkit.CommandLine

inductive OverrideFault where
  /-- The item has no equals sign. -/
  | noEquals (item : Text)
  /-- The item starts with its first equals sign. -/
  | noKey (item : Text)
deriving DecidableEq

def OverrideFault.message : OverrideFault → Text
  | noEquals item => "Invalid property format: " ++ (item ++ ". Expected KEY=VALUE")
  | noKey item => "Invalid KEY in pair: " ++ item

def readOverride (item : Text) : Except OverrideFault (Text × Text) :=
  match item.cutFirst? "=" with
  | none => .error (.noEquals item)
  | some (key, value) => if key = [] then .error (.noKey item) else .ok (key, value)

/-- The properties of some items; the last item of a key counts. -/
def readOverrides (items : List Text) : Except OverrideFault Properties :=
  (items.mapM readOverride).map Table.ofList

end PropertyToolkit.CommandLine
