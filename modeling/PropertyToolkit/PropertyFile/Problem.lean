import PropertyToolkit.Files.Access
import PropertyToolkit.Number.Integer
import PropertyToolkit.Value.Basic

/-!
What can be wrong with a property file. A problem has a place, which is a line, a name or nothing,
and a message; all problems of a file are reported together.
-/

set_option autoImplicit false

namespace PropertyToolkit.PropertyFile

inductive Problem where
  | inaccessible (fault : AccessFault) (path : Text)
  | unsupported (suffix : Text)
  | malformedEscape (line : Nat) (digits : Text)
  | emptyName (line : Nat)
  | malformedYaml
  | notAMapping
  /-- A name is not a text, or it is empty. -/
  | badName (name : Value)
  /-- A property has a map or a list for its value. -/
  | nested (name : Text) (isMap : Bool)

namespace Problem

def malformedEscapeMessage (digits : Text) : Text := "Malformed \\uXXXX encoding: \\u" ++ digits

def supportedSuffixes : List Text := [".conf", ".properties", ".props", ".yaml", ".yml"]

def message : Problem → Text
  | inaccessible fault path =>
    "Failed to read properties: " ++ (fault.message ++ (": " ++ path.quoted))
  | unsupported suffix =>
    "Unsupported property file type '" ++ (suffix ++ ("'. Supported: " ++
      Text.bracketed (supportedSuffixes.map Text.quoted)))
  | malformedEscape _ digits => malformedEscapeMessage digits
  | emptyName _ => "Property name must not be empty"
  | malformedYaml => "Failed to parse YAML"
  | notAMapping => "Properties must be a YAML mapping of names to values"
  | badName name => "Property name must be a non-empty string, got " ++ name.quoted
  | nested _ isMap =>
    "Property value must be a scalar, got " ++ if isMap then ("dict" : Text) else "list"

/-- The place of a problem; empty if it concerns the whole file. -/
def place : Problem → Text
  | malformedEscape line _ | emptyName line => "line " ++ Text.ofNat line
  | nested name _ => name
  | _ => []

/-- The exit code that a problem stands for. -/
def exitCode : Problem → Nat := fun _ => 2

/-- The message of a problem with its place. -/
def report (problem : Problem) : Text :=
  if problem.place = [] then "Validation error: " ++ problem.message
  else "Validation error at '" ++ (problem.place ++ ("': " ++ problem.message))

/-- All problems of a file, one to a line. -/
def reportAll (problems : List Problem) : Text :=
  List.intercalate "\n" (problems.map report)

end Problem

end PropertyToolkit.PropertyFile
