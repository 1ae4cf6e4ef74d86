import PropertyToolkit.PropertyFile.Mapping
import PropertyToolkit.Text.Utf8

/-!
Loading a property file. The file is read first, and its type is told by the suffix of its path. All
problems of a file are reported together; a few faults end the loading at once, for they leave
nothing to be checked.
-/

set_option autoImplicit false

namespace PropertyToolkit.PropertyFile

inductive LoadFault where
  /-- The file has problems. -/
  | invalid (problems : List Problem)
  /-- The path can name no file. -/
  | unnameable (fault : Path.NameFault)
  | undecodable (fault : Utf8.DecodeFault)
  /-- A YAML scalar has no value, or the stack does not reach. -/
  | noValue (fault : Yaml.Fault)
  /-- A number has too many digits to be written. -/
  | unwritable

/-- What came of loading a file. The problems are those found up to the end of it. -/
structure Load where
  result : Except LoadFault Properties
  problems : List Problem

namespace Load

def failed (fault : LoadFault) : Load := ⟨.error fault, []⟩

/-- One problem or more make a file invalid. -/
def ofReading (reading : Reading) : Load where
  result :=
    if reading.problems = [] then .ok reading.properties else .error (.invalid reading.problems)
  problems := reading.problems

/-- A file with a single problem. -/
def ofProblem (problem : Problem) : Load := ofReading ⟨Table.empty, [problem]⟩

end Load

/-- The languages that property files are written in. -/
inductive Language where
  | yaml
  | lines

/-- The language of the files with some suffix. -/
def Language.ofType? (fileType : Text) : Option Language :=
  if fileType ∈ ([".yaml", ".yml"] : List Text) then some yaml
  else if fileType ∈ ([".properties", ".props", ".conf"] : List Text) then some lines
  else none

def loadYaml (runtime : Runtime) (t : Text) : Load :=
  match Yaml.read runtime t with
  | .error .malformed => .ofProblem .malformedYaml
  | .error fault => .failed (.noValue fault)
  | .ok data? =>
    match readData runtime data? with
    | .error problems => ⟨.error .unwritable, problems⟩
    | .ok reading => .ofReading reading

/-- Loads the text of a file with some suffix. -/
def loadText (runtime : Runtime) (fileType : Text) (t : Text) : Load :=
  match Language.ofType? fileType with
  | none => .ofProblem (.unsupported fileType)
  | some .yaml => loadYaml runtime t
  | some .lines => .ofReading (read t)

def load (files : Files) (path : Path) : Load :=
  match path.nameFault? with
  | some fault => .failed (.unnameable fault)
  | none =>
    match files path with
    | .error fault => .ofProblem (.inaccessible fault path.text)
    | .ok bytes =>
      match Utf8.decode bytes with
      | .error fault => .failed (.undecodable fault)
      | .ok t => loadText files.runtime path.fileType t.withLineFeeds

namespace LoadFault

/-- What a fault says where it is reported in one line. Some faults of YAML values say nothing. -/
def message? : LoadFault → Option Text
  | invalid problems => some (Problem.reportAll problems)
  | unnameable fault => some fault.message
  | undecodable fault => some fault.message
  | noValue fault => fault.message?
  | unwritable => some Integer.unwritableMessage

end LoadFault

end PropertyToolkit.PropertyFile
