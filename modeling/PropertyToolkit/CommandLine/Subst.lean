import PropertyToolkit.CommandLine.Override
import PropertyToolkit.CommandLine.Report
import PropertyToolkit.CommandLine.Request

/-!
The command that expands properties. Later files win over earlier ones, and overrides over all
files. Each property is printed as a key and its expanded value: the requested keys in order, or all
keys sorted. Nothing is printed unless all of them can be expanded.
-/

set_option autoImplicit false

namespace PropertyToolkit.CommandLine

inductive SubstFault where
  | noFile (path : Path)
  /-- It cannot be told whether there is a file. -/
  | unreachable (fault : AccessFault) (path : Path)
  | load (fault : PropertyFile.LoadFault)
  | override (fault : OverrideFault)
  | expansion (fault : Substitution.Fault)

namespace SubstFault

def record (message : Text) : Record := ⟨.subst, .error, message⟩

def invalid (message : Text) : Record := record ("Validation error: " ++ message)

/-- How a fault is reported. A load that has no message is not caught, and neither is a file of
which it cannot be told whether it is there. -/
def report : SubstFault → Report
  | noFile path => ⟨[record ("Properties file not found: " ++ path.text)], [], .ok 1⟩
  | unreachable fault path => ⟨[], [], .error (.access fault path)⟩
  | load (.invalid problems) => ⟨problems.map fun problem => invalid problem.message, [], .ok 2⟩
  | load fault =>
    match fault.message? with
    | some message => ⟨[invalid message], [], .ok 2⟩
    | none => ⟨[], [], .error (.load fault)⟩
  | override fault => ⟨[invalid fault.message], [], .ok 2⟩
  | expansion (.refused refusal) => ⟨[invalid refusal.message], [], .ok 2⟩
  | expansion fault =>
    ⟨[record ("Substitution error (" ++ (fault.kind ++ ("): " ++ fault.message)))], [], .ok 2⟩

end SubstFault

abbrev Attempt := Logged SubstFault

namespace SubstRequest

/-- Loads one file. -/
def loadFile (files : Files) (path : Path) : Attempt Properties := do
  match files.has path with
  | .error fault => .ofExcept (.error (.unreachable fault path))
  | .ok false => .ofExcept (.error (.noFile path))
  | .ok true => do
    .tell ⟨.subst, .info, "Loading properties: " ++ path.text⟩
    let properties ← .ofExcept ((PropertyFile.load files path).result.mapError .load)
    .tell ⟨.propertyFile, .debug, "Loaded " ++ (Text.ofNat properties.entries.length ++
      (" properties from " ++ path.text))⟩
    return properties

/-- Loads files on top of each other. -/
def loadAll (files : Files) : List Path → Properties → Attempt Properties
  | [], properties => pure properties
  | path :: rest, properties => do
    let loaded ← loadFile files path
    loadAll files rest (properties.update loaded)

/-- The properties of a request: those of its files, with the overrides on top. -/
def properties (files : Files) (request : SubstRequest) : Attempt Properties := do
  let loaded ← loadAll files (request.files.map Path.ofText) Table.empty
  let overrides ← .ofExcept ((readOverrides request.overrides).mapError .override)
  return loaded.update overrides

/-- Expands one property against all of them. -/
def resolveKey (fallback : Option Substitution.Source) (properties : Properties)
    (key value : Text) : Attempt Text :=
  let expansion := Substitution.expand ⟨some (.ofTable properties), fallback⟩ value (some key) []
  ⟨expansion.result.mapError .expansion, .ofJournal expansion.journal⟩

/-- Expands the properties of some keys; a key without a property is passed over. -/
def resolveKeys (fallback : Option Substitution.Source) (properties : Properties) :
    List Text → Properties → Attempt Properties
  | [], resolved => pure resolved
  | key :: rest, resolved =>
    match properties.get? key with
    | none => do
      .tell ⟨.subst, .warning, "Property not defined: " ++ key⟩
      resolveKeys fallback properties rest resolved
    | some value => do
      let expanded ← resolveKey fallback properties key value
      resolveKeys fallback properties rest (resolved.put key expanded)

/-- Expands all properties. -/
def resolveAll (fallback : Option Substitution.Source) (properties : Properties) :
    Attempt Properties := do
  let resolution := Substitution.resolveAll fallback properties
  let pairs ← ⟨resolution.result.mapError .expansion, .ofJournal resolution.journal⟩
  .tell ⟨.substitution, .debug, "Resolved " ++ (Text.ofNat pairs.length ++ " properties")⟩
  return Table.ofList pairs

/-- The line of a key; a key without a property has an empty value. -/
def line (resolved : Properties) (key : Text) : Text :=
  key ++ ("=" ++ ((resolved.get? key).getD [] ++ "\n"))

/-- The lines of a request. -/
def lines (files : Files) (environment : Environment) (request : SubstRequest) :
    Attempt (List Text) := do
  let properties ← request.properties files
  let fallback := if request.useEnvironment then some environment.source else none
  if request.keys = [] then do
    let resolved ← resolveAll fallback properties
    return (Text.sorted resolved.keys).map (line resolved)
  else do
    let resolved ← resolveKeys fallback properties request.keys Table.empty
    return request.keys.map (line resolved)

def run (files : Files) (environment : Environment) (request : SubstRequest) : Report :=
  let attempt := request.lines files environment
  match attempt.result with
  | .ok lines => ⟨attempt.log, lines, .ok 0⟩
  | .error fault =>
    let report := fault.report
    { report with log := attempt.log ++ report.log }

end SubstRequest

end PropertyToolkit.CommandLine
