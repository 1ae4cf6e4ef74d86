import PropertyToolkit.Proofs.PropertyFile.Reading
import PropertyToolkit.Proofs.Yaml.Data

/-!
All that may become of a file. It is loaded or refused, unless it has one of a few faults that are
not collected among its problems: bytes that are no text, and in YAML the lexical faults of numbers,
a text that does not fit the tag that is spelled at it, parts that wait for each other beyond the
reach of the stack, and an integer with too many digits.
-/

set_option autoImplicit false

namespace PropertyToolkit.PropertyFile

/-! ## YAML documents -/

variable {runtime : Runtime} {given : Yaml.Tag → Prop}

theorem Reading.IsNamed.addYaml {reading after : Reading} (named : reading.IsNamed) {name : Value}
    {shape : Yaml.Shape (List Value)} (added : reading.addYaml runtime name shape = some after) :
    after.IsNamed := by
  unfold Reading.addYaml at added
  split at added
  · cases added
    exact named
  · cases added
    exact named
  · split at added
    · cases added
      exact named.put (List.cons_ne_nil _ _) _
    · cases added
  · split at added
    · cases added
      exact named.put (List.cons_ne_nil _ _) _
    · cases added
  · split at added
    · cases added
      exact named
    · cases added

/-- The bytes are a text in YAML, with line feeds for its line breaks. -/
structure IsYaml (fileType : Text) (bytes : List UInt8) (t : Text) : Prop where
  language : Language.ofType? fileType = some .yaml
  decoded : (Utf8.decode bytes).map Text.withLineFeeds = .ok t

open Yaml (TokenStream)

theorem loadYaml_of_malformed {t : Text} (failed : Yaml.read runtime t = .error .malformed) :
    loadYaml runtime t = .ofProblem .malformedYaml := by
  rw [loadYaml, failed]

theorem loadYaml_of_reading {t : Text} {data? : Option Yaml.Data} {reading : Reading}
    (read : Yaml.read runtime t = .ok data?) (done : readData runtime data? = .ok reading) :
    loadYaml runtime t = .ofReading reading := by
  rw [loadYaml, read]
  dsimp only
  rw [done]

theorem Load.result_ofReading_ne (reading : Reading) (fault : Yaml.Fault) :
    (ofReading reading).result ≠ .error (.noValue fault) := by
  unfold ofReading
  split <;> nofun

/-- A document that is malformed is refused, so its fault is never left over. -/
theorem ne_malformed_of_loadYaml {t : Text} {fault : Yaml.Fault}
    (failed : (loadYaml runtime t).result = .error (.noValue fault)) : fault ≠ .malformed := by
  unfold loadYaml at failed
  split at failed
  · cases failed
  · next formed _ =>
    cases failed
    exact formed
  · split at failed
    · cases failed
    · exact absurd failed (Load.result_ofReading_ne _ _)

theorem ne_malformed_of_load {files : Files} {path : Path} {fault : Yaml.Fault}
    (failed : (load files path).result = .error (.noValue fault)) : fault ≠ .malformed := by
  unfold load at failed
  split at failed
  · cases failed
  · split at failed
    · cases failed
    · split at failed
      · cases failed
      · unfold loadText at failed
        split at failed
        · cases failed
        · exact ne_malformed_of_loadYaml failed
        · exact absurd failed (Load.result_ofReading_ne _ _)

end PropertyToolkit.PropertyFile
