import PropertyToolkit.Proofs.CommandLine.EffectiveMap
import PropertyToolkit.Proofs.PropertyFile.Outcome
import PropertyToolkit.Proofs.Text.Utf8

/-!
All that a request to expand properties may come to. It prints a record for each of its keys and
succeeds, or it prints nothing and fails. Three things are not caught: a file of which it cannot be
told whether it is there and a YAML value that has a fault without a message, both before anything
is printed, and a record that holds a surrogate, after the records before it are printed.
-/

set_option autoImplicit false

namespace PropertyToolkit.CommandLine

open Logged Substitution

/-! ## Printing -/

/-- Pieces are written to their end, or to the first that cannot be written. -/
theorem write_cases (pieces : List Text) :
    write pieces = (pieces.flatten, none) ∨
      ∃ before piece after fault, pieces = before ++ piece :: after ∧
        Utf8.encode piece = .error fault ∧ write pieces = (before.flatten, some fault) := by
  induction pieces with
  | nil => exact .inl rfl
  | cons first rest ih =>
    cases encoded : Utf8.encode first with
    | error fault =>
      refine .inr ⟨[], first, rest, fault, rfl, encoded, ?_⟩
      rw [write, encoded]
      rfl
    | ok bytes =>
      rcases ih with all | ⟨before, piece, after, fault, rfl, broken, some⟩
      · refine .inl ?_
        rw [write, encoded, all]
        rfl
      · refine .inr ⟨first :: before, piece, after, fault, rfl, broken, ?_⟩
        rw [write, encoded, some]
        rfl

/-! ## Faults -/

namespace SubstFault

theorem ending_report_load (fault : PropertyFile.LoadFault) :
    (report (.load fault)).ending = .ok 2 ∨
      fault.message? = none ∧ (report (.load fault)).ending = .error (.load fault) := by
  by_cases listed : ∃ problems, fault = .invalid problems
  · obtain ⟨problems, rfl⟩ := listed
    exact .inl rfl
  · rw [report_load fun problems same => listed ⟨problems, same⟩]
    split
    · exact .inl rfl
    · next silent => exact .inr ⟨silent, rfl⟩

end SubstFault

/-- The faults of values that have no message. -/
def silentFaults : List Yaml.Fault :=
  [.codePointOverflow, .floatOverflow, .notBoolean, .emptyNumber, .notTimestamp,
    .displacedTimestamp, .tooDeep]

theorem exists_silent_of_load {files : Files} {path : Path} {fault : PropertyFile.LoadFault}
    (failed : (PropertyFile.load files path).result = .error fault)
    (silent : fault.message? = none) : ∃ value ∈ silentFaults, fault = .noValue value := by
  cases fault with
  | noValue value =>
    refine ⟨value, ?_, rfl⟩
    have formed := PropertyFile.ne_malformed_of_load failed
    cases value with
    | malformed => exact absurd rfl formed
    | codePointOverflow | floatOverflow | notBoolean | emptyNumber => decide
    | notTimestamp | displacedTimestamp | tooDeep => decide
    | _ => cases silent
  | _ => cases silent

namespace SubstRequest

variable {files : Files} {environment : Environment} {request : SubstRequest}

theorem cases_of_result_loadFile {path : Path} {fault : SubstFault}
    (failed : (loadFile files path).result = .error fault) :
    (files.has path = .ok false ∧ fault = .noFile path) ∨
      (∃ access, files.has path = .error access ∧ fault = .unreachable access path) ∨
      ∃ load, fault = .load load ∧ (PropertyFile.load files path).result = .error load := by
  unfold loadFile at failed
  split at failed
  · next access unreachable =>
    cases failed
    exact .inr (.inl ⟨access, unreachable, rfl⟩)
  · next absent =>
    cases failed
    exact .inl ⟨absent, rfl⟩
  · simp only [result_bind, result_tell, result_ofExcept] at failed
    cases loaded : (PropertyFile.load files path).result with
    | error load =>
      rw [loaded] at failed
      cases failed
      exact .inr (.inr ⟨load, rfl, rfl⟩)
    | ok properties =>
      rw [loaded] at failed
      cases failed

theorem exists_of_result_loadAll {paths : List Path} {start : Properties} {fault : SubstFault}
    (failed : (loadAll files paths start).result = .error fault) :
    ∃ path ∈ paths, (loadFile files path).result = .error fault := by
  induction paths generalizing start with
  | nil => cases failed
  | cons path rest ih =>
    unfold loadAll at failed
    rw [result_bind] at failed
    cases loaded : (loadFile files path).result with
    | error first =>
      rw [loaded] at failed
      cases failed
      exact ⟨path, List.mem_cons_self .., loaded⟩
    | ok properties =>
      rw [loaded] at failed
      obtain ⟨later, mem, broken⟩ := ih failed
      exact ⟨later, List.mem_cons_of_mem _ mem, broken⟩

theorem cases_of_result_properties {fault : SubstFault}
    (failed : (request.properties files).result = .error fault) :
    (∃ file ∈ request.files, (loadFile files (.ofText file)).result = .error fault) ∨
      ∃ broken, fault = .override broken := by
  unfold SubstRequest.properties at failed
  simp only [result_bind, result_ofExcept] at failed
  cases loaded : (loadAll files (request.files.map Path.ofText) Table.empty).result with
  | error first =>
    rw [loaded] at failed
    cases failed
    obtain ⟨path, mem, broken⟩ := exists_of_result_loadAll loaded
    obtain ⟨file, listed, rfl⟩ := List.mem_map.1 mem
    exact .inl ⟨file, listed, broken⟩
  | ok properties =>
    rw [loaded] at failed
    cases read : readOverrides request.overrides with
    | error broken =>
      rw [read] at failed
      cases failed
      exact .inr ⟨broken, rfl⟩
    | ok overrides =>
      rw [read] at failed
      cases failed

/-- The keys that a request prints, in their order. -/
def printed (request : SubstRequest) (properties : Properties) : List Text :=
  if request.keys = [] then Text.sorted properties.keys else request.keys

/-- What a request prints for its keys: the expansions of their properties, and nothing for a key
without a property. -/
structure Records (files : Files) (environment : Environment) (request : SubstRequest)
    (properties resolved : Properties) : Prop where
  loads : (request.properties files).result = .ok properties
  missing : ∀ key ∈ request.printed properties, properties.get? key = none →
    resolved.get? key = none
  values : ∀ key ∈ request.printed properties, ∀ value, properties.get? key = some value →
    ∃ final, resolved.get? key = some final ∧
      (expand ⟨some (.ofTable properties), request.fallback environment⟩ value (some key)
        []).result = .ok final

theorem cases_of_result_lines {fault : SubstFault}
    (failed : (request.lines files environment).result = .error fault) :
    (request.properties files).result = .error fault ∨ ∃ broken, fault = .expansion broken := by
  cases loads : (request.properties files).result with
  | error first =>
    unfold lines at failed
    rw [result_bind, loads] at failed
    exact .inl (by cases failed; rfl)
  | ok properties =>
    right
    by_cases unnamed : request.keys = []
    · rw [result_lines_of_unnamed loads unnamed] at failed
      cases done : (Substitution.resolveAll (request.fallback environment) properties).result with
      | error broken =>
        rw [done] at failed
        cases failed
        exact ⟨broken, rfl⟩
      | ok finals =>
        rw [done] at failed
        cases failed
    · rw [result_lines_of_named loads unnamed] at failed
      cases done : (expandEach ⟨some (.ofTable properties), request.fallback environment⟩
          (properties.pick request.keys)).result with
      | error broken =>
        rw [done] at failed
        cases failed
        exact ⟨broken, rfl⟩
      | ok finals =>
        rw [done] at failed
        cases failed

section

variable {properties : Properties} (loads : (request.properties files).result = .ok properties)
include loads

/-- The whole map, resolved, gives every record. -/
theorem records_of_resolveAll {resolved : Properties}
    (done : (Substitution.resolveAll (request.fallback environment) properties).result =
      .ok resolved.entries) :
    Records files environment request properties resolved :=
  ⟨loads, fun _ _ missing => get?_eq_none_of_resolveAll done missing,
    fun _ _ _ known => get?_of_resolveAll done known⟩

/-- Where keys are named, the expansions of their properties give every record. -/
theorem records_of_expandEach (named : request.printed properties = request.keys)
    {finals : List (Text × Text)}
    (done : (expandEach ⟨some (.ofTable properties), request.fallback environment⟩
      (properties.pick request.keys)).result = .ok finals) :
    Records files environment request properties (Table.ofList finals) := by
  have each := (expandEach_eq_ok_iff _).1 done
  refine ⟨loads, fun key _ missing => ?_, fun key mem value known => ?_⟩
  · rw [Table.get?_ofList]
    cases last : Table.last? finals key with
    | none => rfl
    | some final =>
      obtain ⟨value, picked, -⟩ := exists_of_mem_finals each (Table.mem_of_last? last)
      rw [(Properties.mem_pick.1 picked).2] at missing
      cases missing
  · rw [named] at mem
    obtain ⟨first, listed, -⟩ := exists_of_mem_entries each (Properties.mem_pick.2 ⟨mem, known⟩)
    obtain ⟨final, last⟩ := Table.exists_last?_of_mem listed
    obtain ⟨other, picked, expanded⟩ := exists_of_mem_finals each (Table.mem_of_last? last)
    rw [(Properties.mem_pick.1 picked).2] at known
    cases known
    exact ⟨final, (Table.get?_ofList ..).trans last, expanded⟩

end

theorem exists_records {pieces : List Text}
    (found : (request.lines files environment).result = .ok pieces) :
    ∃ properties resolved, Records files environment request properties resolved ∧
      pieces = (request.printed properties).map (line resolved) := by
  cases loads : (request.properties files).result with
  | error fault =>
    unfold lines at found
    rw [result_bind, loads] at found
    cases found
  | ok properties =>
    by_cases unnamed : request.keys = []
    · have all : request.printed properties = Text.sorted properties.keys := if_pos unnamed
      cases done : (Substitution.resolveAll (request.fallback environment) properties).result with
      | error fault =>
        rw [result_lines_of_unnamed loads unnamed, done] at found
        cases found
      | ok finals =>
        let resolved : Properties := ⟨finals, nodup_of_resolveAll done⟩
        have done : (Substitution.resolveAll (request.fallback environment) properties).result =
            .ok resolved.entries := done
        rw [result_lines_of_resolved loads unnamed done, keys_of_resolveAll done, ← all] at found
        exact ⟨properties, resolved, records_of_resolveAll loads done, (Except.ok.inj found).symm⟩
    · have named : request.printed properties = request.keys := if_neg unnamed
      rw [result_lines_of_named loads unnamed] at found
      cases done : (expandEach ⟨some (.ofTable properties), request.fallback environment⟩
          (properties.pick request.keys)).result with
      | error fault =>
        rw [done] at found
        cases found
      | ok finals =>
        rw [done, ← named] at found
        exact ⟨properties, Table.ofList finals, records_of_expandEach loads named done,
          (Except.ok.inj found).symm⟩

/-- A request that fails prints nothing. It ends with an exit code, which is 1 if a file is missing,
unless it cannot be told whether a file is there, or a file has a value with a fault that has no
message. -/
theorem run_of_failed {fault : SubstFault}
    (failed : (request.lines files environment).result = .error fault) :
    (request.run files environment).pieces = [] ∧
      (((request.run files environment).ending = .ok 1 ∧
          ∃ file ∈ request.files, files.has (.ofText file) = .ok false) ∨
        (request.run files environment).ending = .ok 2 ∨
        (∃ file ∈ request.files, ∃ access, files.has (.ofText file) = .error access ∧
          (request.run files environment).ending = .error (.access access (.ofText file))) ∨
        ∃ value ∈ silentFaults,
          (request.run files environment).ending = .error (.load (.noValue value)) ∧
          ∃ file ∈ request.files,
            (PropertyFile.load files (.ofText file)).result = .error (.noValue value)) := by
  obtain ⟨pieces, ending⟩ := run_of_error failed
  refine ⟨pieces, ?_⟩
  rw [ending]
  rcases cases_of_result_lines failed with unread | ⟨broken, rfl⟩
  · rcases cases_of_result_properties unread with ⟨file, listed, unloaded⟩ | ⟨broken, rfl⟩
    · rcases cases_of_result_loadFile unloaded with
        ⟨absent, rfl⟩ | ⟨access, unreachable, rfl⟩ | ⟨load, rfl, broken⟩
      · exact .inl ⟨rfl, file, listed, absent⟩
      · exact .inr (.inr (.inl ⟨file, listed, access, unreachable, rfl⟩))
      · rcases SubstFault.ending_report_load load with caught | ⟨silent, escapes⟩
        · exact .inr (.inl caught)
        · obtain ⟨value, quiet, rfl⟩ := exists_silent_of_load broken silent
          exact .inr (.inr (.inr ⟨value, quiet, escapes, file, listed, broken⟩))
    · exact .inr (.inl rfl)
  · exact .inr (.inl (SubstFault.ending_report_expansion broken))

end SubstRequest

/-- A run that is asked to expand properties succeeds and prints a record for each key, or fails and
prints nothing. It has no exit code only if it cannot be told whether a file is there or a file has
a value with a fault that has no message, with nothing printed, or if a record holds a surrogate,
with the records before it printed. -/
theorem subst_outcomes (world : World) {words : List Text} {settings : Settings}
    {request : SubstRequest} (asks : Request.read words = .ok ⟨settings, some (.subst request)⟩) :
    (∃ properties resolved,
      SubstRequest.Records world.files world.environment request properties resolved ∧
        ((run world words).output =
            ((request.printed properties).map (SubstRequest.line resolved)).flatten ∧
          (run world words).ending = .ok 0 ∨
        ∃ before record after fault,
          (request.printed properties).map (SubstRequest.line resolved) =
            before ++ record :: after ∧
          Utf8.encode record = .error fault ∧ (∃ c ∈ record, c.isSurrogate = true) ∧
          (run world words).output = before.flatten ∧
          (run world words).ending = .error (.unwritable fault))) ∨
    (run world words).output = [] ∧
      ((run world words).ending = .ok 1 ∧
          (∃ file ∈ request.files, world.files.has (.ofText file) = .ok false) ∨
        (run world words).ending = .ok 2 ∨
        (∃ file ∈ request.files, ∃ access, world.files.has (.ofText file) = .error access ∧
          (run world words).ending = .error (.access access (.ofText file))) ∨
        ∃ value ∈ silentFaults, (run world words).ending = .error (.load (.noValue value)) ∧
          ∃ file ∈ request.files,
            (PropertyFile.load world.files (.ofText file)).result = .error (.noValue value)) := by
  rw [run_subst asks]
  cases found : (request.lines world.files world.environment).result with
  | error fault =>
    obtain ⟨pieces, ending⟩ := SubstRequest.run_of_failed found
    right
    unfold Report.outcome
    rw [pieces]
    exact ⟨rfl, ending⟩
  | ok records =>
    obtain ⟨pieces, ending⟩ := SubstRequest.run_of_lines found
    obtain ⟨properties, resolved, reached, rfl⟩ := SubstRequest.exists_records found
    refine .inl ⟨properties, resolved, reached, ?_⟩
    unfold Report.outcome
    rw [pieces, ending]
    rcases write_cases ((request.printed properties).map (SubstRequest.line resolved)) with
      all | ⟨before, record, after, fault, split, broken, some⟩
    · rw [all]
      exact .inl ⟨rfl, rfl⟩
    · rw [some]
      exact .inr ⟨before, record, after, fault, split, broken,
        Utf8.exists_surrogate_of_encode broken, rfl, rfl⟩

theorem subst_outcomes_missing :
    Request.read ["subst", "--props", "none.conf"] =
        .ok ⟨⟨.warning, false, false⟩, some (.subst ⟨[], ["none.conf"], [], true⟩)⟩ ∧
      (run .blank ["subst", "--props", "none.conf"]).output = [] := by
  have asks : Request.read ["subst", "--props", "none.conf"] =
      .ok ⟨⟨.warning, false, false⟩, some (.subst ⟨[], ["none.conf"], [], true⟩)⟩ := by
    decide +kernel
  refine ⟨asks, ?_⟩
  rcases subst_outcomes .blank asks with ⟨properties, resolved, reached, -⟩ | failed
  · have loads := reached.loads
    cases loads
  · exact failed.1

/-- A value that is a lone surrogate, after one that is none. -/
def surrogateWorld : World where
  files := .ofContents fun _ => .ok (("a=1\nb=\\ud800\n" : Text).map fun c => UInt8.ofNat c.value)
  environment := Table.empty
  input := []

def surrogateProperties : Properties := ⟨[("a", "1"), ("b", [⟨0xD800, by decide⟩])], by decide⟩

def surrogateRun : LoadedRun surrogateWorld ["subst", "--no-env", "--props", "a.properties"] where
  settings := ⟨.warning, false, false⟩
  request := ⟨[], ["a.properties"], [], false⟩
  loaded := [surrogateProperties]
  overrides := []
  asks := by decide +kernel
  loads := .cons (loads_of_hasLines (t := "a=1\nb=\\ud800\n") ⟨by decide, rfl, _, rfl, by decide⟩
    rfl (by decide +kernel) (by decide +kernel)) .nil
  parses := .nil

theorem resolveAll_surrogate :
    (resolveAll none surrogateRun.properties).result = .ok surrogateProperties.entries := by
  rw [resolveAll, expandEach_eq_ok_iff]
  refine .cons ⟨rfl, ?_⟩ (.cons ⟨rfl, ?_⟩ .nil)
  · exact result_expand_of_turns 1 (by decide +kernel)
  · exact result_expand_of_turns 1 (by decide +kernel)

/-- The first record is printed when the second one turns out not to be writable. -/
theorem subst_outcomes_surrogate :
    (run surrogateWorld ["subst", "--no-env", "--props", "a.properties"]).output = "a=1\n" ∧
      ∀ code, (run surrogateWorld ["subst", "--no-env", "--props", "a.properties"]).ending ≠
        .ok code := by
  have lines : (surrogateRun.request.lines surrogateWorld.files surrogateWorld.environment).result =
      .ok ((Text.sorted surrogateProperties.keys).map (SubstRequest.line surrogateProperties)) :=
    SubstRequest.result_lines_of_resolved surrogateRun.result_properties rfl resolveAll_surrogate
  have sorted : Text.sorted surrogateProperties.keys = surrogateProperties.keys :=
    List.mergeSort_of_pairwise (by decide)
  obtain ⟨pieces, -⟩ := SubstRequest.run_of_lines lines
  rw [run_subst surrogateRun.asks]
  unfold Report.outcome
  rw [pieces, sorted]
  exact ⟨rfl, nofun⟩

end PropertyToolkit.CommandLine
