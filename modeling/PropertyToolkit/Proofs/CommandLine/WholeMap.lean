import PropertyToolkit.Proofs.CommandLine.NamedKeys
import PropertyToolkit.Proofs.Substitution.PartialEvaluation
import PropertyToolkit.Proofs.Table

/-!
Three ways to expand a property map: against itself, as nested data whose source it is, and key by
key on a command line. They come to the same values and to the same first fault, and the command
line prints the same line for a key whether it names the key or asks for all of them.
-/

set_option autoImplicit false

namespace PropertyToolkit

open Substitution

/-- Texts by name, as the entries of a map of dynamic values. -/
def Properties.values (entries : List (Text × Text)) : List (Value × Value) :=
  entries.map fun entry => (.text entry.1, .text entry.2)

theorem Properties.ofEntries_values (properties : Properties) :
    Properties.ofEntries (values properties.entries) = properties := by
  have texts : (values properties.entries).map (fun entry => (entry.1.display, entry.2.property)) =
      properties.entries := by
    rw [values, List.map_map]
    exact List.map_id _
  rw [Properties.ofEntries, texts, Table.ofList_entries]

namespace Substitution

/-- The entries of a map are expanded like properties, each under its own key. -/
theorem substituteEntries_values (sources : Sources) (entries : List (Text × Text)) :
    substituteEntries sources (Properties.values entries) =
      (expandEach sources entries).result.map Properties.values := by
  induction entries with
  | nil => rfl
  | cons entry rest ih =>
    obtain ⟨name, value⟩ := entry
    have first : substituteEntries sources (Properties.values ((name, value) :: rest)) =
        ((expand sources value (some name) []).result.map Value.text >>= fun t =>
          substituteEntries sources (Properties.values rest) >>= fun others =>
            pure ((Value.text name, t) :: others)) := rfl
    rw [first, ih]
    cases expanded : (expand sources value (some name) []).result with
    | error fault =>
      rw [expandEach_of_error expanded]
      rfl
    | ok final =>
      rw [expandEach_of_ok expanded]
      cases (expandEach sources rest).result <;> rfl

/-- Values that can all be expanded can be expanded one after the other. -/
theorem exists_expandEach_eq_ok {sources : Sources} {entries : List (Text × Text)}
    (each : ∀ entry ∈ entries, ∃ final,
      (expand sources entry.2 (some entry.1) []).result = .ok final) :
    ∃ finals, (expandEach sources entries).result = .ok finals := by
  induction entries with
  | nil => exact ⟨[], rfl⟩
  | cons entry rest ih =>
    obtain ⟨final, expanded⟩ := each entry (List.mem_cons_self ..)
    obtain ⟨finals, done⟩ := ih fun other mem => each other (List.mem_cons_of_mem entry mem)
    refine ⟨(entry.1, final) :: finals, ?_⟩
    rw [expandEach_of_ok expanded, done]
    rfl

section

variable {fallback : Option Source} {properties resolved : Properties}
  (done : (resolveAll fallback properties).result = .ok resolved.entries)
include done

theorem keys_of_resolveAll : resolved.keys = properties.keys :=
  map_fst_of_resolves ((expandEach_eq_ok_iff _).1 done)

/-- What a key is resolved to with the whole map is what its value expands to. -/
theorem get?_of_resolveAll {key value : Text} (found : properties.get? key = some value) :
    ∃ final, resolved.get? key = some final ∧
      (expand ⟨some (.ofTable properties), fallback⟩ value (some key) []).result = .ok final := by
  have pairs := (expandEach_eq_ok_iff _).1 done
  obtain ⟨final, known, expanded⟩ := exists_of_mem_entries pairs (Table.get?_eq_some_iff.1 found)
  exact ⟨final, Table.get?_eq_some_iff.2 known, expanded⟩

/-- Some keys, in any order and with repeats, come to what the whole map gives for them. -/
theorem expandEach_pick (keys : List Text) :
    (expandEach ⟨some (.ofTable properties), fallback⟩ (properties.pick keys)).result =
      .ok (resolved.pick keys) := by
  rw [expandEach_eq_ok_iff]
  induction keys with
  | nil => exact .nil
  | cons key rest ih =>
    cases found : properties.get? key with
    | none =>
      have missing : resolved.get? key = none := by
        rw [Table.get?_eq_none_iff, keys_of_resolveAll done]
        exact Table.get?_eq_none_iff.1 found
      rw [Properties.pick_cons_of_none found, Properties.pick_cons_of_none missing]
      exact ih
    | some value =>
      obtain ⟨final, known, expanded⟩ := get?_of_resolveAll done found
      rw [Properties.pick_cons_of_some found, Properties.pick_cons_of_some known]
      exact .cons ⟨rfl, expanded⟩ ih

end

/-- A map can be resolved if each of its properties can be expanded on its own. -/
theorem exists_resolveAll_eq_ok {fallback : Option Source} {properties : Properties}
    (each : ∀ key ∈ properties.keys, ∃ finals,
      (expandEach ⟨some (.ofTable properties), fallback⟩ (properties.pick [key])).result =
        .ok finals) :
    ∃ resolved : Properties, (resolveAll fallback properties).result = .ok resolved.entries := by
  have expanded : ∀ entry ∈ properties.entries, ∃ final,
      (expand ⟨some (.ofTable properties), fallback⟩ entry.2 (some entry.1) []).result =
        .ok final := by
    intro entry mem
    obtain ⟨finals, done⟩ := each entry.1 (List.mem_map_of_mem mem)
    rw [Properties.pick_cons_of_some (Table.get?_eq_some_iff.2 mem), expandEach_eq_ok_iff] at done
    cases done with
    | cons here _ => exact ⟨_, here.2⟩
  obtain ⟨finals, done⟩ := exists_expandEach_eq_ok expanded
  have distinct := nodup_of_resolveAll done
  exact ⟨⟨finals, distinct⟩, done⟩

end Substitution

/-- A table of some properties has what the properties have for these keys. -/
theorem Properties.get?_ofList_pick (properties : Properties) {keys : List Text} {key : Text}
    (mem : key ∈ keys) : (Table.ofList (properties.pick keys)).get? key = properties.get? key := by
  have agree : ∀ entry ∈ properties.pick keys,
      entry.2 = (properties.get? entry.1).getD [] := by
    intro entry picked
    obtain ⟨name, -, same⟩ := List.mem_filterMap.1 picked
    obtain ⟨value, found, rfl⟩ := Option.map_eq_some_iff.1 same
    rw [found]
    rfl
  rw [Table.ofList, Table.get?_putAll (fun name => (properties.get? name).getD []) agree]
  cases found : properties.get? key with
  | none =>
    have absent : key ∉ (properties.pick keys).map Prod.fst := by
      intro listed
      obtain ⟨entry, picked, rfl⟩ := List.mem_map.1 listed
      obtain ⟨name, -, same⟩ := List.mem_filterMap.1 picked
      obtain ⟨value, other, rfl⟩ := Option.map_eq_some_iff.1 same
      rw [found] at other
      cases other
    rw [if_neg absent]
    rfl
  | some value =>
    have listed : key ∈ (properties.pick keys).map Prod.fst :=
      List.mem_map.2 ⟨(key, value), List.mem_filterMap.2 ⟨key, mem, by rw [found]; rfl⟩, rfl⟩
    rw [if_pos listed]
    rfl

namespace CommandLine

open Logged

/-- Expansions that fail are reported with an exit code of their own. -/
theorem SubstFault.ending_report_expansion (fault : Fault) :
    (SubstFault.expansion fault).report.ending = .ok 2 := by
  cases fault <;> rfl

namespace SubstRequest

/-- The same request for other keys; without any it is for all of them. -/
def naming (request : SubstRequest) (keys : List Text) : SubstRequest := { request with keys }

theorem line_congr {first second : Properties} {key : Text}
    (same : first.get? key = second.get? key) : line first key = line second key := by
  rw [line, line, same]

section

variable {files : Files} {environment : Environment} {request : SubstRequest}

theorem run_of_lines {printed : List Text}
    (found : (request.lines files environment).result = .ok printed) :
    (request.run files environment).pieces = printed ∧
      (request.run files environment).ending = .ok 0 := by
  simp only [run, found, and_self]

/-- A request whose properties are loaded succeeds exactly when they can be expanded. -/
theorem ending_run_eq_ok_iff {expanded : Except Fault (List Text)}
    (found : (request.lines files environment).result = expanded.mapError .expansion) :
    (request.run files environment).ending = .ok 0 ↔ ∃ printed, expanded = .ok printed := by
  cases expanded with
  | ok printed => exact ⟨fun _ => ⟨printed, rfl⟩, fun _ => (run_of_lines found).2⟩
  | error fault =>
    have failed : (request.run files environment).ending = .ok 2 := by
      simp only [run, found, Except.mapError, SubstFault.ending_report_expansion]
    rw [failed]
    constructor
    · intro succeeded
      cases succeeded
    · rintro ⟨_, impossible⟩
      cases impossible

variable {properties : Properties} (loads : (request.properties files).result = .ok properties)
include loads

theorem result_lines_of_unnamed (unnamed : request.keys = []) :
    (request.lines files environment).result =
      ((Substitution.resolveAll (request.fallback environment) properties).result.map fun finals =>
        (Text.sorted (Table.ofList finals : Properties).keys).map
          (line (Table.ofList finals))).mapError .expansion := by
  unfold lines
  simp only [result_bind, loads, if_pos unnamed]
  change ((resolveAll (request.fallback environment) properties).result >>= fun resolved =>
    .ok ((Text.sorted resolved.keys).map (line resolved))) = _
  rw [resolveAll]
  simp only [result_bind]
  cases (Substitution.resolveAll (request.fallback environment) properties).result <;> rfl

/-- A request for all keys succeeds exactly when the map can be resolved. -/
theorem ending_unnamed_iff :
    ((request.naming []).run files environment).ending = .ok 0 ↔
      ∃ resolved : Properties,
        (Substitution.resolveAll (request.fallback environment) properties).result =
          .ok resolved.entries := by
  have found : ((request.naming []).lines files environment).result = _ :=
    result_lines_of_unnamed loads rfl
  rw [ending_run_eq_ok_iff found]
  have same : (request.naming []).fallback environment = request.fallback environment := rfl
  rw [same]
  constructor
  · rintro ⟨printed, expanded⟩
    cases done : (Substitution.resolveAll (request.fallback environment) properties).result with
    | error fault =>
      rw [done] at expanded
      cases expanded
    | ok finals => exact ⟨⟨finals, nodup_of_resolveAll done⟩, rfl⟩
  · rintro ⟨resolved, done⟩
    rw [done]
    exact ⟨_, rfl⟩

/-- A request for some keys succeeds exactly when these can be expanded. -/
theorem ending_named_iff {keys : List Text} (named : keys ≠ []) :
    ((request.naming keys).run files environment).ending = .ok 0 ↔
      ∃ finals, (expandEach ⟨some (.ofTable properties), request.fallback environment⟩
        (properties.pick keys)).result = .ok finals := by
  have found : ((request.naming keys).lines files environment).result = _ :=
    result_lines_of_named loads named
  rw [ending_run_eq_ok_iff found]
  change (∃ printed, (expandEach ⟨some (.ofTable properties), request.fallback environment⟩
    (properties.pick keys)).result.map _ = .ok printed) ↔ _
  cases (expandEach ⟨some (.ofTable properties), request.fallback environment⟩
    (properties.pick keys)).result with
  | error fault => simp [Except.map]
  | ok finals => simp [Except.map]

section

variable {resolved : Properties}
  (done : (Substitution.resolveAll (request.fallback environment) properties).result =
    .ok resolved.entries)
include done

theorem run_unnamed :
    ((request.naming []).run files environment).pieces =
        (Text.sorted properties.keys).map (line resolved) ∧
      ((request.naming []).run files environment).ending = .ok 0 := by
  apply run_of_lines
  have found : ((request.naming []).lines files environment).result = _ :=
    result_lines_of_unnamed loads rfl
  rw [found, ← keys_of_resolveAll done]
  have same : (request.naming []).fallback environment = request.fallback environment := rfl
  rw [same, done]
  have table : (Table.ofList resolved.entries : Properties) = resolved :=
    Table.ofList_entries resolved
  simp only [Except.map, Except.mapError, table]

theorem run_named {keys : List Text} (named : keys ≠ []) :
    ((request.naming keys).run files environment).pieces = keys.map (line resolved) ∧
      ((request.naming keys).run files environment).ending = .ok 0 := by
  apply run_of_lines
  have found : ((request.naming keys).lines files environment).result = _ :=
    result_lines_of_named loads named
  rw [found]
  have same : (request.naming keys).fallback environment = request.fallback environment := rfl
  have asked : (request.naming keys).keys = keys := rfl
  rw [same, asked, expandEach_pick done]
  simp only [Except.map, Except.mapError, Except.ok.injEq]
  exact List.map_congr_left fun key mem => line_congr (Properties.get?_ofList_pick resolved mem)

end

end

end SubstRequest

/-- The ways to expand a property map agree. Nested data that holds the map comes to what the map is
resolved to, with the same keys in the same order, or to the same fault. Where the map can be
resolved, any keys come to the values that it gives for them. On the command line all properties can
be expanded exactly when each can be that is named alone; and then a run that names some keys prints
for each of them the line of the run that names none. -/
theorem expansions_agree :
    (∀ (fallback : Option Source) (properties : Properties) (key : Option Text),
      substitute ⟨some (.ofTable (Properties.ofEntries (Properties.values properties.entries))),
          fallback⟩ key (.map (Properties.values properties.entries)) =
        (resolveAll fallback properties).result.map fun finals =>
          .map (Properties.values finals)) ∧
    (∀ (fallback : Option Source) (properties resolved : Properties),
      (resolveAll fallback properties).result = .ok resolved.entries →
        resolved.keys = properties.keys ∧
        ∀ keys, ∃ named,
          (SubstRequest.resolveKeys fallback properties keys Table.empty).result = .ok named ∧
            ∀ key ∈ keys, named.get? key = resolved.get? key) ∧
    ∀ (files : Files) (environment : Environment) (request : SubstRequest)
      (properties : Properties), (request.properties files).result = .ok properties →
      (((request.naming []).run files environment).ending = .ok 0 ↔
        ∀ key ∈ properties.keys,
          ((request.naming [key]).run files environment).ending = .ok 0) ∧
      (((request.naming []).run files environment).ending = .ok 0 →
        ∃ resolved : Properties,
          (resolveAll (request.fallback environment) properties).result = .ok resolved.entries ∧
          ((request.naming []).run files environment).pieces =
            (Text.sorted properties.keys).map (SubstRequest.line resolved) ∧
          ∀ keys, keys ≠ [] →
            ((request.naming keys).run files environment).pieces =
                keys.map (SubstRequest.line resolved) ∧
              ((request.naming keys).run files environment).ending = .ok 0) := by
  refine ⟨?_, ?_, ?_⟩
  · intro fallback properties key
    rw [Properties.ofEntries_values]
    change (substituteEntries _ (Properties.values properties.entries)).map Value.map = _
    rw [substituteEntries_values, resolveAll]
    cases (expandEach _ properties.entries).result <;> rfl
  · intro fallback properties resolved done
    refine ⟨keys_of_resolveAll done, fun keys => ⟨Table.ofList (resolved.pick keys), ?_, ?_⟩⟩
    · rw [SubstRequest.result_resolveKeys, expandEach_pick done]
      rfl
    · intro key mem
      exact Properties.get?_ofList_pick resolved mem
  · intro files environment request properties loads
    constructor
    · rw [SubstRequest.ending_unnamed_iff loads]
      constructor
      · rintro ⟨resolved, done⟩ key -
        rw [SubstRequest.ending_named_iff loads (List.cons_ne_nil _ _)]
        exact ⟨_, expandEach_pick done [key]⟩
      · intro each
        apply exists_resolveAll_eq_ok
        intro key mem
        exact (SubstRequest.ending_named_iff loads (List.cons_ne_nil _ _)).1 (each key mem)
    · intro succeeded
      obtain ⟨resolved, done⟩ := (SubstRequest.ending_unnamed_iff loads).1 succeeded
      refine ⟨resolved, done, (SubstRequest.run_unnamed loads done).1, ?_⟩
      intro keys named
      exact SubstRequest.run_named loads done named

theorem resolveAll_library :
    (resolveAll none libraryRun.properties).result =
      .ok [("base", "/opt"), ("lib", "/opt/lib")] := by
  rw [resolveAll, expandEach_eq_ok_iff]
  refine .cons ⟨rfl, ?_⟩ (.cons ⟨rfl, ?_⟩ .nil)
  · exact result_expand_of_turns 1 (by decide +kernel)
  · exact result_expand_of_turns 2 (by decide +kernel)

/-- A key that is named twice, and another one between, are printed as they are for all keys. -/
theorem expansions_agree_library :
    ((resolveAll none libraryRun.properties).result = .ok [("base", "/opt"), ("lib", "/opt/lib")] ∧
      ∃ named, (SubstRequest.resolveKeys none libraryRun.properties ["lib"] Table.empty).result =
        .ok named ∧ named.get? "lib" = some "/opt/lib") ∧
    (libraryRun.request.properties World.blank.files).result = .ok libraryRun.properties ∧
      ((libraryRun.request.naming []).run World.blank.files World.blank.environment).ending =
        .ok 0 ∧
      ((libraryRun.request.naming ["lib", "base", "lib"]).run World.blank.files
          World.blank.environment).pieces =
        ["lib=/opt/lib\n", "base=/opt\n", "lib=/opt/lib\n"] := by
  let library : Properties := ⟨[("base", "/opt"), ("lib", "/opt/lib")], by decide⟩
  have done : (resolveAll none libraryRun.properties).result = .ok library.entries :=
    resolveAll_library
  have loads := libraryRun.loads
  have succeeded : ((libraryRun.request.naming []).run World.blank.files
      World.blank.environment).ending = .ok 0 := (SubstRequest.run_unnamed loads done).2
  obtain ⟨-, values, lines⟩ := expansions_agree
  refine ⟨⟨resolveAll_library, ?_⟩, loads, succeeded, ?_⟩
  · obtain ⟨named, resolved, same⟩ := (values none libraryRun.properties library done).2 ["lib"]
    exact ⟨named, resolved, same "lib" (List.mem_singleton.2 rfl)⟩
  · obtain ⟨resolved, again, -, printed⟩ := (lines _ _ _ _ loads).2 succeeded
    have same : resolved = library := by
      apply Table.ext_entries
      exact Except.ok.inj (again.symm.trans done)
    rw [(printed _ (List.cons_ne_nil _ _)).1, same]
    rfl

end CommandLine

end PropertyToolkit
