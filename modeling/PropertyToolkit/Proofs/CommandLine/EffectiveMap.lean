import PropertyToolkit.Proofs.CommandLine.Reports
import PropertyToolkit.Proofs.CommandLine.WholeMap
import PropertyToolkit.Proofs.Fallible
import PropertyToolkit.Proofs.PropertyFile.Layout
import PropertyToolkit.Proofs.PropertyFile.Reading
import PropertyToolkit.Proofs.Substitution.Sources
import PropertyToolkit.Proofs.Text.Order

/-!
What a request takes from its files and overrides: for every key one value, that of its last
override, or else that of the last file with the key. The number and the order of the files, of
their entries and of the overrides change nothing else, so they show neither in the output of a run
nor in its ending.
-/

set_option autoImplicit false

namespace PropertyToolkit

namespace Substitution

theorem get?_eq_none_of_resolveAll {fallback : Option Source} {properties resolved : Properties}
    (done : (resolveAll fallback properties).result = .ok resolved.entries) {key : Text}
    (missing : properties.get? key = none) : resolved.get? key = none := by
  rw [Table.get?_eq_none_iff, keys_of_resolveAll done]
  exact Table.get?_eq_none_iff.1 missing

/-- Whether a map can be resolved, and to what, lies in its values alone. -/
theorem exists_resolveAll_of_get? {fallback : Option Source} {first second resolved : Properties}
    (same : ∀ key, first.get? key = second.get? key)
    (done : (resolveAll fallback first).result = .ok resolved.entries) :
    ∃ other : Properties, (resolveAll fallback second).result = .ok other.entries ∧
      ∀ key, other.get? key = resolved.get? key := by
  have expanded : ∀ entry ∈ second.entries, ∃ final,
      (expand ⟨some (.ofTable second), fallback⟩ entry.2 (some entry.1) []).result =
        .ok final := by
    intro entry mem
    have found : first.get? entry.1 = some entry.2 :=
      (same entry.1).trans (Table.get?_eq_some_iff.2 mem)
    obtain ⟨final, -, expanded⟩ := get?_of_resolveAll done found
    rw [← Source.ofTable_congr same]
    exact ⟨final, expanded⟩
  obtain ⟨finals, again⟩ := exists_expandEach_eq_ok expanded
  let other : Properties := ⟨finals, nodup_of_resolveAll again⟩
  have again : (resolveAll fallback second).result = .ok other.entries := again
  refine ⟨other, again, fun key => ?_⟩
  cases found : first.get? key with
  | none =>
    have absent : second.get? key = none := (same key).symm.trans found
    rw [get?_eq_none_of_resolveAll done found, get?_eq_none_of_resolveAll again absent]
  | some value =>
    obtain ⟨final, known, expanded⟩ := get?_of_resolveAll done found
    obtain ⟨last, listed, reached⟩ := get?_of_resolveAll again ((same key).symm.trans found)
    rw [Source.ofTable_congr same, reached] at expanded
    rw [known, listed, Except.ok.inj expanded]

end Substitution

namespace CommandLine

open Logged Substitution

/-! ## Loading -/

/-- A file is there, and it is loaded. -/
def Loads (files : Files) (path : Path) (properties : Properties) : Prop :=
  files.has path = .ok true ∧ (PropertyFile.load files path).result = .ok properties

namespace SubstRequest

theorem result_loadFile {files : Files} {path : Path} {properties : Properties}
    (loads : Loads files path properties) : (loadFile files path).result = .ok properties := by
  unfold loadFile
  rw [loads.1]
  simp only [result_bind, result_tell, result_ofExcept, loads.2]
  rfl

theorem result_loadAll {files : Files} {paths : List Path} {loaded : List Properties}
    (loads : List.Forall₂ (Loads files) paths loaded) (start : Properties) :
    (loadAll files paths start).result = .ok (loaded.foldl Table.update start) := by
  induction loads generalizing start with
  | nil => rfl
  | cons first _ ih =>
    unfold loadAll
    simp only [result_bind, result_loadFile first]
    exact ih _

end SubstRequest

theorem readOverrides_eq_ok {items : List Text} {overrides : List (Text × Text)}
    (parses : List.Forall₂ (fun item entry => readOverride item = .ok entry) items overrides) :
    readOverrides items = .ok (Table.ofList overrides) := by
  rw [readOverrides, mapM_eq_ok_iff.2 parses]
  rfl

/-- A run whose files are all there and load, and whose overrides can all be read. -/
structure LoadedRun (world : World) (words : List Text) where
  settings : Settings
  request : SubstRequest
  loaded : List Properties
  overrides : List (Text × Text)
  asks : Request.read words = .ok ⟨settings, some (.subst request)⟩
  loads : List.Forall₂ (Loads world.files) (request.files.map Path.ofText) loaded
  parses :
    List.Forall₂ (fun item entry => readOverride item = .ok entry) request.overrides overrides

namespace LoadedRun

variable {world other : World} {words others : List Text}

/-- The last override of a key gives its value, or else the last file that has the key. -/
def effective (loadedRun : LoadedRun world words) (key : Text) : Option Text :=
  (Table.last? loadedRun.overrides key).or
    (loadedRun.loaded.reverse.findSome? fun properties => properties.get? key)

/-- The properties of the run, in the order in which they are resolved. -/
def properties (loadedRun : LoadedRun world words) : Properties :=
  (loadedRun.loaded.foldl Table.update Table.empty).update (Table.ofList loadedRun.overrides)

theorem result_properties (loadedRun : LoadedRun world words) :
    (loadedRun.request.properties world.files).result = .ok loadedRun.properties := by
  unfold SubstRequest.properties
  simp only [result_bind, result_ofExcept, SubstRequest.result_loadAll loadedRun.loads,
    readOverrides_eq_ok loadedRun.parses]
  rfl

theorem get?_properties (loadedRun : LoadedRun world words) (key : Text) :
    loadedRun.properties.get? key = loadedRun.effective key := by
  have missing : (Table.empty : Properties).get? key = none := rfl
  rw [properties, effective, Table.get?_update, Table.get?_foldl_update, Table.get?_ofList,
    missing, Option.or_none]

end LoadedRun

namespace SubstRequest

section

variable {files others : Files} {environment : Environment} {request asked : SubstRequest}
  {first second : Properties}

theorem result_lines_of_resolved {resolved : Properties}
    (loads : (request.properties files).result = .ok first) (unnamed : request.keys = [])
    (done : (Substitution.resolveAll (request.fallback environment) first).result =
      .ok resolved.entries) :
    (request.lines files environment).result =
      .ok ((Text.sorted resolved.keys).map (line resolved)) := by
  have table : (Table.ofList resolved.entries : Properties) = resolved :=
    Table.ofList_entries resolved
  rw [result_lines_of_unnamed loads unnamed, done]
  simp only [Except.map, Except.mapError, table]

theorem run_of_unresolved {fault : Fault} (loads : (request.properties files).result = .ok first)
    (unnamed : request.keys = [])
    (failed : (Substitution.resolveAll (request.fallback environment) first).result =
      .error fault) :
    (request.run files environment).pieces = [] ∧
      (request.run files environment).ending = .ok 2 := by
  have lines : (request.lines files environment).result = .error (.expansion fault) := by
    rw [result_lines_of_unnamed loads unnamed, failed]
    rfl
  obtain ⟨pieces, ending⟩ := run_of_error lines
  exact ⟨pieces, ending.trans (SubstFault.ending_report_expansion fault)⟩

variable (loads : (request.properties files).result = .ok first)
  (again : (asked.properties others).result = .ok second)
  (same : ∀ key, first.get? key = second.get? key)
  (fallback : request.fallback environment = asked.fallback environment)
include loads again same fallback

theorem run_congr_of_unnamed (unnamed : request.keys = []) (all : asked.keys = []) :
    (request.run files environment).pieces = (asked.run others environment).pieces ∧
      (request.run files environment).ending = (asked.run others environment).ending := by
  cases done : (Substitution.resolveAll (request.fallback environment) first).result with
  | ok finals =>
    let resolved : Properties := ⟨finals, nodup_of_resolveAll done⟩
    have done : (Substitution.resolveAll (request.fallback environment) first).result =
        .ok resolved.entries := done
    obtain ⟨other, found, values⟩ := exists_resolveAll_of_get? same done
    have keys : Text.sorted other.keys = Text.sorted resolved.keys :=
      Text.sorted_congr (Table.perm_keys values)
    have lines : line other = line resolved := funext fun key => line_congr (values key)
    rw [fallback] at found
    apply run_congr
    rw [result_lines_of_resolved loads unnamed done, result_lines_of_resolved again all found,
      keys, lines]
  | error fault =>
    cases found : (Substitution.resolveAll (asked.fallback environment) second).result with
    | error another =>
      obtain ⟨pieces, ending⟩ := run_of_unresolved loads unnamed done
      obtain ⟨others, endings⟩ := run_of_unresolved again all found
      exact ⟨pieces.trans others.symm, ending.trans endings.symm⟩
    | ok finals =>
      let resolved : Properties := ⟨finals, nodup_of_resolveAll found⟩
      have found : (Substitution.resolveAll (asked.fallback environment) second).result =
        .ok resolved.entries := found
      obtain ⟨other, resolves, -⟩ := exists_resolveAll_of_get? (fun key => (same key).symm) found
      rw [← fallback, done] at resolves
      cases resolves

/-- Properties with the same values print the same and end in the same way, whatever their order. -/
theorem run_congr_of_get? (keys : request.keys = asked.keys) :
    (request.run files environment).pieces = (asked.run others environment).pieces ∧
      (request.run files environment).ending = (asked.run others environment).ending := by
  by_cases unnamed : request.keys = []
  · exact run_congr_of_unnamed loads again same fallback unnamed (keys ▸ unnamed)
  · apply run_congr
    rw [result_lines_of_named loads unnamed, result_lines_of_named again (keys ▸ unnamed), keys,
      fallback, Source.ofTable_congr same, Properties.pick_congr fun key _ => same key]

end

end SubstRequest

/-- A run depends on its files and overrides only through what they give for each key. -/
theorem outcome_of_effective {world other : World} {words others : List Text}
    (first : LoadedRun world words) (second : LoadedRun other others)
    (effective : ∀ key, first.effective key = second.effective key)
    (keys : first.request.keys = second.request.keys)
    (use : first.request.useEnvironment = second.request.useEnvironment)
    (environment : world.environment = other.environment) :
    (run world words).output = (run other others).output ∧
      (run world words).ending = (run other others).ending := by
  have same : ∀ key, first.properties.get? key = second.properties.get? key := fun key => by
    rw [first.get?_properties, second.get?_properties, effective]
  have fallback : first.request.fallback world.environment =
      second.request.fallback world.environment := by
    rw [SubstRequest.fallback, SubstRequest.fallback, use]
  obtain ⟨pieces, ending⟩ := SubstRequest.run_congr_of_get? first.result_properties
    second.result_properties same fallback keys
  rw [run_subst first.asks, run_subst second.asks, ← environment]
  exact Report.outcome_congr pieces ending _ _

theorem loads_of_hasLines {files : Files} {path : Path} {t : Text} {properties : Properties}
    (file : PropertyFile.HasLines files path t) (there : files.status path = .ok ())
    (clean : (PropertyFile.read t).problems.isEmpty = true)
    (entries : (PropertyFile.read t).properties.entries = properties.entries) :
    Loads files path properties := by
  constructor
  · rw [Files.has, if_pos file.nameable, there]
  · rw [PropertyFile.load_of_hasLines file]
    exact (PropertyFile.Load.result_ofReading_eq_ok_iff ..).2
      ⟨List.isEmpty_iff.1 clean, Table.ext_entries entries⟩

def baseText : Text := "host=a\nurl=$\x7bhost\x7d:80\n"

def siteText : Text := "host=b\n"

/-- Two files that have a key in common. -/
def layeredWorld : World where
  files := .ofContents fun path =>
    if path = .ofText "base.conf" then .ok (baseText.map fun c => UInt8.ofNat c.value)
    else if path = .ofText "site.conf" then .ok (siteText.map fun c => UInt8.ofNat c.value)
    else .error .noSuchFile
  environment := Table.empty
  input := []

theorem loads_base : Loads layeredWorld.files (.ofText "base.conf")
    ⟨[("host", "a"), ("url", "$\x7bhost\x7d:80")], by decide⟩ :=
  loads_of_hasLines (t := baseText) ⟨by decide, rfl, _, rfl, by decide⟩ rfl (by decide +kernel)
    (by decide +kernel)

theorem loads_site : Loads layeredWorld.files (.ofText "site.conf") ⟨[("host", "b")], by decide⟩ :=
  loads_of_hasLines (t := siteText) ⟨by decide, rfl, _, rfl, by decide⟩ rfl (by decide +kernel)
    (by decide +kernel)

/-- Both files, and an override that is given twice. -/
def layeredRun : LoadedRun layeredWorld
    ["subst", "--no-env", "--props", "base.conf", "--props", "site.conf", "--set", "path=/",
      "--set", "path=/x"] where
  settings := ⟨.warning, false, false⟩
  request := ⟨[], ["base.conf", "site.conf"], ["path=/", "path=/x"], false⟩
  loaded :=
    [⟨[("host", "a"), ("url", "$\x7bhost\x7d:80")], by decide⟩, ⟨[("host", "b")], by decide⟩]
  overrides := [("path", "/"), ("path", "/x")]
  asks := by decide +kernel
  loads := .cons loads_base (.cons loads_site .nil)
  parses := .cons rfl (.cons rfl .nil)

/-- The later file alone, with overrides for the other keys. -/
def flatRun : LoadedRun layeredWorld
    ["subst", "--no-env", "--set", "path=/x", "--props", "site.conf", "--set",
      "url=$\x7bhost\x7d:80"] where
  settings := ⟨.warning, false, false⟩
  request := ⟨[], ["site.conf"], ["path=/x", "url=$\x7bhost\x7d:80"], false⟩
  loaded := [⟨[("host", "b")], by decide⟩]
  overrides := [("path", "/x"), ("url", "$\x7bhost\x7d:80")]
  asks := by decide +kernel
  loads := .cons loads_site .nil
  parses := .cons rfl (.cons rfl .nil)

theorem outcome_of_effective_layered :
    (∀ key, layeredRun.effective key = flatRun.effective key) ∧
      (run layeredWorld
        ["subst", "--no-env", "--props", "base.conf", "--props", "site.conf", "--set", "path=/",
          "--set", "path=/x"]).output =
        (run layeredWorld
          ["subst", "--no-env", "--set", "path=/x", "--props", "site.conf", "--set",
            "url=$\x7bhost\x7d:80"]).output := by
  have effective : ∀ key, layeredRun.effective key = flatRun.effective key := by
    have same : layeredRun.properties.entries.Perm flatRun.properties.entries := by decide
    intro key
    rw [← layeredRun.get?_properties, ← flatRun.get?_properties]
    exact Table.get?_of_perm same key
  exact ⟨effective, (outcome_of_effective layeredRun flatRun effective rfl rfl rfl).1⟩

end CommandLine

end PropertyToolkit
