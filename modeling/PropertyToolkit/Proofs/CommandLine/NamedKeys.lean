import PropertyToolkit.CommandLine.Run
import PropertyToolkit.Proofs.Substitution.Influence

/-!
A run of the program that expands named keys. It asks for the properties of these keys and for what
is looked up on the way, and for nothing else; so no other property shows in its output or in its
exit code, whether it could be expanded or not.
-/

set_option autoImplicit false

namespace PropertyToolkit

open Substitution

namespace Properties

/-- The properties of some keys, key by key. A key without a property is passed over. -/
def pick (properties : Properties) (keys : List Text) : List (Text × Text) :=
  keys.filterMap fun key => (properties.get? key).map (key, ·)

variable {properties : Properties} {key : Text}

theorem pick_cons_of_none (missing : properties.get? key = none) (keys : List Text) :
    properties.pick (key :: keys) = properties.pick keys := by
  rw [pick, List.filterMap_cons, missing]
  rfl

theorem pick_cons_of_some {value : Text} (found : properties.get? key = some value)
    (keys : List Text) :
    properties.pick (key :: keys) = (key, value) :: properties.pick keys := by
  rw [pick, List.filterMap_cons, found]
  rfl

theorem mem_pick {keys : List Text} {value : Text} :
    (key, value) ∈ properties.pick keys ↔ key ∈ keys ∧ properties.get? key = some value := by
  rw [pick, List.mem_filterMap]
  constructor
  · rintro ⟨name, mem, same⟩
    obtain ⟨value, found, pair⟩ := Option.map_eq_some_iff.1 same
    cases pair
    exact ⟨mem, found⟩
  · rintro ⟨mem, found⟩
    exact ⟨key, mem, by rw [found]; rfl⟩

theorem pick_congr {other : Properties} {keys : List Text}
    (same : ∀ key ∈ keys, properties.get? key = other.get? key) :
    properties.pick keys = other.pick keys :=
  List.filterMap_congr fun key mem => by rw [same key mem]

end Properties

namespace CommandLine

open Logged

namespace SubstRequest

/-- The keys of a command line are expanded one after the other, like the entries of a map. -/
theorem result_resolveKeys (fallback : Option Source) (properties : Properties)
    (keys : List Text) (resolved : Properties) :
    (resolveKeys fallback properties keys resolved).result =
      ((expandEach ⟨some (.ofTable properties), fallback⟩ (properties.pick keys)).result.map
        resolved.putAll).mapError .expansion := by
  induction keys generalizing resolved with
  | nil => rfl
  | cons key rest ih =>
    rw [resolveKeys]
    cases found : properties.get? key with
    | none =>
      rw [Properties.pick_cons_of_none found, ← ih]
      exact result_bind _ _
    | some value =>
      rw [Properties.pick_cons_of_some found]
      simp only [result_bind, resolveKey]
      cases expanded :
          (expand ⟨some (.ofTable properties), fallback⟩ value (some key) []).result with
      | error fault =>
        rw [expandEach_of_error expanded]
        rfl
      | ok final =>
        rw [expandEach_of_ok expanded]
        refine (ih _).trans ?_
        cases (expandEach _ (properties.pick rest)).result <;> rfl

/-- Where names without a property are sought. -/
def fallback (request : SubstRequest) (environment : Environment) : Option Source :=
  if request.useEnvironment then some environment.source else none

theorem result_lines_of_named {files : Files} {environment : Environment} {request : SubstRequest}
    {properties : Properties} (loads : (request.properties files).result = .ok properties)
    (named : request.keys ≠ []) :
    (request.lines files environment).result =
      ((expandEach ⟨some (.ofTable properties), request.fallback environment⟩
        (properties.pick request.keys)).result.map fun finals =>
          request.keys.map (line (Table.ofList finals))).mapError .expansion := by
  have expanded := result_resolveKeys (request.fallback environment) properties request.keys
    Table.empty
  unfold lines
  simp only [result_bind, loads, if_neg named]
  change ((resolveKeys (request.fallback environment) properties request.keys
    Table.empty).result >>= fun resolved => .ok (request.keys.map (line resolved))) = _
  rw [expanded]
  cases (expandEach _ (properties.pick request.keys)).result <;> rfl

/-- What is printed, and how a run ends, is not a matter of the log. -/
theorem run_congr {files others : Files} {environment another : Environment}
    {request asked : SubstRequest}
    (same : (request.lines files environment).result = (asked.lines others another).result) :
    (request.run files environment).pieces = (asked.run others another).pieces ∧
      (request.run files environment).ending = (asked.run others another).ending := by
  unfold run
  simp only [same]
  cases (asked.lines others another).result with
  | error fault => exact ⟨rfl, rfl⟩
  | ok lines => exact ⟨rfl, rfl⟩

end SubstRequest

theorem Report.outcome_congr {first second : Report} (pieces : first.pieces = second.pieces)
    (ending : first.ending = second.ending) (level another : Severity) :
    (first.outcome level).output = (second.outcome another).output ∧
      (first.outcome level).ending = (second.outcome another).ending := by
  unfold outcome
  rw [pieces, ending]
  exact ⟨rfl, rfl⟩

/-- A run that comes to expand some keys: its command line asks for them, and the properties could
be loaded. -/
structure KeyRun (world : World) (words : List Text) where
  settings : Settings
  request : SubstRequest
  properties : Properties
  asks : Request.read words = .ok ⟨settings, some (.subst request)⟩
  loads : (request.properties world.files).result = .ok properties
  named : request.keys ≠ []

namespace KeyRun

variable {world other : World} {words others : List Text}

/-- Where names without a property are sought. -/
def fallback (keyRun : KeyRun world words) : Option Source :=
  if keyRun.request.useEnvironment then some world.environment.source else none

def sources (keyRun : KeyRun world words) : Sources :=
  ⟨some (.ofTable keyRun.properties), keyRun.fallback⟩

/-- The expansion of the named keys. -/
def resolution (keyRun : KeyRun world words) : Resolution (List (Text × Text)) :=
  expandEach keyRun.sources (keyRun.properties.pick keyRun.request.keys)

/-- The names that are looked up while the named keys are expanded. -/
def lookedUp (keyRun : KeyRun world words) : List Text := lookups keyRun.resolution.journal

theorem result_lines (keyRun : KeyRun world words) :
    (keyRun.request.lines world.files world.environment).result =
      (keyRun.resolution.result.map fun finals =>
        keyRun.request.keys.map (SubstRequest.line (Table.ofList finals))).mapError .expansion :=
  SubstRequest.result_lines_of_named keyRun.loads keyRun.named

theorem run_eq (keyRun : KeyRun world words) :
    run world words =
      (keyRun.request.run world.files world.environment).outcome keyRun.settings.level := by
  simp only [run, keyRun.asks]
  rfl

/-- Two runs print the same and end in the same way if their keys come to the same. -/
theorem outcome_congr (first : KeyRun world words) (second : KeyRun other others)
    (keys : second.request.keys = first.request.keys)
    (result : second.resolution.result = first.resolution.result) :
    (run other others).output = (run world words).output ∧
      (run other others).ending = (run world words).ending := by
  have lines : (second.request.lines other.files other.environment).result =
      (first.request.lines world.files world.environment).result := by
    rw [second.result_lines, first.result_lines, keys, result]
  obtain ⟨pieces, ending⟩ := SubstRequest.run_congr lines
  rw [first.run_eq, second.run_eq]
  exact Report.outcome_congr pieces ending _ _

/-- Properties that are alike on the named keys, and on what is looked up for them, give the same
result. -/
theorem resolution_congr (first : KeyRun world words) (second : KeyRun other others)
    (keys : second.request.keys = first.request.keys) (fallback : second.fallback = first.fallback)
    (agree : ∀ name, name ∈ first.request.keys ∨ name ∈ first.lookedUp →
      first.properties.get? name = second.properties.get? name) :
    second.resolution.result = first.resolution.result := by
  have picked : first.properties.pick first.request.keys =
      second.properties.pick first.request.keys :=
    Properties.pick_congr fun key mem => agree key (Or.inl mem)
  unfold resolution
  rw [keys, ← picked]
  refine (expandEach_alike fun name mem => ?_).1
  have same := agree name (Or.inr mem)
  simp only [sources, fallback, Sources.lookup, Sources.ask, Source.ofTable, same]

end KeyRun

/-- What no lookup asks for has no part in an expansion. Responders that agree on the names looked
up over the first look up the same names and come to the same, after any number of turns and at the
end. So the properties that are not named on a command line and not looked up for those that are
show neither in the output nor in the exit code. -/
theorem alike_of_agree_on_lookups :
    (∀ (one two : Responder) (look other : Look), one.Steady look → two.Steady other →
      ∀ (t : Text) (key : Option Text) (busy : Names),
        (∀ n, (∀ name ∈ lookups (expandWithin one n t key busy).journal, look name = other name) →
          (expandWithin two n t key busy).result? = (expandWithin one n t key busy).result? ∧
            lookups (expandWithin two n t key busy).journal =
              lookups (expandWithin one n t key busy).journal) ∧
        ∀ (finite : one.Finite) (finiteToo : two.Finite),
          (∀ name ∈ lookups (expandWith one finite t key busy).journal, look name = other name) →
          (expandWith two finiteToo t key busy).result = (expandWith one finite t key busy).result ∧
            lookups (expandWith two finiteToo t key busy).journal =
              lookups (expandWith one finite t key busy).journal) ∧
    ∀ (world changed : World) (words others : List Text) (first : KeyRun world words)
      (second : KeyRun changed others), second.request.keys = first.request.keys →
      second.fallback = first.fallback →
      (∀ name, name ∈ first.request.keys ∨ name ∈ first.lookedUp →
        first.properties.get? name = second.properties.get? name) →
      (run changed others).output = (run world words).output ∧
        (run changed others).ending = (run world words).ending := by
  refine ⟨fun one two look other steady steadyToo t key busy => ⟨fun n agree => ?_,
    fun finite finiteToo agree => ?_⟩, fun world changed words others first second keys fallback
      agree => ?_⟩
  · exact expandWithin_alike steady steadyToo agree
  · exact expandWith_alike steady steadyToo finite finiteToo agree
  · exact first.outcome_congr second keys (first.resolution_congr second keys fallback agree)

/-- No files, an empty environment and nothing to read. -/
def World.blank : World := ⟨.ofContents fun _ => .error .noSuchFile, Table.empty, []⟩

/-- A key whose value refers to another property. -/
def libraryRun : KeyRun .blank
    ["subst", "--no-env", "--set", "base=/opt", "--set", "lib=$\x7bbase\x7d/lib", "lib"] where
  settings := ⟨.warning, false, false⟩
  request := ⟨["lib"], [], ["base=/opt", "lib=$\x7bbase\x7d/lib"], false⟩
  properties := ⟨[("base", "/opt"), ("lib", "$\x7bbase\x7d/lib")], by decide⟩
  asks := by decide +kernel
  loads := by rfl
  named := by decide

/-- The same key beside a property that refers to itself. -/
def brokenRun : KeyRun .blank
    ["subst", "--no-env", "--set", "base=/opt", "--set", "lib=$\x7bbase\x7d/lib",
      "--set", "bad=$\x7bbad\x7d", "lib"] where
  settings := ⟨.warning, false, false⟩
  request := ⟨["lib"], [], ["base=/opt", "lib=$\x7bbase\x7d/lib", "bad=$\x7bbad\x7d"], false⟩
  properties :=
    ⟨[("base", "/opt"), ("lib", "$\x7bbase\x7d/lib"), ("bad", "$\x7bbad\x7d")], by decide⟩
  asks := by decide +kernel
  loads := by rfl
  named := by decide

theorem expandWithin_libraryRun :
    expandWithin libraryRun.sources.responder 2 "$\x7bbase\x7d/lib" (some "lib") [] =
      .ended ⟨.ok "/opt/lib", [], [.asked .primary "base" ["base", "lib"],
        .resolved "base" "/opt"]⟩ := rfl

theorem lookedUp_libraryRun : libraryRun.lookedUp = ["base"] := by
  have expanded := expandWith_of_within libraryRun.sources.responder_finite expandWithin_libraryRun
  have done : (expand libraryRun.sources "$\x7bbase\x7d/lib" (some "lib") []).result =
      .ok "/opt/lib" := congrArg Expansion.result expanded
  change lookups (expandEach libraryRun.sources [("lib", "$\x7bbase\x7d/lib")]).journal = _
  rw [expandEach_of_ok done, expand, expanded]
  rfl

/-- The property that refers to itself is not seen, neither by the key nor on the command line. -/
theorem alike_brokenRun :
    ((expandWithin brokenRun.sources.responder 2 "$\x7bbase\x7d/lib" (some "lib") []).result? =
        (expandWithin libraryRun.sources.responder 2 "$\x7bbase\x7d/lib" (some "lib") []).result? ∧
      (expand brokenRun.sources "$\x7bbase\x7d/lib" (some "lib") []).result =
        (expand libraryRun.sources "$\x7bbase\x7d/lib" (some "lib") []).result) ∧
    (run .blank ["subst", "--no-env", "--set", "base=/opt", "--set", "lib=$\x7bbase\x7d/lib",
        "--set", "bad=$\x7bbad\x7d", "lib"]).output =
      (run .blank ["subst", "--no-env", "--set", "base=/opt", "--set", "lib=$\x7bbase\x7d/lib",
        "lib"]).output := by
  have agree (name : Text) (mem : name ∈ (["base"] : List Text)) :
      libraryRun.sources.lookup name = brokenRun.sources.lookup name := by
    rw [List.mem_singleton.1 mem]
    rfl
  obtain ⟨within, whole⟩ := alike_of_agree_on_lookups.1 _ _ _ _
    libraryRun.sources.responder_steady brokenRun.sources.responder_steady
    "$\x7bbase\x7d/lib" (some "lib") []
  refine ⟨⟨(within 2 ?_).1, (whole _ _ ?_).1⟩,
    (alike_of_agree_on_lookups.2 _ _ _ _ libraryRun brokenRun rfl rfl ?_).1⟩
  · rw [expandWithin_libraryRun]
    exact agree
  · rw [expandWith_of_within libraryRun.sources.responder_finite expandWithin_libraryRun]
    exact agree
  · rintro name (key | looked)
    · rw [List.mem_singleton.1 key]
      rfl
    · rw [lookedUp_libraryRun] at looked
      rw [List.mem_singleton.1 looked]
      rfl

end CommandLine

end PropertyToolkit
