import PropertyToolkit.Substitution.Span
import PropertyToolkit.Table
import PropertyToolkit.Text.Utf8
import PropertyToolkit.Value.Basic

/-!
Where values come from. A source answers a name with a value, with a miss, or not at all. Sources
stand in pairs: the fallback is asked only when the primary one misses. A table is a source, and so
is a map of dynamic values, whose texts are made at the moment of the question.

Two forms are kept. A `Source` answers every name in one fixed way and has a non-empty value for
finitely many names only; this is what a map or an environment gives. A `Responder` may let its
answers depend on all that was asked before, so it covers sources that change or fail halfway.
-/

set_option autoImplicit false

namespace PropertyToolkit.Substitution

/-- Why a source gives no answer, not even a miss. -/
inductive Refusal where
  /-- The source itself failed. -/
  | unavailable
  /-- The name cannot be written in the encoding of the source. -/
  | unencodable (fault : Utf8.EncodeFault)
deriving DecidableEq

def Refusal.message : Refusal → Text
  | unavailable => []
  | unencodable fault => fault.message

structure Source where
  get : Text → Except Refusal (Option Text)
  finite : ∃ names : Names, ∀ name value, get name = .ok (some value) → value ≠ [] → name ∈ names

namespace Source

theorem mem_keys_of_get? {κ ν : Type} [DecidableEq κ] {table : Table κ ν} {key : κ} {value : ν}
    (h : table.get? key = some value) : key ∈ table.keys := by
  obtain ⟨entry, found, _⟩ := Option.map_eq_some_iff.1 h
  have same : entry.1 = key := by simpa using List.find?_some found
  exact same ▸ List.mem_map_of_mem (List.mem_of_find?_eq_some found)

def ofTable (table : Table Text Text) : Source where
  get name := .ok (table.get? name)
  finite := ⟨table.keys, fun _ _ found _ => mem_keys_of_get? (Except.ok.inj found)⟩

/-- The value of a name in a map of dynamic values. A value of null counts as a miss. -/
def valueIn (entries : List (Value × Value)) (name : Text) : Option Text :=
  match entries.find? fun entry => entry.1.same (.text name) with
  | none | some (_, .null) => none
  | some (_, value) => some value.property

/-- The keys of a map that are texts. -/
def textKeys (entries : List (Value × Value)) : Names :=
  entries.filterMap fun entry =>
    match entry.1 with
    | .text name => some name
    | _ => none

/-- Only a text equals a text. -/
theorem eq_of_same_text {key : Value} {name : Text} (h : key.same (.text name) = true) :
    key = .text name := by
  cases key <;> simp_all [Value.same]

theorem mem_textKeys_of_valueIn {entries : List (Value × Value)} {name value : Text}
    (h : valueIn entries name = some value) : name ∈ textKeys entries := by
  unfold valueIn at h
  split at h
  · cases h
  · cases h
  · next key _ _ found =>
    have same := List.find?_some found
    have known : key = .text name := eq_of_same_text same
    refine List.mem_filterMap.2 ⟨_, List.mem_of_find?_eq_some found, ?_⟩
    rw [known]

def ofValues (entries : List (Value × Value)) : Source where
  get name := .ok (valueIn entries name)
  finite := ⟨textKeys entries, fun _ _ found _ => mem_textKeys_of_valueIn (Except.ok.inj found)⟩

/-- A source that fails on some names and answers the others as before. -/
def failingOn (names : Names) (source : Source) : Source where
  get name := if name ∈ names then .error .unavailable else source.get name
  finite := by
    obtain ⟨known, covered⟩ := source.finite
    refine ⟨known, fun name value found filled => ?_⟩
    split at found
    · cases found
    · exact covered name value found filled

end Source

structure Sources where
  primary : Option Source
  fallback : Option Source

inductive Side where
  | primary
  | fallback
deriving DecidableEq

/-- What happens in the course of an expansion, as far as an observer can tell. -/
inductive Event where
  /-- One source is asked for a name while the names of `busy` are in progress. -/
  | asked (side : Side) (name : Text) (busy : Names)
  /-- A placeholder is replaced by the value of its name. -/
  | resolved (name value : Text)
deriving DecidableEq

abbrev Journal := List Event

/-- An answer that may depend on what happened before. -/
abbrev Answer := Journal → Text → Except Refusal (Option Text)

structure Responder where
  primary : Option Answer
  fallback : Option Answer

namespace Responder

/-- Notes the question, then asks it. An absent source misses and is not asked. -/
def ask (answer? : Option Answer) (side : Side) (name : Text) (busy : Names) (journal : Journal) :
    Except Refusal (Option Text) × Journal :=
  match answer? with
  | none => (.ok none, journal)
  | some answer => (answer journal name, journal ++ [.asked side name busy])

/-- The value of a name: from the primary source, else from the fallback, else empty. -/
def lookup (responder : Responder) (name : Text) (busy : Names) (journal : Journal) :
    Except Refusal Text × Journal :=
  match ask responder.primary .primary name busy journal with
  | (.error refusal, journal) => (.error refusal, journal)
  | (.ok (some value), journal) => (.ok value, journal)
  | (.ok none, journal) =>
    match ask responder.fallback .fallback name busy journal with
    | (.error refusal, journal) => (.error refusal, journal)
    | (.ok found, journal) => (.ok (found.getD []), journal)

/-- Only finitely many names have a non-empty value, and the values are bounded in length. -/
def Finite (responder : Responder) : Prop :=
  ∃ (names : Names) (longest : Nat), ∀ name busy journal value,
    (responder.lookup name busy journal).1 = .ok value → value ≠ [] →
      name ∈ names ∧ value.length ≤ longest

end Responder

namespace Sources

/-- The answer of a source that may be absent. -/
def ask (source? : Option Source) (name : Text) : Except Refusal (Option Text) :=
  match source? with
  | none => .ok none
  | some source => source.get name

/-- The value of a name: from the primary source, else from the fallback, else empty. -/
def lookup (sources : Sources) (name : Text) : Except Refusal Text :=
  match ask sources.primary name with
  | .error refusal => .error refusal
  | .ok (some value) => .ok value
  | .ok none =>
    match ask sources.fallback name with
    | .error refusal => .error refusal
    | .ok found => .ok (found.getD [])

def responder (sources : Sources) : Responder where
  primary := sources.primary.map fun source _ name => source.get name
  fallback := sources.fallback.map fun source _ name => source.get name

theorem ask_responder (source? : Option Source) (side : Side) (name : Text) (busy : Names)
    (journal : Journal) :
    (Responder.ask (source?.map fun source _ name => source.get name) side name busy journal).1 =
      ask source? name := by
  cases source? <;> rfl

/-- The history has no part in what fixed sources answer. -/
theorem lookup_responder (sources : Sources) (name : Text) (busy : Names) (journal : Journal) :
    (sources.responder.lookup name busy journal).1 = sources.lookup name := by
  have first := ask_responder sources.primary .primary name busy journal
  unfold Responder.lookup lookup responder
  split
  · next refused => simp only [← first, refused]
  · next found => simp only [← first, found]
  · next later missed =>
    have second := ask_responder sources.fallback .fallback name busy later
    simp only [← first, missed]
    split
    · next refused => simp only [← second, refused]
    · next found => simp only [← second, found]

theorem lookup_finite (sources : Sources) :
    ∃ names : Names, ∀ name value, sources.lookup name = .ok value → value ≠ [] → name ∈ names := by
  have each (source? : Option Source) : ∃ names : Names, ∀ name value,
      ask source? name = .ok (some value) → value ≠ [] → name ∈ names := by
    cases source? with
    | none => exact ⟨[], fun _ _ found => by cases found⟩
    | some source => exact source.finite
  obtain ⟨first, inFirst⟩ := each sources.primary
  obtain ⟨second, inSecond⟩ := each sources.fallback
  refine ⟨first ++ second, fun name value found filled => ?_⟩
  unfold lookup at found
  rw [List.mem_append]
  split at found
  · cases found
  · next given =>
    rw [Except.ok.injEq] at found
    exact Or.inl (inFirst name value (found ▸ given) filled)
  · split at found
    · cases found
    · next answer given =>
      cases answer with
      | none =>
        cases found
        exact absurd rfl filled
      | some text =>
        cases found
        exact Or.inr (inSecond name text given filled)

/-- Finitely many values have a longest one. -/
theorem responder_finite (sources : Sources) : sources.responder.Finite := by
  obtain ⟨names, covered⟩ := sources.lookup_finite
  have bounded : ∃ longest, ∀ name ∈ names, ∀ value, sources.lookup name = .ok value →
      value.length ≤ longest := by
    clear covered
    induction names with
    | nil => exact ⟨0, fun _ mem => by simp at mem⟩
    | cons first rest ih =>
      obtain ⟨longest, bound⟩ := ih
      cases known : sources.lookup first with
      | error refusal =>
        refine ⟨longest, fun name mem value found => ?_⟩
        rcases List.mem_cons.1 mem with rfl | later
        · rw [known] at found
          cases found
        · exact bound name later value found
      | ok text =>
        refine ⟨max text.length longest, fun name mem value found => ?_⟩
        rcases List.mem_cons.1 mem with rfl | later
        · rw [known] at found
          cases found
          exact Nat.le_max_left ..
        · exact Nat.le_trans (bound name later value found) (Nat.le_max_right ..)
  obtain ⟨longest, bound⟩ := bounded
  refine ⟨names, longest, fun name busy journal value found filled => ?_⟩
  rw [lookup_responder] at found
  have mem := covered name value found filled
  exact ⟨mem, bound name mem value found⟩

end Sources

end PropertyToolkit.Substitution
