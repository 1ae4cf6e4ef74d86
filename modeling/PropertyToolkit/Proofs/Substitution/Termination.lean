import Mathlib.Algebra.Group.Nat.Defs
import PropertyToolkit.Proofs.Substitution.Provenance

/-!
How long an expansion takes. The turns are counted: a text of `t` code points takes no more than
`t * (longest + 1) ^ names` turns and one that finds it settled, where `names` counts the names with
a value and `longest` is the length of their longest value.
-/

set_option autoImplicit false

namespace PropertyToolkit.Substitution

namespace Progress

/-- At most so many turns, one after the other. -/
def turns (responder : Responder) : Nat → Progress → Turn
  | 0, progress => .continued progress
  | n + 1, progress =>
    match progress.turn responder with
    | .ended expansion => .ended expansion
    | .continued next => turns responder n next

/-- Every turn but the last makes the text lighter, so the weight bounds their number. -/
theorem turns_end_of_weight_lt {responder : Responder} {names : Names} {longest : Nat}
    (bounded : ∀ name busy journal value, (responder.lookup name busy journal).1 = .ok value →
      value ≠ [] → name ∈ names ∧ value.length ≤ longest)
    {n : Nat} {progress : Progress}
    (light : Span.weight names (longest + 1) progress.spans < n) :
    ∃ expansion, progress.turns responder n = .ended expansion := by
  induction n generalizing progress with
  | zero => exact absurd light (Nat.not_lt_zero _)
  | succ n ih =>
    rw [turns]
    cases step : progress.turn responder with
    | ended expansion => exact ⟨expansion, rfl⟩
    | continued next =>
      have lighter := weight_turn_lt bounded step
      exact ih (by omega)

/-- Turns that end are a run. -/
theorem run_of_turns {responder : Responder} (finite : responder.Finite) {n : Nat}
    {progress : Progress} {expansion : Expansion}
    (ended : progress.turns responder n = .ended expansion) :
    progress.run responder finite = expansion := by
  induction n generalizing progress with
  | zero => cases ended
  | succ n ih =>
    rw [turns] at ended
    cases step : progress.turn responder with
    | ended early =>
      rw [step] at ended
      rw [run_of_ended step, Turn.ended.inj ended]
    | continued next =>
      rw [step] at ended
      rw [run_of_continued step, ih ended]

theorem weight_start (names : Names) (base : Nat) (t : Text) (key : Option Text) (busy : Names) :
    Span.weight names base (start t key busy).spans = t.length * base ^ names.length := by
  have whole : names.missing [] = names.length := by
    unfold Names.missing
    rw [List.countP_eq_length]
    intro name _
    simp
  have share : names.share base [] = base ^ names.length := by
    rw [Names.share, whole]
    rfl
  rw [← share, ← Span.weighTagged_same, start, Span.weight, Span.tagged_cons, Span.tagged_nil,
    List.append_nil]

end Progress

/-- What a turn ends with, if it ends. -/
def Turn.result? : Turn → Option (Except Fault Text)
  | .ended expansion => some expansion.result
  | .continued _ => none

theorem result_expand_of_turns {sources : Sources} {t : Text} {key : Option Text} {busy : Names}
    {result : Except Fault Text} (n : Nat)
    (ended : ((Progress.start t key busy).turns sources.responder n).result? = some result) :
    (expand sources t key busy).result = result := by
  rw [(expand_eq_run sources t key busy).1]
  cases taken : (Progress.start t key busy).turns sources.responder n with
  | ended expansion =>
    rw [taken] at ended
    rw [Progress.run_of_turns sources.responder_finite taken]
    exact Option.some.inj ended
  | continued next =>
    rw [taken] at ended
    cases ended

namespace Sources

/-- The names and lengths that bound the answers of a pair of sources. -/
theorem exists_bound (sources : Sources) : ∃ (names : Names) (longest : Nat),
    ∀ name value, sources.lookup name = .ok value → value ≠ [] →
      name ∈ names ∧ value.length ≤ longest := by
  obtain ⟨names, longest, bounded⟩ := sources.responder_finite
  refine ⟨names, longest, fun name value found filled => bounded name [] [] value ?_ filled⟩
  rw [sources.lookup_responder, found]

end Sources

/-- Every expansion comes to an end, within a number of turns that the sources and the length of the
text bound, and what it ends with is what `expand` gives. -/
theorem turns_end (sources : Sources) : ∃ (names : Names) (longest : Nat),
    (∀ name value, sources.lookup name = .ok value → value ≠ [] →
      name ∈ names ∧ value.length ≤ longest) ∧
    ∀ (t : Text) (key : Option Text) (busy : Names), ∃ expansion,
      (Progress.start t key busy).turns sources.responder
        (t.length * (longest + 1) ^ names.length + 1) = .ended expansion ∧
      (expand sources t key busy).result = expansion.result ∧
      (expand sources t key busy).journal = expansion.journal := by
  obtain ⟨names, longest, bounded⟩ := sources.exists_bound
  refine ⟨names, longest, bounded, fun t key busy => ?_⟩
  have answers : ∀ name busy journal value,
      (sources.responder.lookup name busy journal).1 = .ok value → value ≠ [] →
        name ∈ names ∧ value.length ≤ longest := by
    intro name busy journal value found
    rw [sources.lookup_responder] at found
    exact bounded name value found
  have light : Span.weight names (longest + 1) (Progress.start t key busy).spans <
      t.length * (longest + 1) ^ names.length + 1 := by
    rw [Progress.weight_start]
    exact Nat.lt_succ_self _
  obtain ⟨expansion, ended⟩ := Progress.turns_end_of_weight_lt answers light
  have run := Progress.run_of_turns sources.responder_finite ended
  obtain ⟨result, journal⟩ := expand_eq_run sources t key busy
  rw [run] at result journal
  exact ⟨expansion, ended, result, journal⟩

end PropertyToolkit.Substitution
