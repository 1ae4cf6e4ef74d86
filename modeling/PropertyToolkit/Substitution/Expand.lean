import PropertyToolkit.Substitution.Source
import PropertyToolkit.Substitution.Weight

/-!
Expanding the placeholders of a text. Each turn replaces the innermost placeholder of the first
closing brace by the value of its name, as it stands, and then the whole text is looked at again; a
value may therefore open or close placeholders around it. A name is cyclic if it is already in
progress, or if its own value had a part in spelling the placeholder.

Turns are defined for every responder. With finite sources they come to an end, which makes `expand`
a function.
-/

set_option autoImplicit false

namespace PropertyToolkit.Substitution

inductive Fault where
  /-- A closing brace has no opening before it; `value` is the text at that moment. -/
  | unmatched (value : Text)
  /-- A name is needed to find its own value. -/
  | cyclic (name : Text)
  /-- A source gave no answer. -/
  | refused (refusal : Refusal)
deriving DecidableEq

/-- An expansion under way. -/
structure Progress where
  spans : List Span
  busy : Names
  journal : Journal

/-- An expansion that has ended. -/
structure Expansion where
  result : Except Fault Text
  busy : Names
  journal : Journal

inductive Turn where
  | ended (expansion : Expansion)
  | continued (progress : Progress)

namespace Progress

/-- Ends with the names and the journal as they are. -/
def finish (progress : Progress) (result : Except Fault Text) : Turn :=
  .ended ⟨result, progress.busy, progress.journal⟩

/-- One turn. A name is in progress while it is looked up, and no longer. -/
def turn (responder : Responder) (progress : Progress) : Turn :=
  let t := Span.joined progress.spans
  match scan t with
  | .settled => progress.finish (.ok t)
  | .unopened => progress.finish (.error (.unmatched t))
  | .placeholder before name _ =>
    let start := before.length
    let stop := start + (opening.length + name.length + closing.length)
    let origins := Span.originsBetween progress.spans start stop
    if name ∈ progress.busy ∨ name ∈ origins then progress.finish (.error (.cyclic name))
    else
      let busy := progress.busy.insert name
      let (reply, journal) := responder.lookup name busy progress.journal
      let busy := busy.erase name
      match reply with
      | .error refusal => .ended ⟨.error (.refused refusal), busy, journal⟩
      | .ok value =>
        .continued
          { spans := Span.splice progress.spans start stop ⟨value, origins.union [name]⟩
            busy
            journal := journal ++ [.resolved name value] }

/-- A turn that continues makes the text lighter. -/
theorem weight_turn_lt {responder : Responder} {names : Names} {longest : Nat}
    (bounded : ∀ name busy journal value, (responder.lookup name busy journal).1 = .ok value →
      value ≠ [] → name ∈ names ∧ value.length ≤ longest)
    {progress next : Progress} (h : progress.turn responder = .continued next) :
    Span.weight names (longest + 1) next.spans <
      Span.weight names (longest + 1) progress.spans := by
  unfold turn at h
  dsimp only at h
  split at h
  · cases h
  · cases h
  · next before name after found =>
    split at h
    · cases h
    · next fresh =>
      split at h
      · cases h
      · next value reply =>
        cases h
        have same := eq_of_scan found
        have length := congrArg List.length same
        simp only [List.length_append] at length
        exact Span.weight_splice_lt
          (Nat.lt_add_of_pos_right (by
            rw [Nat.add_assoc]
            exact Nat.lt_of_lt_of_le (show 0 < opening.length by decide) (Nat.le_add_right ..)))
          (by omega) (fun mem => fresh (Or.inr mem)) (fun filled => bounded _ _ _ _ reply filled)

/-- Takes turns until the expansion ends. -/
def run (responder : Responder) (finite : responder.Finite) (progress : Progress) : Expansion :=
  match _h : progress.turn responder with
  | .ended expansion => expansion
  | .continued next => run responder finite next
termination_by
  Span.weight (Classical.choose finite)
    (Classical.choose (Classical.choose_spec finite) + 1) progress.spans
decreasing_by
  exact weight_turn_lt (Classical.choose_spec (Classical.choose_spec finite)) _h

end Progress

/-- Expands a text while the names of `busy` are in progress, and with them the name `key` whose
value the text is. A name joins them for the time of the expansion only. -/
def expandWith (responder : Responder) (finite : responder.Finite) (t : Text) (key : Option Text)
    (busy : Names) : Expansion :=
  match key with
  | none => Progress.run responder finite ⟨[⟨t, []⟩], busy, []⟩
  | some name =>
    if name ∈ busy then Progress.run responder finite ⟨[⟨t, []⟩], busy, []⟩
    else
      let expansion := Progress.run responder finite ⟨[⟨t, []⟩], busy.insert name, []⟩
      { expansion with busy := expansion.busy.erase name }

/-- Expansion over a pair of fixed sources. -/
def expand (sources : Sources) (t : Text) (key : Option Text) (busy : Names) : Expansion :=
  expandWith sources.responder sources.responder_finite t key busy

namespace Fault

def message : Fault → Text
  | unmatched value => "stop delimiter with no start delimiter: " ++ value
  | cyclic name => "recursive variable reference: " ++ name
  | refused refusal => refusal.message

/-- The word by which callers tell which rule was broken. -/
def kind : Fault → Text
  | unmatched _ => "unmatched_delimiter"
  | cyclic _ => "cyclic_reference"
  | refused _ => "substitution"

end Fault

end PropertyToolkit.Substitution
