import PropertyToolkit.Proofs.Substitution.Evaluation
import PropertyToolkit.Proofs.Substitution.PartialEvaluation

/-!
A reference and the property it names. After the reference has given way to the value, the name is
behind every code point; in an expansion of the value under its own key, the name is in progress and
behind none. The two texts make the same moves, since a name counts as cyclic on either ground.
-/

set_option autoImplicit false

namespace PropertyToolkit.Substitution

open Marked

namespace Marked

/-- The same text with one more name behind every code point. -/
def touch (name : Text) (m : Marked) : Marked := m.map fun entry => (entry.1, insert name entry.2)

@[simp] theorem text_touch (name : Text) (m : Marked) : (touch name m).text = m.text := by
  simp [touch, text, Function.comp_def]

@[simp] theorem touch_append (name : Text) (first second : Marked) :
    touch name (first ++ second) = touch name first ++ touch name second := List.map_append

@[simp] theorem touch_mark (name t : Text) (names : Finset Text) :
    touch name (mark t names) = mark t (insert name names) := by
  simp [touch, mark, Function.comp_def]

theorem origins_touch (name : Text) {m : Marked} (filled : m ≠ []) :
    (touch name m).origins = insert name m.origins := by
  induction m with
  | nil => exact absurd rfl filled
  | cons entry rest ih =>
    have unfolded : touch name (entry :: rest) =
        (entry.1, insert name entry.2) :: touch name rest := rfl
    rw [unfolded, origins_cons, origins_cons]
    by_cases last : rest = []
    · rw [last]
      exact Finset.insert_union name entry.2 ∅
    · rw [ih last]
      exact (Finset.insert_union_distrib name entry.2 (origins rest)).symm

end Marked

namespace Placeholder

/-- The placeholder of a touched text. -/
def touch (name : Text) (place : Placeholder) : Placeholder where
  before := place.before.touch name
  middle := place.middle.touch name
  after := place.after.touch name
  name := place.name
  unclosed := by
    rw [text_touch]
    exact place.unclosed
  innermost := place.innermost
  spelled := by
    rw [text_touch]
    exact place.spelled

theorem whole_touch (name : Text) (place : Placeholder) :
    (place.touch name).whole = place.whole.touch name := by
  simp only [whole, touch, touch_append]

theorem origins_middle_touch (name : Text) (place : Placeholder) :
    (place.touch name).middle.origins = insert name place.middle.origins :=
  origins_touch name place.middle_ne_nil

theorem replacedBy_touch (name : Text) (place : Placeholder) (value : Text) :
    (place.touch name).replacedBy value = (place.replacedBy value).touch name := by
  rw [replacedBy, origins_middle_touch]
  simp only [replacedBy, touch, touch_append, touch_mark, Finset.insert_comm place.name name]

end Placeholder

namespace Marked

variable {look : Look} {busy : Names} {name : Text}

/-- A name behind every code point is as good as a name in progress. -/
theorem move_touch (m : Marked) :
    move look busy (m.touch name) =
      match move look (busy.insert name) m with
      | .ended result => .ended result
      | .replaced passed next => .replaced passed (next.touch name) := by
  cases found : scan m.text with
  | settled => simp only [move, text_touch, found]
  | unopened => simp only [move, text_touch, found]
  | placeholder before inner after =>
    obtain ⟨place, rfl⟩ := Placeholder.exists_of_scan found
    have known : place.name ∈ busy ∨ place.name ∈ (place.touch name).middle.origins ↔
        place.name ∈ busy.insert name ∨ place.name ∈ place.middle.origins := by
      rw [place.origins_middle_touch, Finset.mem_insert, List.mem_insert_iff, or_left_comm,
        or_assoc]
    have named : (place.touch name).name = place.name := rfl
    rw [← place.whole_touch, move_whole, move_whole, named]
    simp only [place.replacedBy_touch]
    by_cases cyclic : place.name ∈ busy.insert name ∨ place.name ∈ place.middle.origins
    · rw [if_pos cyclic, if_pos (known.2 cyclic)]
    · rw [if_neg cyclic, if_neg (fun again => cyclic (known.1 again))]
      cases look place.name <;> rfl

theorem Reaches.touch {m last : Marked} {names : List Text}
    (run : Reaches look (busy.insert name) m names last) :
    Reaches look busy (m.touch name) names (last.touch name) := by
  induction run with
  | refl m => exact .refl _
  | move step _ ih =>
    refine .move ?_ ih
    rw [move_touch, step]

theorem Ends.touch {m : Marked} {names : List Text} {result : Except Fault Text}
    (run : Ends look (busy.insert name) m names result) :
    Ends look busy (m.touch name) names result := by
  obtain ⟨last, moves, ended⟩ := run
  refine ⟨last.touch name, moves.touch, ?_⟩
  rw [move_touch, ended]

end Marked

/-- The text that refers to a name. -/
def reference (name : Text) : Text := opening ++ (name ++ closing)

/-- A reference on its own is a placeholder without surroundings. -/
theorem move_reference (look : Look) {busy : Names} {name : Text} (idle : name ∉ busy)
    (innermost : Innermost name) :
    move look busy (mark (reference name) ∅) =
      match look name with
      | .error refusal => .ended (.error (.refused refusal))
      | .ok value => .replaced name (mark value (insert name ∅)) := by
  let place : Placeholder :=
    ⟨[], mark (reference name) ∅, [], name, List.not_mem_nil, innermost, text_mark _ _⟩
  have unmarked : place.middle.origins = ∅ := by
    change origins (mark (reference name) ∅) = ∅
    rw [origins_mark, ite_self]
  have whole : place.whole = mark (reference name) ∅ := List.append_nil _
  have replaced (value : Text) : place.replacedBy value = mark value (insert name ∅) := by
    rw [Placeholder.replacedBy, unmarked]
    exact List.append_nil _
  have fresh : ¬(place.name ∈ busy ∨ place.name ∈ place.middle.origins) := by
    rw [unmarked, not_or]
    exact ⟨idle, Finset.notMem_empty name⟩
  rw [← whole, move_whole, if_neg fresh]
  simp only [replaced]
  rfl

/-- A reference comes to what the value of its name comes to under that name. -/
theorem result_expand_reference {sources : Sources} {busy : Names} {name : Text}
    (idle : name ∉ busy) (innermost : Innermost name) :
    (expand sources (reference name) none busy).result =
      ((sources.lookup name).mapError .refused >>= fun value =>
        (expand sources value (some name) busy).result) := by
  have step := move_reference sources.lookup idle innermost
  cases found : sources.lookup name with
  | error refusal =>
    rw [found] at step
    exact result_of_ends (.of_ended step)
  | ok value =>
    rw [found] at step
    obtain ⟨passed, ends⟩ := expand_ends sources value (some name) busy
    have moves := Ends.touch ends
    rw [touch_mark] at moves
    exact result_of_ends ((Reaches.single step).ends moves)

/-- A reference behaves as the property it names: it comes to the same text or to the same fault.
So in a property map that can be resolved, a reference to a property comes to what the property is
resolved to. -/
theorem expand_reference :
    (∀ (sources : Sources) (busy : Names) (name : Text), name ∉ busy → Innermost name →
      (expand sources (reference name) none busy).result =
        ((sources.lookup name).mapError .refused >>= fun value =>
          (expand sources value (some name) busy).result)) ∧
    ∀ (fallback : Option Source) (properties : Properties) (resolved : List (Text × Text)),
      (resolveAll fallback properties).result = .ok resolved →
      ∀ name ∈ properties.keys, Innermost name →
        ∃ final, (resolved.find? fun entry => entry.1 = name) = some (name, final) ∧
          (expand ⟨some (.ofTable properties), fallback⟩ (reference name) none []).result =
            .ok final := by
  constructor
  · intro sources busy name idle innermost
    exact result_expand_reference idle innermost
  · intro fallback properties resolved done name mem innermost
    obtain ⟨⟨_, value⟩, listed, rfl⟩ := List.mem_map.1 mem
    obtain ⟨final, known, expanded⟩ :=
      exists_of_mem_entries ((expandEach_eq_ok_iff _).1 done) listed
    refine ⟨final, Table.find?_of_mem (nodup_of_resolveAll done) known, ?_⟩
    rw [result_expand_reference List.not_mem_nil innermost, Sources.lookup_of_mem listed]
    exact expanded

/-- A name whose value refers on: under a name in progress both come to the same cycle, and on
their own to the same address. -/
theorem expand_reference_pages :
    (("url.prod" : Text) ∉ ([("host" : Text)] : Names) ∧ Innermost "url.prod" ∧
      (expand ⟨some (.ofTable pages), none⟩ (reference "url.prod") none ["host"]).result =
        .error (.cyclic "host")) ∧
    (resolveAll none pages).result =
        .ok [("env", "prod"), ("url.prod", "http://h"), ("host", "h")] ∧
      (expand ⟨some (.ofTable pages), none⟩ (reference "url.prod") none []).result =
        .ok "http://h" := by
  have plain : Plain "url.prod" := by decide
  have idle : ("url.prod" : Text) ∉ ([("host" : Text)] : Names) := by decide
  have done : (resolveAll none pages).result =
      .ok [("env", "prod"), ("url.prod", "http://h"), ("host", "h")] := by
    refine (expandEach_eq_ok_iff _).2 (.cons ⟨rfl, ?_⟩ (.cons ⟨rfl, ?_⟩ (.cons ⟨rfl, ?_⟩ .nil)))
    · exact result_expand_of_turns 1 (by decide +kernel)
    · exact result_expand_of_turns 2 (by decide +kernel)
    · exact result_expand_of_turns 1 (by decide +kernel)
  refine ⟨⟨idle, plain.innermost, ?_⟩, done, ?_⟩
  · have found : (⟨some (.ofTable pages), none⟩ : Sources).lookup "url.prod" =
        .ok "http://$\x7bhost\x7d" := by decide +kernel
    rw [expand_reference.1 _ _ _ idle plain.innermost, found]
    exact result_expand_of_turns 1 (by decide +kernel)
  · obtain ⟨final, found, expanded⟩ :=
      expand_reference.2 none pages _ done "url.prod" (by decide +kernel) plain.innermost
    cases found
    exact expanded

end PropertyToolkit.Substitution
