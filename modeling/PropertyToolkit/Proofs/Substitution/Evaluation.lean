import Mathlib.Data.Finset.Card
import PropertyToolkit.Proofs.Substitution.Journal
import PropertyToolkit.Proofs.Substitution.Sources
import PropertyToolkit.Proofs.Substitution.Template

/-!
Templates evaluate by recursion on their trees, without a text that is scanned again and again. The
value of a name is read as a template and evaluated in its turn. With each text comes the set of
names that had a part in it. Where all values are templates, expansion gives what evaluation gives.
-/

set_option autoImplicit false

namespace PropertyToolkit.Substitution

open Marked

namespace Template

/-- Why a template has no value. -/
inductive Obstacle where
  /-- A name is needed to find its own value. -/
  | cyclic (name : Text)
  /-- A source gave no answer. -/
  | refused (refusal : Refusal)
deriving DecidableEq

def Obstacle.fault : Obstacle → Fault
  | cyclic name => .cyclic name
  | refused refusal => .refused refusal

theorem Obstacle.fault_injective {first second : Obstacle} (same : first.fault = second.fault) :
    first = second := by
  cases first <;> cases second <;> simp_all [fault]

/-- How many of the names with a value are still to come. -/
noncomputable def remaining (sources : Sources) (origins : Finset Text) : Nat :=
  ((Classical.choose sources.lookup_finite).toFinset \ origins).card

theorem remaining_le (sources : Sources) {fewer more : Finset Text} (sub : fewer ⊆ more) :
    remaining sources more ≤ remaining sources fewer :=
  Finset.card_le_card (Finset.sdiff_subset_sdiff (Finset.Subset.refl _) sub)

theorem remaining_lt {sources : Sources} {fewer more : Finset Text} {name value : Text}
    (sub : fewer ⊆ more) (new : name ∉ fewer) (gained : name ∈ more)
    (found : sources.lookup name = .ok value) (filled : value ≠ []) :
    remaining sources more < remaining sources fewer := by
  have listed := Classical.choose_spec sources.lookup_finite name value found filled
  refine Finset.card_lt_card (Finset.ssubset_iff_subset_ne.2 ⟨?_, ?_⟩)
  · exact Finset.sdiff_subset_sdiff (Finset.Subset.refl _) sub
  · intro same
    have kept : name ∈ (Classical.choose sources.lookup_finite).toFinset \ fewer :=
      Finset.mem_sdiff.2 ⟨List.mem_toFinset.2 listed, new⟩
    rw [← same] at kept
    exact (Finset.mem_sdiff.1 kept).2 gained

/-- The text of a template and the names that have a part in it, where `busy` is in progress and
`origins` had a part in the template itself. -/
def evaluate (sources : Sources) (busy : Names) (origins : Finset Text) :
    Template → Except Obstacle (Text × Finset Text)
  | lit t _ => .ok (t, if t = [] then ∅ else origins)
  | cat first second =>
    match evaluate sources busy origins first with
    | .error obstacle => .error obstacle
    | .ok (s, names) =>
      match evaluate sources busy origins second with
      | .error obstacle => .error obstacle
      | .ok (t, more) => .ok (s ++ t, names ∪ more)
  | ref template =>
    match evaluate sources busy origins template with
    | .error obstacle => .error obstacle
    | .ok (name, names) =>
      if _fresh : name ∈ busy ∨ name ∈ origins ∪ names then .error (.cyclic name)
      else
        match _found : sources.lookup name with
        | .error refusal => .error (.refused refusal)
        | .ok value => evaluate sources busy (insert name (origins ∪ names)) (read value)
termination_by template => (remaining sources origins, template.size)
decreasing_by
  · exact Prod.Lex.right _ (by simp only [size]; omega)
  · exact Prod.Lex.right _ (by simp only [size]; omega)
  · exact Prod.Lex.right _ (by simp only [size]; omega)
  · have sub : origins ⊆ insert name (origins ∪ names) :=
      fun other mem => Finset.mem_insert_of_mem (Finset.mem_union_left names mem)
    rw [not_or, Finset.mem_union, not_or] at _fresh
    by_cases empty : value = []
    · rw [Prod.lex_iff]
      have size : (read value).size < (ref template).size := by
        rw [empty]
        exact Nat.succ_pos _
      have least := remaining_le sources sub
      omega
    · exact Prod.Lex.left _ _
        (remaining_lt sub _fresh.2.1 (Finset.mem_insert_self _ _) _found empty)

variable {sources : Sources} {busy : Names} {origins names : Finset Text}

theorem evaluate_lit (t : Text) (plain : Plain t) :
    evaluate sources busy origins (lit t plain) = .ok (t, if t = [] then ∅ else origins) := by
  rw [evaluate]

theorem evaluate_cat_of_error {first : Template} {obstacle : Obstacle}
    (failed : evaluate sources busy origins first = .error obstacle) (second : Template) :
    evaluate sources busy origins (cat first second) = .error obstacle := by
  rw [evaluate, failed]

theorem evaluate_cat_of_ok {first : Template} {s : Text}
    (settled : evaluate sources busy origins first = .ok (s, names)) (second : Template) :
    evaluate sources busy origins (cat first second) =
      match evaluate sources busy origins second with
      | .error obstacle => .error obstacle
      | .ok (t, more) => .ok (s ++ t, names ∪ more) := by
  rw [evaluate, settled]

theorem evaluate_ref_of_error {template : Template} {obstacle : Obstacle}
    (failed : evaluate sources busy origins template = .error obstacle) :
    evaluate sources busy origins (ref template) = .error obstacle := by
  rw [evaluate, failed]

theorem evaluate_ref_of_ok {template : Template} {name : Text}
    (settled : evaluate sources busy origins template = .ok (name, names)) :
    evaluate sources busy origins (ref template) =
      if name ∈ busy ∨ name ∈ origins ∪ names then .error (.cyclic name)
      else
        match sources.lookup name with
        | .error refusal => .error (.refused refusal)
        | .ok value => evaluate sources busy (insert name (origins ∪ names)) (read value) := by
  rw [evaluate]
  split
  · next failed =>
    rw [settled] at failed
    cases failed
  · next same =>
    rw [settled] at same
    cases same
    split
    · rfl
    · split
      · next refusal refused => rw [refused]
      · next value found => rw [found]

end Template

open Template

/-- The placeholder whose name has come down to plain text. -/
def Placeholder.around (origins : Finset Text) (inner before after : Marked)
    (unclosed : closer ∉ before.text) (plain : Plain inner.text) : Placeholder where
  before := before
  middle := mark opening origins ++ (inner ++ mark closing origins)
  after := after
  name := inner.text
  unclosed := unclosed
  innermost := plain.innermost
  spelled := by simp only [text_append, text_mark]

theorem Placeholder.origins_around (origins : Finset Text) (inner before after : Marked)
    (unclosed : closer ∉ before.text) (plain : Plain inner.text) :
    (around origins inner before after unclosed plain).middle.origins =
      origins ∪ inner.origins := by
  have opened : opening ≠ [] := by decide
  have closed : closing ≠ [] := by decide
  simp only [around, origins_append, origins_mark, if_neg opened, if_neg closed]
  rw [Finset.union_comm inner.origins origins, ← Finset.union_assoc, Finset.union_self]

/-- The outcome of an evaluation as the outcome of an expansion. -/
def outcome (result : Except Obstacle (Text × Finset Text)) : Except Fault Text :=
  (result.map Prod.fst).mapError Obstacle.fault

theorem outcome_eq_ok_iff {result : Except Obstacle (Text × Finset Text)} {t : Text} :
    outcome result = .ok t ↔ ∃ names, result = .ok (t, names) := by
  cases result with
  | error obstacle =>
    constructor
    · intro same
      cases same
    · rintro ⟨names, same⟩
      cases same
  | ok settled =>
    constructor
    · intro same
      exact ⟨settled.2, congrArg _ (Prod.ext (Except.ok.inj same) rfl)⟩
    · rintro ⟨names, same⟩
      rw [Except.ok.inj same]
      rfl

theorem outcome_eq_cyclic_iff {result : Except Obstacle (Text × Finset Text)} {name : Text} :
    outcome result = .error (.cyclic name) ↔ result = .error (.cyclic name) := by
  cases result with
  | error obstacle =>
    cases obstacle <;> simp [outcome, Except.map, Except.mapError, Obstacle.fault]
  | ok settled => simp [outcome, Except.map, Except.mapError]

theorem outcome_ne_unmatched (result : Except Obstacle (Text × Finset Text)) (t : Text) :
    outcome result ≠ .error (.unmatched t) := by
  intro same
  cases result with
  | error obstacle => cases obstacle <;> cases same
  | ok settled => cases same

/-- Wherever a marked text stands, the moves take it to what an evaluation gives: to a plain text
with these names behind it, or to an end at this obstacle. -/
def Simulates (look : Look) (busy : Names) (m : Marked) :
    Except Obstacle (Text × Finset Text) → Prop
  | .ok (t, names) => Plain t ∧ ∃ value : Marked, value.text = t ∧ value.origins = names ∧
      ∀ before after : Marked, closer ∉ before.text → ∃ passed,
        Reaches look busy (before ++ (m ++ after)) passed (before ++ (value ++ after))
  | .error obstacle => ∀ before after : Marked, closer ∉ before.text → ∃ passed,
      Ends look busy (before ++ (m ++ after)) passed (.error obstacle.fault)

namespace Simulates

variable {look : Look} {busy : Names}

theorem lit {t : Text} (plain : Plain t) (origins : Finset Text) :
    Simulates look busy (mark t origins) (.ok (t, if t = [] then ∅ else origins)) :=
  ⟨plain, mark t origins, text_mark t origins, origins_mark t origins,
    fun _ _ _ => ⟨[], .refl _⟩⟩

theorem cat_error {m : Marked} {obstacle : Obstacle}
    (first : Simulates look busy m (.error obstacle)) (rest : Marked) :
    Simulates look busy (m ++ rest) (.error obstacle) := by
  intro before after unclosed
  rw [List.append_assoc]
  exact first before (rest ++ after) unclosed

/-- What stands after a text waits until the text is settled. -/
theorem cat {m rest : Marked} {t : Text} {names : Finset Text}
    {result : Except Obstacle (Text × Finset Text)}
    (first : Simulates look busy m (.ok (t, names))) :
    Simulates look busy rest result → Simulates look busy (m ++ rest)
      (match result with
        | .error obstacle => .error obstacle
        | .ok (s, more) => .ok (t ++ s, names ∪ more)) := by
  intro second
  obtain ⟨plain, value, rfl, rfl, leads⟩ := first
  have moved (before after : Marked) (unclosed : closer ∉ before.text) : ∃ passed,
      Reaches look busy (before ++ ((m ++ rest) ++ after)) passed
        ((before ++ value) ++ (rest ++ after)) := by
    rw [List.append_assoc, List.append_assoc]
    exact leads before (rest ++ after) unclosed
  have still {before : Marked} (unclosed : closer ∉ before.text) :
      closer ∉ (before ++ value).text := by
    rw [text_append, List.mem_append, not_or]
    exact ⟨unclosed, plain.unclosed⟩
  cases result with
  | error obstacle =>
    intro before after unclosed
    obtain ⟨passed, run⟩ := moved before after unclosed
    obtain ⟨more, ends⟩ := second (before ++ value) after (still unclosed)
    exact ⟨passed ++ more, run.ends ends⟩
  | ok settled =>
    obtain ⟨s, more⟩ := settled
    obtain ⟨plainSecond, last, rfl, rfl, leadsOn⟩ := second
    refine ⟨plain.append plainSecond, value ++ last, text_append value last,
      origins_append value last, fun before after unclosed => ?_⟩
    obtain ⟨passed, run⟩ := moved before after unclosed
    obtain ⟨more, runOn⟩ := leadsOn (before ++ value) after (still unclosed)
    have regrouped : before ++ ((value ++ last) ++ after) =
        (before ++ value) ++ (last ++ after) := by
      simp only [List.append_assoc]
    rw [regrouped]
    exact ⟨passed ++ more, run.trans runOn⟩

/-- The text of a placeholder settles its name first. -/
theorem ref_reaches {m : Marked} {name : Text} {names : Finset Text}
    (inner : Simulates look busy m (.ok (name, names))) (origins : Finset Text)
    (before after : Marked) (unclosed : closer ∉ before.text) :
    ∃ (place : Placeholder) (passed : List Text),
      Reaches look busy
        (before ++ ((mark opening origins ++ (m ++ mark closing origins)) ++ after)) passed
        place.whole ∧
      place.before = before ∧ place.after = after ∧ place.name = name ∧
      place.middle.origins = origins ∪ names := by
  obtain ⟨plain, value, rfl, rfl, leads⟩ := inner
  have opened : closer ∉ (before ++ mark opening origins).text := by
    rw [text_append, text_mark, List.mem_append, not_or]
    exact ⟨unclosed, by decide⟩
  obtain ⟨passed, run⟩ :=
    leads (before ++ mark opening origins) (mark closing origins ++ after) opened
  refine ⟨.around origins value before after unclosed plain, passed, ?_, rfl, rfl, rfl,
    Placeholder.origins_around origins value before after unclosed plain⟩
  simpa only [Placeholder.whole, Placeholder.around, List.append_assoc] using run

theorem ref_error {m : Marked} {obstacle : Obstacle}
    (inner : Simulates look busy m (.error obstacle)) (origins : Finset Text) :
    Simulates look busy (mark opening origins ++ (m ++ mark closing origins))
      (.error obstacle) := by
  intro before after unclosed
  have opened : closer ∉ (before ++ mark opening origins).text := by
    rw [text_append, text_mark, List.mem_append, not_or]
    exact ⟨unclosed, by decide⟩
  simpa only [List.append_assoc] using
    inner (before ++ mark opening origins) (mark closing origins ++ after) opened

variable {m : Marked} {name : Text} {names origins : Finset Text}

theorem ref_cyclic (inner : Simulates look busy m (.ok (name, names)))
    (cycle : name ∈ busy ∨ name ∈ origins ∪ names) :
    Simulates look busy (mark opening origins ++ (m ++ mark closing origins))
      (.error (.cyclic name)) := by
  intro before after unclosed
  obtain ⟨place, passed, run, -, -, rfl, known⟩ := inner.ref_reaches origins before after unclosed
  refine ⟨passed, place.whole, run, ?_⟩
  rw [move_whole, if_pos (known ▸ cycle)]
  rfl

theorem ref_refused {refusal : Refusal} (inner : Simulates look busy m (.ok (name, names)))
    (fresh : ¬(name ∈ busy ∨ name ∈ origins ∪ names)) (refused : look name = .error refusal) :
    Simulates look busy (mark opening origins ++ (m ++ mark closing origins))
      (.error (.refused refusal)) := by
  intro before after unclosed
  obtain ⟨place, passed, run, -, -, rfl, known⟩ := inner.ref_reaches origins before after unclosed
  refine ⟨passed, place.whole, run, ?_⟩
  rw [move_whole, if_neg (known ▸ fresh), refused]
  rfl

/-- The value of a name takes the place of the placeholder and goes its own way from there. -/
theorem ref_found {value : Text} {result : Except Obstacle (Text × Finset Text)}
    (inner : Simulates look busy m (.ok (name, names)))
    (fresh : ¬(name ∈ busy ∨ name ∈ origins ∪ names)) (found : look name = .ok value)
    (rest : Simulates look busy (mark value (insert name (origins ∪ names))) result) :
    Simulates look busy (mark opening origins ++ (m ++ mark closing origins)) result := by
  have moved (before after : Marked) (unclosed : closer ∉ before.text) : ∃ passed,
      Reaches look busy
        (before ++ ((mark opening origins ++ (m ++ mark closing origins)) ++ after)) passed
        (before ++ (mark value (insert name (origins ∪ names)) ++ after)) := by
    obtain ⟨place, passed, run, rfl, rfl, rfl, known⟩ :=
      inner.ref_reaches origins before after unclosed
    have step := move_whole look busy place
    rw [if_neg (known ▸ fresh), found] at step
    have replaced : place.replacedBy value =
        place.before ++ (mark value (insert place.name (origins ∪ names)) ++ place.after) := by
      rw [Placeholder.replacedBy, known]
    rw [← replaced]
    exact ⟨passed ++ [place.name], run.trans (.single step)⟩
  cases result with
  | error obstacle =>
    intro before after unclosed
    obtain ⟨passed, run⟩ := moved before after unclosed
    obtain ⟨more, ends⟩ := rest before after unclosed
    exact ⟨passed ++ more, run.ends ends⟩
  | ok settled =>
    obtain ⟨plain, last, text, marks, leads⟩ := rest
    refine ⟨plain, last, text, marks, fun before after unclosed => ?_⟩
    obtain ⟨passed, run⟩ := moved before after unclosed
    obtain ⟨more, runOn⟩ := leads before after unclosed
    exact ⟨passed ++ more, run.trans runOn⟩

/-- A text on its own settles as its evaluation says. -/
theorem settles {t : Text} (this : Simulates look busy m (.ok (t, names))) :
    ∃ (value : Marked) (passed : List Text), Reaches look busy m passed value ∧
      move look busy value = .ended (.ok t) ∧ value.text = t ∧ value.origins = names := by
  obtain ⟨plain, value, rfl, rfl, leads⟩ := this
  obtain ⟨passed, run⟩ := leads [] [] List.not_mem_nil
  rw [List.nil_append, List.append_nil, List.nil_append, List.append_nil] at run
  exact ⟨value, passed, run, move_settled look busy plain.unclosed, rfl, rfl⟩

theorem fails {obstacle : Obstacle} (this : Simulates look busy m (.error obstacle)) :
    ∃ passed, Ends look busy m passed (.error obstacle.fault) := by
  obtain ⟨passed, ends⟩ := this [] [] List.not_mem_nil
  rw [List.nil_append, List.append_nil] at ends
  exact ⟨passed, ends⟩

theorem ends {result : Except Obstacle (Text × Finset Text)}
    (this : Simulates look busy m result) :
    ∃ passed, Ends look busy m passed (outcome result) := by
  cases result with
  | error obstacle => exact this.fails
  | ok settled =>
    obtain ⟨value, passed, run, ended, -⟩ := this.settles
    exact ⟨passed, value, run, ended⟩

/-- A text can be taken to one outcome only. -/
theorem unique {first second : Except Obstacle (Text × Finset Text)}
    (this : Simulates look busy m first) (other : Simulates look busy m second) :
    first = second := by
  obtain ⟨passed, endsFirst⟩ := this.ends
  obtain ⟨more, endsSecond⟩ := other.ends
  have same := (endsFirst.unique endsSecond).2
  cases first with
  | error obstacle =>
    cases second with
    | error hindrance => rw [Obstacle.fault_injective (Except.error.inj same)]
    | ok settled => cases same
  | ok settled =>
    cases second with
    | error hindrance => cases same
    | ok settledToo =>
      obtain ⟨value, passed, run, ended, text, marks⟩ := this.settles
      obtain ⟨last, more, runToo, endedToo, textToo, marksToo⟩ := other.settles
      obtain ⟨-, rfl⟩ := run.last_unique ended runToo endedToo
      rw [Prod.ext (text.symm.trans textToo) (marks.symm.trans marksToo)]

end Simulates

/-- Every value that the sources give is the text of a template. -/
def Templated (sources : Sources) : Prop :=
  ∀ name value, sources.lookup name = .ok value → ∃ template : Template, template.render = value

theorem Templated.render_read {sources : Sources} (templated : Templated sources)
    {name value : Text} (found : sources.lookup name = .ok value) :
    (read value).render = value := by
  obtain ⟨template, rfl⟩ := templated name value found
  exact Template.render_read template

/-- Whether the values of a property map are templates shows by reading them. -/
theorem templated_of_read {properties : Properties}
    (each : ∀ entry ∈ properties.entries, (read entry.2).render = entry.2) :
    Templated ⟨some (.ofTable properties), none⟩ := by
  intro name value found
  rcases Sources.mem_or_nil_of_lookup found with mem | rfl
  · exact ⟨read value, each _ mem⟩
  · exact ⟨.blank, rfl⟩

/-- Moves on the text of a template do what its evaluation does. -/
theorem simulates_evaluate {sources : Sources} (templated : Templated sources) (busy : Names)
    (origins : Finset Text) (template : Template) :
    Simulates sources.lookup busy (mark template.render origins)
      (evaluate sources busy origins template) := by
  induction origins, template using Template.evaluate.induct sources busy with
  | case1 origins t plain =>
    rw [evaluate_lit]
    exact .lit plain origins
  | case2 origins first second obstacle failed ih =>
    rw [evaluate_cat_of_error failed, render, mark_append]
    exact (failed ▸ ih).cat_error _
  | case3 origins first second s names settled obstacle failed ihFirst ihSecond =>
    rw [evaluate_cat_of_ok settled, render, mark_append]
    exact (settled ▸ ihFirst).cat ihSecond
  | case4 origins first second s names settled t more settledToo ihFirst ihSecond =>
    rw [evaluate_cat_of_ok settled, render, mark_append]
    exact (settled ▸ ihFirst).cat ihSecond
  | case5 origins template obstacle failed ih =>
    rw [evaluate_ref_of_error failed, render, mark_append, mark_append]
    exact (failed ▸ ih).ref_error origins
  | case6 origins template name names settled cycle ih =>
    rw [evaluate_ref_of_ok settled, if_pos cycle, render, mark_append, mark_append]
    exact (settled ▸ ih).ref_cyclic cycle
  | case7 origins template name names settled fresh refusal refused ih =>
    rw [evaluate_ref_of_ok settled, if_neg fresh, refused, render, mark_append, mark_append]
    exact (settled ▸ ih).ref_refused fresh refused
  | case8 origins template name names settled fresh value found ih ihValue =>
    rw [evaluate_ref_of_ok settled, if_neg fresh, found, render, mark_append, mark_append]
    rw [templated.render_read found] at ihValue
    exact (settled ▸ ih).ref_found fresh found ihValue

/-- A template evaluates as its text does, however the text is taken for a template. -/
theorem evaluate_congr {sources : Sources} (templated : Templated sources) {busy : Names}
    {origins : Finset Text} {first second : Template} (same : first.render = second.render) :
    evaluate sources busy origins first = evaluate sources busy origins second := by
  have this := simulates_evaluate templated busy origins first
  rw [same] at this
  exact this.unique (simulates_evaluate templated busy origins second)

/-- Where all values are templates, expanding the text of a template is evaluating it. -/
theorem result_expand_render {sources : Sources} (templated : Templated sources)
    (template : Template) (key : Option Text) (busy : Names) :
    (expand sources template.render key busy).result =
      outcome (evaluate sources (inProgress key busy) ∅ template) := by
  obtain ⟨passed, ends⟩ := (simulates_evaluate templated (inProgress key busy) ∅ template).ends
  exact result_of_ends ends

/-- Expansion and evaluation agree on every template: they give the same texts, find the same names
to be cyclic, first of all in the same place, and leave no closing brace unmatched. -/
theorem expand_render_iff (sources : Sources) (templated : Templated sources)
    (template : Template) (key : Option Text) (busy : Names) :
    (∀ t, (expand sources template.render key busy).result = .ok t ↔
      ∃ names, evaluate sources (inProgress key busy) ∅ template = .ok (t, names)) ∧
    (∀ name, (expand sources template.render key busy).result = .error (.cyclic name) ↔
      evaluate sources (inProgress key busy) ∅ template = .error (.cyclic name)) ∧
    (∀ t, (expand sources template.render key busy).result ≠ .error (.unmatched t)) := by
  rw [result_expand_render templated]
  refine ⟨fun t => ?_, fun name => ?_, fun t => ?_⟩
  · exact outcome_eq_ok_iff
  · exact outcome_eq_cyclic_iff
  · exact outcome_ne_unmatched _ t

/-- Pages by environment: the name `url.prod` can be computed, and its value holds a reference. -/
def pages : Properties :=
  Table.ofList [("env", "prod"), ("url.prod", "http://$\x7bhost\x7d"), ("host", "h")]

/-- The text `${url.${env}}`. -/
def pageOfEnvironment : Template :=
  .ref (.cat (.lit "url." (by decide)) (.ref (.lit "env" (by decide))))

theorem expand_pageOfEnvironment :
    (expand ⟨some (.ofTable pages), none⟩ pageOfEnvironment.render none []).result =
      .ok "http://h" := result_expand_of_turns 4 (by decide +kernel)

theorem evaluate_pageOfEnvironment : Templated ⟨some (.ofTable pages), none⟩ ∧
    ∃ names, evaluate ⟨some (.ofTable pages), none⟩ [] ∅ pageOfEnvironment =
      .ok ("http://h", names) := by
  have templated : Templated ⟨some (.ofTable pages), none⟩ := templated_of_read (by decide +kernel)
  have expanded := expand_pageOfEnvironment
  exact ⟨templated, ((expand_render_iff _ templated pageOfEnvironment none []).1 _).1 expanded⟩

end PropertyToolkit.Substitution
