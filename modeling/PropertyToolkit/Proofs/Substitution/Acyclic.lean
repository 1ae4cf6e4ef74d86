import Mathlib.Logic.Relation
import PropertyToolkit.Proofs.Substitution.Evaluation

/-!
Properties that never refer back to themselves. Their values mention names that are spelled out, and
a rank of the names falls along every mention. Expansion under such properties is still cyclic where
a name is spelled by a value that has a part in it and then leads back to that value's name; this is
the only way, and it is exactly then that an expansion fails as cyclic.
-/

set_option autoImplicit false

namespace PropertyToolkit.Substitution

namespace Template

/-- A template without placeholders. -/
def Bare : Template → Prop
  | lit _ _ => True
  | ref _ => False
  | cat first second => first.Bare ∧ second.Bare

/-- A template whose placeholders have names that are spelled out. -/
def Flat : Template → Prop
  | lit _ _ => True
  | ref name => name.Bare
  | cat first second => first.Flat ∧ second.Flat

def decideBare : (template : Template) → Decidable template.Bare
  | lit _ _ => isTrue trivial
  | ref _ => isFalse id
  | cat first second => @instDecidableAnd _ _ first.decideBare second.decideBare

instance (template : Template) : Decidable template.Bare := template.decideBare

def decideFlat : (template : Template) → Decidable template.Flat
  | lit _ _ => isTrue trivial
  | ref name => name.decideBare
  | cat first second => @instDecidableAnd _ _ first.decideFlat second.decideFlat

instance (template : Template) : Decidable template.Flat := template.decideFlat

/-- The names of all placeholders as templates, however deep they are nested. -/
def spellings : Template → List Template
  | lit _ _ => []
  | ref name => name :: name.spellings
  | cat first second => first.spellings ++ second.spellings

end Template

open Template

variable {sources : Sources}

/-- The value of a name mentions another one. -/
def Refers (sources : Sources) (name other : Text) : Prop :=
  ∃ template : Template, sources.lookup name = .ok template.render ∧ template.Flat ∧
    other ∈ template.mentions

/-- A name refers to another one through any number of values. -/
abbrev Leads (sources : Sources) : Text → Text → Prop := Relation.ReflTransGen (Refers sources)

/-- Properties with flat values in which a rank falls from every name to those that it refers to. -/
structure Ranked (sources : Sources) (rank : Text → Nat) : Prop where
  flat : ∀ name value, sources.lookup name = .ok value →
    ∃ template : Template, template.Flat ∧ template.render = value
  lower : ∀ name other, Refers sources name other → rank other < rank name

/-- A name had a part in spelling the name of a placeholder, which then leads back to it. -/
def Entangled (sources : Sources) (template : Template) (name : Text) : Prop :=
  ∃ spelling ∈ template.spellings, ∃ computed origins,
    evaluate sources [] ∅ spelling = .ok (computed, origins) ∧ name ∈ origins ∧
      Leads sources computed name

theorem Ranked.templated {rank : Text → Nat} (ranked : Ranked sources rank) :
    Templated sources := by
  intro name value found
  obtain ⟨template, -, same⟩ := ranked.flat name value found
  exact ⟨template, same⟩

theorem Ranked.rank_le {rank : Text → Nat} (ranked : Ranked sources rank) {name other : Text}
    (leads : Leads sources name other) : rank other ≤ rank name := by
  induction leads with
  | refl => exact Nat.le_refl _
  | tail _ step ih => exact Nat.le_of_lt (Nat.lt_of_lt_of_le (ranked.lower _ _ step) ih)

/-- Whether a rank falls in a property map shows by reading its values. -/
theorem ranked_of_read {properties : Properties} {rank : Text → Nat}
    (flat : ∀ entry ∈ properties.entries,
      (read entry.2).Flat ∧ (read entry.2).render = entry.2)
    (lower : ∀ entry ∈ properties.entries, ∀ other ∈ (read entry.2).mentions,
      rank other < rank entry.1) :
    Ranked ⟨some (.ofTable properties), none⟩ rank where
  flat := by
    intro name value found
    rcases Sources.mem_or_nil_of_lookup found with mem | rfl
    · exact ⟨read value, flat _ mem⟩
    · exact ⟨.blank, trivial, rfl⟩
  lower := by
    rintro name other ⟨template, found, -, mentioned⟩
    rw [← mentions_read] at mentioned
    rcases Sources.mem_or_nil_of_lookup found with mem | empty
    · exact lower _ mem other mentioned
    · rw [empty] at mentioned
      cases mentioned

/-- The value of a name, taken for the template that it is the text of. -/
theorem Ranked.exists_body {rank : Text → Nat} (ranked : Ranked sources rank) {name value : Text}
    (found : sources.lookup name = .ok value) :
    ∃ body : Template, body.Flat ∧ (∀ other ∈ body.mentions, Refers sources name other) ∧
      ∀ busy origins, evaluate sources busy origins (read value) =
        evaluate sources busy origins body := by
  obtain ⟨body, flat, rfl⟩ := ranked.flat name value found
  exact ⟨body, flat, fun _ mem => ⟨body, found, flat, mem⟩,
    fun _ _ => evaluate_congr ranked.templated (Template.render_read body)⟩

theorem Refers.exists_body (templated : Templated sources) {name other value : Text}
    (refers : Refers sources name other) (found : sources.lookup name = .ok value) :
    ∃ body : Template, body.Flat ∧ other ∈ body.mentions ∧
      ∀ busy origins, evaluate sources busy origins (read value) =
        evaluate sources busy origins body := by
  obtain ⟨body, foundBody, flat, mem⟩ := refers
  rw [found] at foundBody
  rw [Except.ok.inj foundBody]
  exact ⟨body, flat, mem, fun _ _ => evaluate_congr templated (Template.render_read body)⟩

/-- A name never leads back to one that refers to it. -/
theorem Ranked.ne_of_refers {rank : Text → Nat} (ranked : Ranked sources rank)
    {name mid other : Text} (refers : Refers sources name mid) (leads : Leads sources mid other) :
    other ≠ name := by
  rintro rfl
  have down := ranked.lower _ _ refers
  have back := ranked.rank_le leads
  omega

theorem evaluate_bare (sources : Sources) (busy : Names) (origins : Finset Text)
    {template : Template} (bare : template.Bare) :
    ∃ names, evaluate sources busy origins template = .ok (template.render, names) ∧
      names ⊆ origins := by
  induction template with
  | lit t plain =>
    refine ⟨_, evaluate_lit t plain, ?_⟩
    split
    · exact Finset.empty_subset origins
    · exact Finset.Subset.refl origins
  | ref name _ => exact bare.elim
  | cat first second ihFirst ihSecond =>
    obtain ⟨names, settled, sub⟩ := ihFirst bare.1
    obtain ⟨more, settledToo, subToo⟩ := ihSecond bare.2
    refine ⟨names ∪ more, ?_, Finset.union_subset sub subToo⟩
    rw [evaluate_cat_of_ok settled, settledToo, render]

/-- A placeholder with a name that is spelled out. -/
theorem evaluate_ref_bare {busy : Names} {origins : Finset Text} {template : Template}
    (bare : template.Bare) :
    evaluate sources busy origins (ref template) =
      if template.render ∈ busy ∨ template.render ∈ origins then .error (.cyclic template.render)
      else
        match sources.lookup template.render with
        | .error refusal => .error (.refused refusal)
        | .ok value => evaluate sources busy (insert template.render origins) (read value) := by
  obtain ⟨names, settled, sub⟩ := evaluate_bare sources busy origins bare
  have unfolded := evaluate_ref_of_ok settled
  rw [Finset.union_eq_left.2 sub] at unfolded
  exact unfolded

/-- The two ways in which the evaluation of two templates in a row fails. -/
theorem evaluate_cat_eq_error {busy : Names} {origins : Finset Text} {first second : Template}
    {obstacle : Obstacle}
    (failed : evaluate sources busy origins (cat first second) = .error obstacle) :
    evaluate sources busy origins first = .error obstacle ∨
      evaluate sources busy origins second = .error obstacle := by
  cases settled : evaluate sources busy origins first with
  | error hindrance =>
    rw [evaluate_cat_of_error settled] at failed
    exact Or.inl failed
  | ok value =>
    rw [evaluate_cat_of_ok settled] at failed
    split at failed
    · next hindrance failedToo =>
      rw [failedToo, Except.error.inj failed]
      exact Or.inr rfl
    · cases failed

theorem exists_of_evaluate_cat_eq_ok {busy : Names} {origins : Finset Text}
    {first second : Template} {value : Text × Finset Text}
    (settled : evaluate sources busy origins (cat first second) = .ok value) :
    (∃ value, evaluate sources busy origins first = .ok value) ∧
      ∃ value, evaluate sources busy origins second = .ok value := by
  cases settledFirst : evaluate sources busy origins first with
  | error hindrance =>
    rw [evaluate_cat_of_error settledFirst] at settled
    cases settled
  | ok valueFirst =>
    rw [evaluate_cat_of_ok settledFirst] at settled
    split at settled
    · cases settled
    · next t more settledSecond => exact ⟨⟨_, rfl⟩, ⟨_, settledSecond⟩⟩

/-- A cycle under ranked properties closes on a name that was there before: one behind the template
from the start, to which a name that the template mentions leads. -/
theorem exists_mention_of_cyclic {rank : Text → Nat} (ranked : Ranked sources rank) {height : Nat}
    {template : Template} (flat : template.Flat)
    (below : ∀ name ∈ template.mentions, rank name < height)
    {origins : Finset Text} {name : Text}
    (cyclic : evaluate sources [] origins template = .error (.cyclic name)) :
    ∃ mention ∈ template.mentions, Leads sources mention name ∧ name ∈ origins := by
  -- The mentions of a value rank below the name, so the induction descends with every lookup.
  induction height using Nat.strongRecOn generalizing template origins with
  | ind height descend =>
    induction template with
    | lit t plain =>
      rw [evaluate_lit] at cyclic
      cases cyclic
    | cat first second ihFirst ihSecond =>
      have belowFirst := fun name mem => below name (List.mem_append_left _ mem)
      have belowSecond := fun name mem => below name (List.mem_append_right _ mem)
      rcases evaluate_cat_eq_error cyclic with early | late
      · obtain ⟨mention, mem, found⟩ := ihFirst flat.1 belowFirst early
        exact ⟨mention, List.mem_append_left _ mem, found⟩
      · obtain ⟨mention, mem, found⟩ := ihSecond flat.2 belowSecond late
        exact ⟨mention, List.mem_append_right _ mem, found⟩
    | ref spelling _ =>
      refine ⟨spelling.render, List.mem_singleton_self _, ?_⟩
      rw [evaluate_ref_bare flat] at cyclic
      split at cyclic
      · next cycle =>
        cases cyclic
        exact ⟨.refl, cycle.resolve_left List.not_mem_nil⟩
      · next fresh =>
        split at cyclic
        · cases cyclic
        · next value found =>
          obtain ⟨body, flatBody, refers, same⟩ := ranked.exists_body found
          have top := below spelling.render (List.mem_singleton_self _)
          have belowBody : ∀ mention ∈ body.mentions, rank mention < rank spelling.render :=
            fun mention mem => ranked.lower _ _ (refers mention mem)
          rw [same] at cyclic
          obtain ⟨mention, mem, leads, known⟩ := descend _ top flatBody belowBody cyclic
          have apart := ranked.ne_of_refers (refers mention mem) leads
          exact ⟨leads.head (refers mention mem), Finset.mem_of_mem_insert_of_ne known apart⟩

/-- A template that evaluates has asked for all that it mentions. -/
theorem found_of_mention {template : Template} (flat : template.Flat) {origins : Finset Text}
    {settled : Text × Finset Text} (evaluates : evaluate sources [] origins template = .ok settled)
    {name : Text} (mem : name ∈ template.mentions) :
    name ∉ origins ∧ ∃ value next, sources.lookup name = .ok value ∧
      evaluate sources [] (insert name origins) (read value) = .ok next := by
  induction template generalizing settled with
  | lit t plain => cases mem
  | cat first second ihFirst ihSecond =>
    obtain ⟨⟨_, settledFirst⟩, ⟨_, settledSecond⟩⟩ := exists_of_evaluate_cat_eq_ok evaluates
    rcases List.mem_append.1 mem with early | late
    · exact ihFirst flat.1 settledFirst early
    · exact ihSecond flat.2 settledSecond late
  | ref spelling _ =>
    rw [List.mem_singleton.1 mem]
    rw [evaluate_ref_bare flat] at evaluates
    split at evaluates
    · cases evaluates
    · next fresh =>
      split at evaluates
      · cases evaluates
      · next value found => exact ⟨(not_or.1 fresh).2, value, _, found, evaluates⟩

/-- No name behind a template that evaluates is led to from it. -/
theorem not_mem_of_leads (templated : Templated sources) {name other : Text}
    (leads : Leads sources name other) {template : Template} (flat : template.Flat)
    (mem : name ∈ template.mentions) {origins : Finset Text} {settled : Text × Finset Text}
    (evaluates : evaluate sources [] origins template = .ok settled) : other ∉ origins := by
  induction leads using Relation.ReflTransGen.head_induction_on
    generalizing template origins settled with
  | refl => exact (found_of_mention flat evaluates mem).1
  | head refers _ ih =>
    obtain ⟨-, value, next, found, evaluatesNext⟩ := found_of_mention flat evaluates mem
    obtain ⟨body, flatBody, memBody, same⟩ := refers.exists_body templated found
    rw [same] at evaluatesNext
    exact fun known => ih flatBody memBody evaluatesNext (Finset.mem_insert_of_mem known)

theorem Entangled.mono {first second : Template} {name : Text}
    (sub : ∀ spelling ∈ first.spellings, spelling ∈ second.spellings)
    (entangled : Entangled sources first name) : Entangled sources second name := by
  obtain ⟨spelling, mem, rest⟩ := entangled
  exact ⟨spelling, sub spelling mem, rest⟩

/-- The name of a placeholder that evaluates leads to none of the names that had a part in it. -/
theorem not_leads_of_ref_ok (templated : Templated sources) {spelling : Template} {computed : Text}
    {origins : Finset Text} {settled : Text × Finset Text}
    (evaluates : evaluate sources [] ∅ (ref spelling) = .ok settled)
    (spelled : evaluate sources [] ∅ spelling = .ok (computed, origins)) {name : Text}
    (known : name ∈ origins) : ¬Leads sources computed name := by
  intro leads
  rw [evaluate_ref_of_ok spelled, Finset.empty_union] at evaluates
  split at evaluates
  · cases evaluates
  · next fresh =>
    split at evaluates
    · cases evaluates
    · next value found =>
      rcases leads.cases_head with rfl | ⟨mid, refers, onward⟩
      · exact fresh (Or.inr known)
      · obtain ⟨body, flat, mem, same⟩ := refers.exists_body templated found
        rw [same] at evaluates
        exact not_mem_of_leads templated onward flat mem evaluates
          (Finset.mem_insert_of_mem known)

/-- A template that evaluates is not entangled. -/
theorem not_entangled_of_ok (templated : Templated sources) {template : Template}
    {settled : Text × Finset Text} (evaluates : evaluate sources [] ∅ template = .ok settled)
    (name : Text) : ¬Entangled sources template name := by
  induction template generalizing settled with
  | lit t plain =>
    rintro ⟨spelling, mem, -⟩
    cases mem
  | cat first second ihFirst ihSecond =>
    obtain ⟨⟨_, settledFirst⟩, ⟨_, settledSecond⟩⟩ := exists_of_evaluate_cat_eq_ok evaluates
    rintro ⟨spelling, mem, rest⟩
    rcases List.mem_append.1 mem with early | late
    · exact ihFirst settledFirst ⟨spelling, early, rest⟩
    · exact ihSecond settledSecond ⟨spelling, late, rest⟩
  | ref spelling ih =>
    cases settledName : evaluate sources [] ∅ spelling with
    | error obstacle =>
      rw [evaluate_ref_of_error settledName] at evaluates
      cases evaluates
    | ok value =>
      rintro ⟨other, mem, computed, origins, spelled, known, leads⟩
      rcases List.mem_cons.1 mem with rfl | deeper
      · exact not_leads_of_ref_ok templated evaluates spelled known leads
      · exact ih settledName ⟨other, deeper, computed, origins, spelled, known, leads⟩

/-- A template that is found cyclic is entangled with the name it is found cyclic at. -/
theorem entangled_of_cyclic {rank : Text → Nat} (ranked : Ranked sources rank)
    {template : Template} {name : Text}
    (cyclic : evaluate sources [] ∅ template = .error (.cyclic name)) :
    Entangled sources template name := by
  induction template with
  | lit t plain =>
    rw [evaluate_lit] at cyclic
    cases cyclic
  | cat first second ihFirst ihSecond =>
    rcases evaluate_cat_eq_error cyclic with early | late
    · exact (ihFirst early).mono fun _ mem => List.mem_append_left _ mem
    · exact (ihSecond late).mono fun _ mem => List.mem_append_right _ mem
  | ref spelling ih =>
    cases settledName : evaluate sources [] ∅ spelling with
    | error obstacle =>
      rw [evaluate_ref_of_error settledName, ← settledName] at cyclic
      exact (ih cyclic).mono fun _ mem => List.mem_cons_of_mem _ mem
    | ok value =>
      obtain ⟨computed, origins⟩ := value
      refine ⟨spelling, List.mem_cons_self, computed, origins, settledName, ?_⟩
      rw [evaluate_ref_of_ok settledName, Finset.empty_union] at cyclic
      split at cyclic
      · next cycle =>
        cases cyclic
        exact ⟨cycle.resolve_left List.not_mem_nil, .refl⟩
      · split at cyclic
        · cases cyclic
        · next value found =>
          obtain ⟨body, flatBody, refers, same⟩ := ranked.exists_body found
          rw [same] at cyclic
          obtain ⟨mention, mem, leads, known⟩ := exists_mention_of_cyclic ranked flatBody
            (fun mention mem => ranked.lower _ _ (refers mention mem)) cyclic
          have apart := ranked.ne_of_refers (refers mention mem) leads
          exact ⟨Finset.mem_of_mem_insert_of_ne known apart, leads.head (refers mention mem)⟩

theorem exists_of_evaluate_refused {busy : Names} {origins : Finset Text} {template : Template}
    {refusal : Refusal}
    (refused : evaluate sources busy origins template = .error (.refused refusal)) :
    ∃ name, sources.lookup name = .error refusal := by
  induction origins, template using Template.evaluate.induct sources busy with
  | case1 origins t plain =>
    rw [evaluate_lit] at refused
    cases refused
  | case2 origins first second obstacle failed ih =>
    rw [evaluate_cat_of_error failed, ← failed] at refused
    exact ih refused
  | case3 origins first second s names settled obstacle failed _ ihSecond =>
    rw [evaluate_cat_of_ok settled, failed] at refused
    exact ihSecond (failed.trans refused)
  | case4 origins first second s names settled t more settledToo =>
    rw [evaluate_cat_of_ok settled, settledToo] at refused
    cases refused
  | case5 origins template obstacle failed ih =>
    rw [evaluate_ref_of_error failed, ← failed] at refused
    exact ih refused
  | case6 origins template name names settled cycle =>
    rw [evaluate_ref_of_ok settled, if_pos cycle] at refused
    cases refused
  | case7 origins template name names settled fresh other found =>
    rw [evaluate_ref_of_ok settled, if_neg fresh, found] at refused
    cases refused
    exact ⟨name, found⟩
  | case8 origins template name names settled fresh value found _ ihValue =>
    rw [evaluate_ref_of_ok settled, if_neg fresh, found] at refused
    exact ihValue refused

theorem spellings_of_bare {template : Template} (bare : template.Bare) :
    template.spellings = [] := by
  induction template with
  | lit t plain => rfl
  | ref name _ => exact bare.elim
  | cat first second ihFirst ihSecond =>
    rw [spellings, ihFirst bare.1, ihSecond bare.2, List.append_nil]

theorem bare_of_mem_spellings {template spelling : Template} (flat : template.Flat)
    (mem : spelling ∈ template.spellings) : spelling.Bare := by
  induction template with
  | lit t plain => cases mem
  | ref name _ =>
    rw [spellings, spellings_of_bare flat] at mem
    exact List.mem_singleton.1 mem ▸ flat
  | cat first second ihFirst ihSecond =>
    exact (List.mem_append.1 mem).elim (ihFirst flat.1) (ihSecond flat.2)

/-- Where no placeholder is nested in another one, nothing had a part in any name. -/
theorem not_entangled_of_flat {template : Template} (flat : template.Flat) (name : Text) :
    ¬Entangled sources template name := by
  rintro ⟨spelling, mem, computed, origins, settled, known, -⟩
  obtain ⟨names, spelled, sub⟩ := evaluate_bare sources [] ∅ (bare_of_mem_spellings flat mem)
  rw [settled] at spelled
  cases spelled
  exact Finset.notMem_empty name (sub known)

/-- Under ranked properties a text expands exactly when nothing in it is entangled. Otherwise it is
cyclic at a name that one of its placeholders is entangled with, unless a source refuses an answer
before. A text without nested placeholders is not entangled. -/
theorem expand_ranked (sources : Sources) (rank : Text → Nat) (ranked : Ranked sources rank)
    (template : Template) :
    (((∃ t, (expand sources template.render none []).result = .ok t) ∧
          ∀ name, ¬Entangled sources template name) ∨
        (∃ name, (expand sources template.render none []).result = .error (.cyclic name) ∧
          Entangled sources template name) ∨
        ∃ name refusal, sources.lookup name = .error refusal ∧
          (expand sources template.render none []).result = .error (.refused refusal)) ∧
      (template.Flat → ∀ name, ¬Entangled sources template name) := by
  refine ⟨?_, not_entangled_of_flat⟩
  rw [result_expand_render ranked.templated]
  have alone : inProgress none [] = [] := rfl
  rw [alone]
  cases value : evaluate sources [] ∅ template with
  | ok settled =>
    exact Or.inl ⟨⟨settled.1, rfl⟩, not_entangled_of_ok ranked.templated value⟩
  | error obstacle =>
    cases obstacle with
    | cyclic name => exact Or.inr (Or.inl ⟨name, rfl, entangled_of_cyclic ranked value⟩)
    | refused refusal =>
      obtain ⟨name, found⟩ := exists_of_evaluate_refused value
      exact Or.inr (Or.inr ⟨name, refusal, found, rfl⟩)

/-- A reference in a value, a computed name, and nothing entangled. -/
theorem not_entangled_pageOfEnvironment :
    Ranked ⟨some (.ofTable pages), none⟩ List.length ∧
      ∀ name, ¬Entangled ⟨some (.ofTable pages), none⟩ pageOfEnvironment name := by
  have ranked : Ranked ⟨some (.ofTable pages), none⟩ List.length :=
    ranked_of_read (by decide +kernel) (by decide +kernel)
  refine ⟨ranked, ?_⟩
  rcases (expand_ranked _ List.length ranked pageOfEnvironment).1 with
    ⟨-, free⟩ | ⟨name, cyclic, -⟩ | ⟨name, refusal, -, refused⟩
  · exact free
  · rw [expand_pageOfEnvironment] at cyclic
    cases cyclic
  · rw [expand_pageOfEnvironment] at refused
    cases refused

/-- A property whose value is its own name, and no reference. -/
def echo : Properties := Table.ofList [("b", "b")]

/-- The text `${${b}}` is cyclic although no property refers to any other: the value of `b` had a
part in spelling `b`. -/
theorem expand_echo :
    Ranked ⟨some (.ofTable echo), none⟩ List.length ∧
      (expand ⟨some (.ofTable echo), none⟩
        (ref (ref (lit "b" (by decide)))).render none []).result = .error (.cyclic "b") :=
  ⟨ranked_of_read (by decide +kernel) (by decide +kernel),
    result_expand_of_turns 2 (by decide +kernel)⟩

end PropertyToolkit.Substitution
