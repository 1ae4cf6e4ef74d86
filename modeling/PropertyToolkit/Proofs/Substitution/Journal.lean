import PropertyToolkit.Proofs.Substitution.Turns

/-!
The names that an expansion looks up, in order, read off its journal. A name that found a value is
noted with it; a name whose source refused an answer shows in the last question.

Over fixed sources the journal holds nothing but what belongs to these names. So the moves of a
marked text give all of the expansion: what it ends with, and by the names that they look up also
its journal.
-/

set_option autoImplicit false

namespace PropertyToolkit.Substitution

/-- The names that were looked up. -/
def lookups : Journal → List Text
  | [] => []
  | .asked _ name _ :: rest => if rest = [] then [name] else lookups rest
  | .resolved name _ :: rest => name :: lookups rest

/-- No question is left open at the end. -/
def Answered (journal : Journal) : Prop :=
  ∀ side name held, journal.getLast? ≠ some (.asked side name held)

theorem answered_nil : Answered [] := fun _ _ _ same => by cases same

theorem answered_concat (journal : Journal) (name value : Text) :
    Answered (journal ++ [.resolved name value]) := by
  intro side other held same
  rw [List.getLast?_concat] at same
  cases same

theorem Answered.tail {event : Event} {rest : Journal} (answered : Answered (event :: rest)) :
    Answered rest := by
  intro side name held last
  apply answered side name held
  rw [List.getLast?_cons, last]
  rfl

theorem lookups_append {journal : Journal} (answered : Answered journal) (later : Journal) :
    lookups (journal ++ later) = lookups journal ++ lookups later := by
  induction journal with
  | nil => rfl
  | cons event rest ih =>
    cases event with
    | asked side name held =>
      have filled : rest ≠ [] := by
        rintro rfl
        exact answered side name held rfl
      have still : rest ++ later ≠ [] := fun empty => filled (List.append_eq_nil_iff.1 empty).1
      rw [List.cons_append, lookups, lookups, if_neg filled, if_neg still, ih answered.tail]
    | resolved name value => rw [List.cons_append, lookups, lookups, ih answered.tail,
        List.cons_append]

section

variable {name : Text} {held : Names} {questions : Journal}

theorem lookups_of_questions (asked : ∀ event ∈ questions, ∃ side, event = .asked side name held)
    (filled : questions ≠ []) : lookups questions = [name] := by
  induction questions with
  | nil => exact absurd rfl filled
  | cons event rest ih =>
    obtain ⟨⟨side, rfl⟩, later⟩ := List.forall_mem_cons.1 asked
    rw [lookups]
    split
    · rfl
    · next more => exact ih later more

theorem lookups_of_resolved (asked : ∀ event ∈ questions, ∃ side, event = .asked side name held)
    (value : Text) : lookups (questions ++ [.resolved name value]) = [name] := by
  induction questions with
  | nil => rfl
  | cons event rest ih =>
    obtain ⟨⟨side, rfl⟩, later⟩ := List.forall_mem_cons.1 asked
    have filled : rest ++ [.resolved name value] ≠ [] := List.concat_ne_nil _ _
    rw [List.cons_append, lookups, if_neg filled, ih later]

end

/-- The journal as it stands after some turns. -/
def Turn.journal : Turn → Journal
  | .ended expansion => expansion.journal
  | .continued progress => progress.journal

theorem journal_expandWithin (responder : Responder) (n : Nat) (t : Text) (key : Option Text)
    (busy : Names) :
    (expandWithin responder n t key busy).journal =
      ((Progress.start t key busy).turns responder n).journal := by
  unfold expandWithin
  cases (Progress.start t key busy).turns responder n with
  | ended expansion => exact expansion.journal_close key busy
  | continued progress => rfl

namespace Progress

variable {responder : Responder} {progress : Progress} {name : Text}

theorem lookups_refused {refusal : Refusal} (answered : Answered progress.journal)
    (failed : progress.reply responder name = .error refusal) :
    lookups (progress.journal ++ progress.questions responder name) =
      lookups progress.journal ++ [name] := by
  rw [lookups_append answered]
  congr 1
  exact lookups_of_questions (fun _ => Responder.exists_of_mem_questions)
    (Responder.questions_ne_nil failed)

theorem lookups_resolved (answered : Answered progress.journal) (value : Text) :
    lookups (progress.journal ++ (progress.questions responder name ++ [.resolved name value])) =
      lookups progress.journal ++ [name] := by
  rw [lookups_append answered]
  congr 1
  exact lookups_of_resolved (fun _ => Responder.exists_of_mem_questions) value

/-- A turn that looks up a name adds this name to those that were looked up. -/
theorem lookups_turn (responder : Responder) (answered : Answered progress.journal)
    {next : Text → List Span} (aim : progress.aim = .lookUp name next) :
    lookups (progress.turn responder).journal = lookups progress.journal ++ [name] := by
  cases found : progress.reply responder name with
  | error refusal =>
    rw [turn_of_refused aim found]
    exact lookups_refused answered found
  | ok value =>
    rw [turn_of_resolved aim found]
    exact lookups_resolved answered value

theorem answered_of_continued {next : Progress}
    (continued : progress.turn responder = .continued next) : Answered next.journal := by
  have takes := turn_takes responder progress
  rw [continued] at takes
  cases takes
  rw [← List.append_assoc]
  exact answered_concat _ _ _

theorem prefix_journal_turn : progress.journal <+: (progress.turn responder).journal := by
  have takes := turn_takes responder progress
  generalize progress.turn responder = taken at takes ⊢
  cases takes with
  | stopped aim => exact List.prefix_rfl
  | refused aim failed => exact List.prefix_append _ _
  | resolved aim found => exact List.prefix_append _ _

theorem prefix_journal_turns (n : Nat) :
    progress.journal <+: (progress.turns responder n).journal := by
  induction n generalizing progress with
  | zero => exact List.prefix_rfl
  | succ n ih =>
    have first : progress.journal <+: (progress.turn responder).journal := prefix_journal_turn
    rw [turns]
    cases taken : progress.turn responder with
    | ended expansion =>
      rw [taken] at first
      exact first
    | continued next =>
      rw [taken] at first
      exact first.trans ih

/-- A run that succeeds leaves no question open. -/
theorem answered_of_run {finite : responder.Finite} (answered : Answered progress.journal)
    {t : Text} (done : (progress.run responder finite).result = .ok t) :
    Answered (progress.run responder finite).journal := by
  obtain ⟨n, ended⟩ := exists_turns_eq_run responder finite progress
  rcases turns_of_preserved (fun _ _ _ continued => answered_of_continued continued) answered n with
    ⟨next, same, -⟩ | ⟨last, expansion, before, taken, same⟩
  · rw [ended] at same
    cases same
  · rw [ended] at same
    cases same
    have takes := turn_takes responder last
    rw [taken] at takes
    generalize progress.run responder finite = expansion at takes done
    cases takes with
    | stopped aim => exact before
    | refused aim failed => cases done

end Progress

theorem answered_of_expand {sources : Sources} {t final : Text} {key : Option Text} {busy : Names}
    (expanded : (expand sources t key busy).result = .ok final) :
    Answered (expand sources t key busy).journal := by
  obtain ⟨result, journal⟩ := expand_eq_run sources t key busy
  rw [result] at expanded
  rw [journal]
  exact Progress.answered_of_run answered_nil expanded

namespace Marked

/-- The name whose source refused an answer, where a text came to that. -/
def sought (m : Marked) : Except Fault Text → List Text
  | .error (.refused _) =>
    match scan m.text with
    | .placeholder _ name _ => [name]
    | _ => []
  | _ => []

theorem sought_refused (place : Placeholder) (refusal : Refusal) :
    place.whole.sought (.error (.refused refusal)) = [place.name] := by
  simp only [sought, place.scan_whole]

/-- Moves come to an end with a result and look up these names on the way. -/
def Seeks (look : Look) (busy : Names) (m : Marked) (names : List Text)
    (result : Except Fault Text) : Prop :=
  ∃ passed last, Reaches look busy m passed last ∧ move look busy last = .ended result ∧
    names = passed ++ last.sought result

variable {look : Look} {busy : Names}

theorem Reaches.seeks {m mid : Marked} {names more : List Text} {result : Except Fault Text}
    (first : Reaches look busy m names mid) (second : Seeks look busy mid more result) :
    Seeks look busy m (names ++ more) result := by
  obtain ⟨passed, last, run, ended, rfl⟩ := second
  exact ⟨names ++ passed, last, first.trans run, ended, (List.append_assoc ..).symm⟩

theorem Seeks.unique {m : Marked} {names more : List Text} {result other : Except Fault Text}
    (first : Seeks look busy m names result) (second : Seeks look busy m more other) :
    names = more ∧ result = other := by
  obtain ⟨passed, last, run, ended, rfl⟩ := first
  obtain ⟨passedToo, lastToo, again, endedAgain, rfl⟩ := second
  obtain ⟨rfl, rfl⟩ := run.last_unique ended again endedAgain
  rw [ended] at endedAgain
  cases endedAgain
  exact ⟨rfl, rfl⟩

end Marked

open Marked

namespace Sources

/-- What is noted of a lookup. -/
def note (sources : Sources) (busy : Names) (name : Text) : Journal :=
  sources.responder.questions name (busy.insert name) [] ++
    match sources.lookup name with
    | .error _ => []
    | .ok value => [.resolved name value]

theorem questions_responder (sources : Sources) (name : Text) (held : Names)
    (before : Journal) :
    sources.responder.questions name held before = sources.responder.questions name held [] := by
  unfold Responder.questions responder
  cases sources.primary <;> rfl

theorem reply_responder (sources : Sources) (progress : Progress) (name : Text) :
    progress.reply sources.responder name = sources.lookup name :=
  sources.lookup_responder ..

end Sources

namespace Progress

variable {sources : Sources} {progress : Progress}

/-- A turn that goes on is a move, and notes the name that it replaces. -/
theorem move_of_continued (backed : Span.Backed progress.spans) {next : Progress}
    (continued : progress.turn sources.responder = .continued next) :
    ∃ name, move sources.lookup progress.busy (Span.marked progress.spans) =
        .replaced name (Span.marked next.spans) ∧
      Span.Backed next.spans ∧ next.busy = progress.busy ∧
      next.journal = progress.journal ++ sources.note progress.busy name := by
  have follows := turn_follows sources backed
  have takes := turn_takes sources.responder progress
  rw [continued] at follows takes
  generalize moved : move sources.lookup progress.busy (Span.marked progress.spans) = way
    at follows
  cases follows with
  | @replaced passed _ _ marks backed balanced =>
    obtain ⟨place, _, whole, rfl, -⟩ := exists_of_move_replaced _ _ moved
    have spelled := place.scan_whole
    rw [whole, Span.text_marked] at spelled
    refine ⟨place.name, by rw [marks], backed, balanced, ?_⟩
    cases takes with
    | @resolved name value next aim found =>
      obtain ⟨before, after, scanned⟩ := scan_of_aim aim
      rw [scanned] at spelled
      cases spelled
      rw [sources.reply_responder] at found
      simp only [Sources.note, found, questions, sources.questions_responder _ _ progress.journal]

/-- A turn that ends is the end of the moves, and notes a name whose source refused. -/
theorem move_of_ended (backed : Span.Backed progress.spans) {expansion : Expansion}
    (ended : progress.turn sources.responder = .ended expansion) :
    move sources.lookup progress.busy (Span.marked progress.spans) = .ended expansion.result ∧
      expansion.journal = progress.journal ++
        ((Span.marked progress.spans).sought expansion.result).flatMap
          (sources.note progress.busy) := by
  have follows := turn_follows sources backed
  have takes := turn_takes sources.responder progress
  rw [ended] at follows takes
  generalize moved : move sources.lookup progress.busy (Span.marked progress.spans) = way
    at follows
  cases follows with
  | ended result journal =>
    refine ⟨rfl, ?_⟩
    cases takes with
    | stopped aim =>
      have nothing : (Span.marked progress.spans).sought result = [] := by
        unfold sought
        split
        · next refusal => exact absurd rfl (ne_refused_of_aim aim refusal)
        · rfl
      rw [nothing]
      exact (List.append_nil _).symm
    | @refused name next refusal aim failed =>
      obtain ⟨before, after, scanned⟩ := scan_of_aim aim
      rw [sources.reply_responder] at failed
      simp only [sought, Span.text_marked, scanned, List.flatMap_cons, List.flatMap_nil,
        Sources.note, failed, questions, sources.questions_responder _ _ progress.journal,
        List.append_nil]

/-- A run of turns looks up the names that the moves do, and notes nothing else. -/
theorem run_seeks (backed : Span.Backed progress.spans) :
    ∃ names, Seeks sources.lookup progress.busy (Span.marked progress.spans) names
        (progress.run sources.responder sources.responder_finite).result ∧
      (progress.run sources.responder sources.responder_finite).journal =
        progress.journal ++ names.flatMap (sources.note progress.busy) := by
  induction progress using Progress.run.induct sources.responder sources.responder_finite with
  | case1 progress expansion ended =>
    obtain ⟨moved, noted⟩ := move_of_ended backed ended
    rw [run_of_ended ended]
    exact ⟨_, ⟨[], _, .refl _, moved, rfl⟩, noted⟩
  | case2 progress next continued ih =>
    obtain ⟨name, moved, backedNext, balanced, noted⟩ := move_of_continued backed continued
    obtain ⟨names, seeks, later⟩ := ih backedNext
    rw [balanced] at seeks later
    rw [run_of_continued continued]
    refine ⟨name :: names, (Reaches.single moved).seeks seeks, ?_⟩
    rw [later, noted, List.append_assoc, List.flatMap_cons]

end Progress

/-- An expansion looks up the names that the moves of its text do. -/
theorem expand_seeks (sources : Sources) (t : Text) (key : Option Text) (busy : Names) :
    ∃ names, Seeks sources.lookup (inProgress key busy) (mark t ∅) names
        (expand sources t key busy).result ∧
      (expand sources t key busy).journal =
        names.flatMap (sources.note (inProgress key busy)) := by
  obtain ⟨result, journal⟩ := expand_eq_run sources t key busy
  rw [result, journal, ← Progress.marked_start t key busy]
  exact Progress.run_seeks (Progress.backed_start t key busy)

/-- However the moves end and whatever they look up, so does the expansion. -/
theorem expand_of_seeks {sources : Sources} {t : Text} {key : Option Text} {busy : Names}
    {names : List Text} {result : Except Fault Text}
    (seeks : Seeks sources.lookup (inProgress key busy) (mark t ∅) names result) :
    (expand sources t key busy).result = result ∧
      (expand sources t key busy).journal =
        names.flatMap (sources.note (inProgress key busy)) := by
  obtain ⟨others, run, journal⟩ := expand_seeks sources t key busy
  obtain ⟨rfl, same⟩ := run.unique seeks
  exact ⟨same, journal⟩

/-- An expansion ends as the moves of its text do. -/
theorem expand_ends (sources : Sources) (t : Text) (key : Option Text) (busy : Names) :
    ∃ names, Ends sources.lookup (inProgress key busy) (mark t ∅) names
      (expand sources t key busy).result := by
  obtain ⟨_, ⟨passed, last, run, ended, -⟩, -⟩ := expand_seeks sources t key busy
  exact ⟨passed, last, run, ended⟩

/-- However its moves end, that is what an expansion gives. -/
theorem result_of_ends {sources : Sources} {t : Text} {key : Option Text} {busy : Names}
    {names : List Text} {result : Except Fault Text}
    (ends : Ends sources.lookup (inProgress key busy) (mark t ∅) names result) :
    (expand sources t key busy).result = result := by
  obtain ⟨_, run⟩ := expand_ends sources t key busy
  exact (run.unique ends).2

/-- What an expansion gives has no closing bracket left. -/
theorem settled_of_result {sources : Sources} {t final : Text} {key : Option Text} {busy : Names}
    (expanded : (expand sources t key busy).result = .ok final) : closer ∉ final := by
  obtain ⟨_, _, _, ended⟩ := expand_ends sources t key busy
  rw [expanded] at ended
  obtain ⟨settled, rfl⟩ := settled_of_move_ok _ _ ended
  exact settled

/-- A text without a closing bracket expands to itself. -/
theorem result_expand_settled {t : Text} (settled : closer ∉ t) (sources : Sources)
    (key : Option Text) (busy : Names) : (expand sources t key busy).result = .ok t := by
  refine result_of_ends (.of_ended ?_)
  rw [move_settled, text_mark]
  rwa [text_mark]

end PropertyToolkit.Substitution
