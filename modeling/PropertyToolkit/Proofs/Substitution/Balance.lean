import PropertyToolkit.Proofs.Substitution.Journal

/-!
Names come into progress and go out of it in pairs. At each question to a source the names in
progress are those of the caller, the name whose value is expanded, and the name that is asked for;
whichever way the expansion ends, the caller has his names again. The fallback is asked for a name
when the primary source has just missed it or is absent, and only then.

The sources may do what they like: answer one way now and another way later, or fail at any
question.
-/

set_option autoImplicit false

namespace PropertyToolkit.Substitution

namespace Responder

/-- The primary source leaves a name to the fallback: it has just missed it, or is absent. -/
def Passes (responder : Responder) (name : Text) (before : Journal) : Prop :=
  responder.primary = none ∨ ∃ answer earlier held, responder.primary = some answer ∧
    before = earlier ++ [.asked .primary name held] ∧ answer earlier name = .ok none

/-- The names that one source was asked for. -/
def asksOf (side : Side) (journal : Journal) : List Text :=
  journal.filterMap fun event =>
    match event with
    | .asked other name _ => if other = side then some name else none
    | .resolved .. => none

/-- A journal in good order, while these names are in progress between the lookups. -/
structure Orderly (responder : Responder) (busy : Names) (journal : Journal) : Prop where
  /-- While a name is asked for, it is in progress, and no other one with it. -/
  held : ∀ side name names, .asked side name names ∈ journal → names = busy.insert name
  /-- The fallback is asked only for what the primary source leaves to it, -/
  passed : ∀ before name names after, journal = before ++ .asked .fallback name names :: after →
    responder.Passes name before
  /-- and after each miss of the primary source it is asked at once. -/
  next : ∀ answer before name names after, responder.primary = some answer →
    responder.fallback ≠ none → journal = before ++ .asked .primary name names :: after →
    answer before name = .ok none → ∃ rest, after = .asked .fallback name names :: rest
  /-- The primary source is asked for all names that are looked up. -/
  primary : responder.primary ≠ none → asksOf .primary journal = lookups journal
  /-- Where it is absent, the fallback is asked for all of them. -/
  fallback : responder.primary = none → responder.fallback ≠ none →
    asksOf .fallback journal = lookups journal

variable {responder : Responder} {busy held : Names} {name : Text} {before journal : Journal}

theorem asksOf_append (side : Side) (first second : Journal) :
    asksOf side (first ++ second) = asksOf side first ++ asksOf side second :=
  List.filterMap_append

/-- An event that stands in two journals one after the other stands in one of them. -/
theorem split_append {first second front after : Journal} {event : Event}
    (split : first ++ second = front ++ event :: after) :
    (∃ rest, first = front ++ event :: rest ∧ after = rest ++ second) ∨
      ∃ rest, front = first ++ rest ∧ second = rest ++ event :: after := by
  rcases List.append_eq_append_iff.1 split with ⟨rest, rfl, same⟩ | ⟨rest, rfl, same⟩
  · exact Or.inr ⟨rest, rfl, same⟩
  · rcases List.cons_eq_append_iff.1 same with ⟨rfl, rfl⟩ | ⟨more, rfl, rfl⟩
    · exact Or.inr ⟨[], by rw [List.append_nil, List.append_nil], rfl⟩
    · exact Or.inl ⟨more, rfl, rfl⟩

section

variable {ending front after : Journal} {side : Side} {other : Text} {names : Names}

theorem ne_split (quiet : ∀ side name held, .asked side name held ∉ ending) :
    ending ≠ front ++ .asked side other names :: after := by
  rintro rfl
  exact quiet side other names (List.mem_append_right front List.mem_cons_self)

/-- Where a question that may be put is followed by an ending without questions. -/
theorem split_question {answer? : Option Answer} {source : Side}
    (quiet : ∀ side name held, .asked side name held ∉ ending)
    (split : question answer? source name held ++ ending =
      front ++ .asked side other names :: after) : front = [] ∧ side = source ∧ other = name := by
  cases answer? with
  | none => exact absurd split (ne_split quiet)
  | some answer =>
    rcases List.cons_eq_append_iff.1 split with ⟨rfl, same⟩ | ⟨rest, -, same⟩
    · cases same
      exact ⟨rfl, rfl, rfl⟩
    · exact absurd same (ne_split quiet)

/-- After the first question of a lookup there is one to the fallback at most. -/
theorem split_second {answer : Answer} (quiet : ∀ side name held, .asked side name held ∉ ending)
    (split : (if answer before name = .ok none then
        question responder.fallback .fallback name held else []) ++ ending =
      front ++ .asked side other names :: after) :
    answer before name = .ok none ∧ front = [] ∧ side = .fallback ∧ other = name := by
  split at split
  · next missed => exact ⟨missed, split_question quiet split⟩
  · exact absurd split (ne_split quiet)

/-- A question to the primary source comes first in its lookup, and after a miss the question to the
fallback follows. -/
theorem split_questions_primary (quiet : ∀ side name held, .asked side name held ∉ ending)
    (split : responder.questions name held before ++ ending =
      front ++ .asked .primary other names :: after) :
    front = [] ∧ other = name ∧ names = held ∧
      ∀ answer, responder.primary = some answer → answer before name = .ok none →
        after = question responder.fallback .fallback name held ++ ending := by
  unfold questions at split
  cases present : responder.primary with
  | none =>
    rw [present] at split
    cases (split_question quiet split).2.1
  | some answer =>
    rw [present] at split
    rcases List.cons_eq_append_iff.1 split with ⟨rfl, same⟩ | ⟨rest, -, same⟩
    · obtain ⟨event, rfl⟩ := List.cons.inj same
      cases event
      refine ⟨rfl, rfl, rfl, fun other present missed => ?_⟩
      cases present
      rw [if_pos missed]
      rfl
    · cases (split_second quiet same).2.2.1

/-- A question to the fallback comes after a miss of the primary source, if that is there. -/
theorem split_questions_fallback (quiet : ∀ side name held, .asked side name held ∉ ending)
    (split : responder.questions name held before ++ ending =
      front ++ .asked .fallback other names :: after) :
    responder.Passes other (before ++ front) := by
  unfold questions at split
  cases present : responder.primary with
  | none => exact Or.inl present
  | some answer =>
    rw [present] at split
    rcases List.cons_eq_append_iff.1 split with ⟨rfl, same⟩ | ⟨rest, rfl, same⟩
    · cases (List.cons.inj same).1
    · obtain ⟨missed, rfl, -, rfl⟩ := split_second quiet same
      exact Or.inr ⟨answer, before, held, present, rfl, missed⟩

end

/-- A lookup leaves its value in the journal after its questions, if it has found one. -/
def Closes (name : Text) (ending : Journal) : Prop :=
  ending = [] ∨ ∃ value, ending = [.resolved name value]

theorem Closes.quiet {ending : Journal} (closes : Closes name ending) (side : Side) (other : Text)
    (names : Names) : .asked side other names ∉ ending := by
  rcases closes with rfl | ⟨value, rfl⟩
  · exact List.not_mem_nil
  · intro mem
    cases List.mem_singleton.1 mem

theorem Closes.asksOf {ending : Journal} (closes : Closes name ending) (side : Side) :
    asksOf side ending = [] := by
  rcases closes with rfl | ⟨value, rfl⟩ <;> rfl

theorem asksOf_primary_questions (present : responder.primary ≠ none) :
    asksOf .primary (responder.questions name held before) = [name] := by
  obtain ⟨answer, known⟩ := Option.ne_none_iff_exists'.1 present
  have second : asksOf .primary (question responder.fallback .fallback name held) = [] := by
    cases responder.fallback <;> rfl
  simp only [questions, known]
  split
  · exact congrArg (name :: ·) second
  · rfl

theorem asksOf_fallback_questions (absent : responder.primary = none)
    (present : responder.fallback ≠ none) :
    asksOf .fallback (responder.questions name held before) = [name] := by
  obtain ⟨answer, known⟩ := Option.ne_none_iff_exists'.1 present
  simp only [questions, absent, known]
  rfl

theorem orderly_nil (responder : Responder) (busy : Names) : responder.Orderly busy [] where
  held _ _ _ mem := by cases mem
  passed before _ _ _ split :=
    absurd split.symm (List.append_ne_nil_of_right_ne_nil before (List.cons_ne_nil _ _))
  next _ before _ _ _ _ _ split :=
    absurd split.symm (List.append_ne_nil_of_right_ne_nil before (List.cons_ne_nil _ _))
  primary _ := rfl
  fallback _ _ := rfl

/-- A lookup keeps the journal in good order. -/
theorem Orderly.append_lookup (orderly : responder.Orderly busy journal) {ending : Journal}
    (closes : Closes name ending)
    (looked : lookups (journal ++ (responder.questions name (busy.insert name) journal ++ ending)) =
      lookups journal ++ [name]) :
    responder.Orderly busy
      (journal ++ (responder.questions name (busy.insert name) journal ++ ending)) where
  held side other names mem := by
    rcases List.mem_append.1 mem with earlier | later
    · exact orderly.held side other names earlier
    · rcases List.mem_append.1 later with asked | closing
      · obtain ⟨source, same⟩ := exists_of_mem_questions asked
        cases same
        rfl
      · exact absurd closing (closes.quiet side other names)
  passed before other names after split := by
    rcases split_append split with ⟨rest, earlier, -⟩ | ⟨rest, rfl, later⟩
    · exact orderly.passed before other names rest earlier
    · exact split_questions_fallback closes.quiet later
  next answer before other names after present last split missed := by
    rcases split_append split with ⟨rest, earlier, rfl⟩ | ⟨rest, rfl, later⟩
    · obtain ⟨more, rfl⟩ := orderly.next answer before other names rest present last earlier missed
      exact ⟨_, rfl⟩
    · obtain ⟨rfl, rfl, rfl, follows⟩ := split_questions_primary closes.quiet later
      rw [List.append_nil] at missed
      rw [follows answer present missed]
      obtain ⟨answerLast, known⟩ := Option.ne_none_iff_exists'.1 last
      rw [known]
      exact ⟨ending, rfl⟩
  primary present := by
    rw [looked, asksOf_append, asksOf_append, orderly.primary present, closes.asksOf,
      asksOf_primary_questions present, List.append_nil]
  fallback absent present := by
    rw [looked, asksOf_append, asksOf_append, orderly.fallback absent present, closes.asksOf,
      asksOf_fallback_questions absent present, List.append_nil]

end Responder

namespace Progress

/-- Between two turns these names are in progress, and the journal is in good order. -/
structure Balanced (responder : Responder) (busy : Names) (progress : Progress) : Prop where
  restored : progress.busy = busy
  answered : Answered progress.journal
  orderly : responder.Orderly busy progress.journal

variable {responder : Responder} {busy : Names} {progress : Progress}

theorem Balanced.continued (balanced : progress.Balanced responder busy) {next : Progress}
    (continued : progress.turn responder = .continued next) : next.Balanced responder busy := by
  have takes := turn_takes responder progress
  have answered := answered_of_continued continued
  obtain ⟨rfl, before, orderly⟩ := balanced
  rw [continued] at takes
  cases takes with
  | resolved aim found =>
    exact ⟨rfl, answered, orderly.append_lookup (Or.inr ⟨_, rfl⟩) (lookups_resolved before _)⟩

theorem Balanced.ended (balanced : progress.Balanced responder busy) {expansion : Expansion}
    (ended : progress.turn responder = .ended expansion) :
    expansion.busy = busy ∧ responder.Orderly busy expansion.journal := by
  have takes := turn_takes responder progress
  obtain ⟨rfl, before, orderly⟩ := balanced
  rw [ended] at takes
  cases takes with
  | stopped aim => exact ⟨rfl, orderly⟩
  | refused aim failed =>
    have looked := lookups_refused before failed
    rw [← List.append_nil (questions responder progress _)] at looked ⊢
    exact ⟨rfl, orderly.append_lookup (Or.inl rfl) looked⟩

end Progress

theorem start_balanced (responder : Responder) (t : Text) (key : Option Text) (busy : Names) :
    (Progress.start t key busy).Balanced responder (inProgress key busy) :=
  ⟨rfl, answered_nil, responder.orderly_nil _⟩

/-- Once an expansion is over, the name whose value it was is out of progress again. -/
theorem busy_close {expansion : Expansion} {key : Option Text} {busy : Names}
    (restored : expansion.busy = inProgress key busy) :
    (expansion.close key busy).busy = busy := by
  cases key with
  | none => exact restored
  | some name =>
    simp only [Expansion.close]
    by_cases known : name ∈ busy
    · rw [inProgress, List.insert_of_mem known] at restored
      rw [if_pos known, restored]
    · rw [inProgress, List.insert_of_not_mem known] at restored
      rw [if_neg known, restored, List.erase_cons_head]

theorem expandWithin_balanced (responder : Responder) (n : Nat) (t : Text) (key : Option Text)
    (busy : Names) :
    (∀ expansion, expandWithin responder n t key busy = .ended expansion →
      expansion.busy = busy) ∧
      responder.Orderly (inProgress key busy) (expandWithin responder n t key busy).journal := by
  have balanced := start_balanced responder t key busy
  rw [journal_expandWithin]
  unfold expandWithin
  rcases Progress.turns_of_preserved (fun _ _ holds taken => holds.continued taken) balanced n with
    ⟨next, same, holds⟩ | ⟨last, expansion, holds, ended, same⟩
  · rw [same]
    refine ⟨fun expansion impossible => ?_, holds.orderly⟩
    cases impossible
  · obtain ⟨restored, orderly⟩ := holds.ended ended
    rw [same]
    refine ⟨fun closed given => ?_, orderly⟩
    cases given
    exact busy_close restored

/-- Over sources of any kind the caller has his names in progress again whenever an expansion ends,
with a text, a fault or an answer refused. At each question on the way just these names, the name
whose value is expanded and the name asked for are in progress, and the fallback is asked exactly
for what the primary source leaves to it. -/
theorem expandWith_balanced (responder : Responder) (t : Text) (key : Option Text)
    (busy : Names) :
    (∀ n, (∀ expansion, expandWithin responder n t key busy = .ended expansion →
        expansion.busy = busy) ∧
      responder.Orderly (inProgress key busy) (expandWithin responder n t key busy).journal) ∧
    ∀ finite : responder.Finite,
      (expandWith responder finite t key busy).busy = busy ∧
      responder.Orderly (inProgress key busy) (expandWith responder finite t key busy).journal := by
  refine ⟨fun n => expandWithin_balanced responder n t key busy, fun finite => ?_⟩
  obtain ⟨n, ended⟩ := exists_expandWithin_eq responder finite t key busy
  obtain ⟨restored, orderly⟩ := expandWithin_balanced responder n t key busy
  rw [ended] at restored orderly
  exact ⟨restored _ rfl, orderly⟩

/-- Sources of which the first has nothing and the second fails after its first answer. -/
def fading : Responder where
  primary := some fun _ _ => .ok none
  fallback := some fun journal name =>
    if journal.length ≤ 1 ∧ name = "a" then .ok (some "v") else .error .unavailable

theorem fading_finite : fading.Finite := by
  refine ⟨["a"], 1, fun name busy journal value found filled => ?_⟩
  simp only [Responder.lookup, Responder.ask, fading] at found
  split at found
  · cases found
  · next answered =>
    simp only [Prod.mk.injEq] at answered
    obtain ⟨answer, -⟩ := answered
    split at answer
    · next known =>
      cases answer
      cases found
      exact ⟨List.mem_singleton.2 known.2, Nat.le_refl _⟩
    · cases answer

/-- The second lookup fails, and the name that was in progress before still is, and no other. -/
theorem expandWith_fading :
    (∃ expansion, expandWithin fading 2 "$\x7ba\x7d-$\x7bb\x7d" (some "k") ["k"] =
        .ended expansion ∧
      expansion.result = .error (.refused .unavailable) ∧ expansion.busy = ["k"]) ∧
    (expandWith fading fading_finite "$\x7ba\x7d-$\x7bb\x7d" (some "k") ["k"]).busy = ["k"] := by
  have balanced :=
    expandWith_balanced fading "$\x7ba\x7d-$\x7bb\x7d" (some "k") ["k"]
  exact ⟨⟨_, rfl, rfl, (balanced.1 2).1 _ rfl⟩, (balanced.2 fading_finite).1⟩

end PropertyToolkit.Substitution
