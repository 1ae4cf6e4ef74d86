import PropertyToolkit.Proofs.Substitution.Termination

/-!
What a turn can do, over sources of any kind, also those that change or fail halfway. Before a
source is asked a turn has an aim: to stop, or to look up a name. A lookup adds its questions to the
journal, and the name that it is for is in progress only as long as it lasts.

Over sources without bounds an expansion may go on for ever, so it is cut here after a number of
turns. Where the sources are finite it ends within some number of them.
-/

set_option autoImplicit false

namespace PropertyToolkit.Substitution

namespace Responder

/-- The question to a source, which is put if the source is there. -/
def question (answer? : Option Answer) (side : Side) (name : Text) (held : Names) : Journal :=
  match answer? with
  | none => []
  | some _ => [.asked side name held]

/-- The questions of a lookup, put after what was noted before. -/
def questions (responder : Responder) (name : Text) (held : Names) (before : Journal) : Journal :=
  match responder.primary with
  | none => question responder.fallback .fallback name held
  | some answer =>
    .asked .primary name held ::
      if answer before name = .ok none then question responder.fallback .fallback name held else []

theorem snd_ask (answer? : Option Answer) (side : Side) (name : Text) (held : Names)
    (before : Journal) :
    (ask answer? side name held before).2 = before ++ question answer? side name held := by
  cases answer? with
  | none => exact (List.append_nil before).symm
  | some answer => rfl

theorem snd_lookup (responder : Responder) (name : Text) (held : Names) (before : Journal) :
    (responder.lookup name held before).2 = before ++ responder.questions name held before := by
  obtain ⟨primary, fallback⟩ := responder
  have second (journal : Journal) := snd_ask fallback .fallback name held journal
  -- What the fallback answers does not matter, only that it is asked.
  cases primary with
  | none =>
    have absent : ask none .primary name held before = (.ok none, before) := rfl
    simp only [lookup, questions, absent]
    rw [← second]
    generalize ask fallback .fallback name held before = asked
    obtain ⟨reply, journal⟩ := asked
    cases reply <;> rfl
  | some answer =>
    have present : ask (some answer) .primary name held before =
        (answer before name, before ++ [.asked .primary name held]) := rfl
    simp only [lookup, questions, present]
    cases answer before name with
    | error refusal => rfl
    | ok found =>
      cases found with
      | some value => rfl
      | none =>
        rw [if_pos rfl, List.append_cons before _ (question fallback .fallback name held), ← second]
        dsimp only
        generalize ask fallback .fallback name held (before ++ [_]) = asked
        obtain ⟨reply, journal⟩ := asked
        cases reply <;> rfl

variable {responder : Responder} {name : Text} {held : Names} {before : Journal}

theorem eq_of_mem_question {answer? : Option Answer} {side : Side} {event : Event}
    (mem : event ∈ question answer? side name held) : event = .asked side name held := by
  cases answer? with
  | none => cases mem
  | some answer => exact List.mem_singleton.1 mem

/-- All questions of a lookup are for its name. -/
theorem exists_of_mem_questions {event : Event}
    (mem : event ∈ responder.questions name held before) :
    ∃ side, event = .asked side name held := by
  unfold questions at mem
  split at mem
  · exact ⟨.fallback, eq_of_mem_question mem⟩
  · rcases List.mem_cons.1 mem with first | later
    · exact ⟨.primary, first⟩
    · split at later
      · exact ⟨.fallback, eq_of_mem_question later⟩
      · cases later

/-- Only a source that is asked can refuse an answer. -/
theorem questions_ne_nil {refusal : Refusal}
    (failed : (responder.lookup name held before).1 = .error refusal) :
    responder.questions name held before ≠ [] := by
  intro empty
  obtain ⟨primary, fallback⟩ := responder
  cases primary with
  | some answer => cases empty
  | none =>
    cases fallback with
    | some answer => cases empty
    | none => cases failed

end Responder

/-- What a turn is about to do, before any source is asked. -/
inductive Aim where
  | stop (result : Except Fault Text)
  /-- A name is looked up; its value leads to other spans. -/
  | lookUp (name : Text) (next : Text → List Span)

namespace Progress

def aim (progress : Progress) : Aim :=
  let t := Span.joined progress.spans
  match scan t with
  | .settled => .stop (.ok t)
  | .unopened => .stop (.error (.unmatched t))
  | .placeholder before name _ =>
    let start := before.length
    let stop := start + (opening.length + name.length + closing.length)
    let origins := Span.originsBetween progress.spans start stop
    if name ∈ progress.busy ∨ name ∈ origins then .stop (.error (.cyclic name))
    else .lookUp name fun value =>
      Span.splice progress.spans start stop ⟨value, origins.union [name]⟩

variable {progress : Progress}

theorem ne_refused_of_aim {result : Except Fault Text} (aim : progress.aim = .stop result)
    (refusal : Refusal) : result ≠ .error (.refused refusal) := by
  rintro rfl
  unfold Progress.aim at aim
  dsimp only at aim
  split at aim
  · cases aim
  · cases aim
  · split at aim <;> cases aim

theorem scan_of_aim {name : Text} {next : Text → List Span}
    (aim : progress.aim = .lookUp name next) :
    ∃ before after, scan (Span.joined progress.spans) = .placeholder before name after := by
  unfold Progress.aim at aim
  dsimp only at aim
  split at aim
  · cases aim
  · cases aim
  · next found =>
    split at aim
    · cases aim
    · cases aim
      exact ⟨_, _, found⟩

theorem not_mem_busy_of_aim {name : Text} {next : Text → List Span}
    (aim : progress.aim = .lookUp name next) : name ∉ progress.busy := by
  unfold Progress.aim at aim
  dsimp only at aim
  split at aim
  · cases aim
  · cases aim
  · split at aim
    · cases aim
    · next fresh =>
      cases aim
      exact fun mem => fresh (Or.inl mem)

/-- The questions of a lookup of this name, with what is in progress. -/
def questions (responder : Responder) (progress : Progress) (name : Text) : Journal :=
  responder.questions name (progress.busy.insert name) progress.journal

/-- What a source answers at this point. -/
def reply (responder : Responder) (progress : Progress) (name : Text) : Except Refusal Text :=
  (responder.lookup name (progress.busy.insert name) progress.journal).1

variable {responder : Responder}

theorem turn_of_stop {result : Except Fault Text} (aim : progress.aim = .stop result) :
    progress.turn responder = .ended ⟨result, progress.busy, progress.journal⟩ := by
  unfold Progress.aim at aim
  unfold turn
  cases found : scan (Span.joined progress.spans) with
  | settled =>
    simp only [found] at aim ⊢
    cases aim
    rfl
  | unopened =>
    simp only [found] at aim ⊢
    cases aim
    rfl
  | placeholder before name after =>
    simp only [found] at aim ⊢
    split at aim
    · next known =>
      cases aim
      rw [if_pos known]
      rfl
    · cases aim

theorem turn_of_lookUp {name : Text} {next : Text → List Span}
    (aim : progress.aim = .lookUp name next) :
    progress.turn responder =
      match progress.reply responder name with
      | .error refusal =>
        .ended ⟨.error (.refused refusal), progress.busy,
          progress.journal ++ progress.questions responder name⟩
      | .ok value =>
        .continued ⟨next value, progress.busy,
          progress.journal ++ (progress.questions responder name ++ [.resolved name value])⟩ := by
  have idle := not_mem_busy_of_aim aim
  have released : (progress.busy.insert name).erase name = progress.busy := by
    rw [List.insert_of_not_mem idle, List.erase_cons_head]
  have asked : responder.lookup name (progress.busy.insert name) progress.journal =
      (progress.reply responder name,
        progress.journal ++ progress.questions responder name) :=
    Prod.ext rfl (responder.snd_lookup ..)
  obtain ⟨before, after, found⟩ := scan_of_aim aim
  unfold Progress.aim at aim
  unfold turn
  simp only [found] at aim ⊢
  split at aim
  · cases aim
  · next fresh =>
    cases aim
    rw [if_neg fresh, asked]
    simp only [released]
    cases progress.reply responder name with
    | error refusal => rfl
    | ok value =>
      dsimp only
      rw [List.append_assoc]

section

variable {name : Text} {next : Text → List Span}

theorem turn_of_refused (aim : progress.aim = .lookUp name next) {refusal : Refusal}
    (failed : progress.reply responder name = .error refusal) :
    progress.turn responder = .ended ⟨.error (.refused refusal), progress.busy,
      progress.journal ++ progress.questions responder name⟩ := by
  rw [turn_of_lookUp aim, failed]

theorem turn_of_resolved (aim : progress.aim = .lookUp name next) {value : Text}
    (found : progress.reply responder name = .ok value) :
    progress.turn responder = .continued ⟨next value, progress.busy,
      progress.journal ++ (progress.questions responder name ++ [.resolved name value])⟩ := by
  rw [turn_of_lookUp aim, found]

end

/-- All that a turn can be. The names in progress are the same after it. -/
inductive Takes (responder : Responder) (progress : Progress) : Turn → Prop where
  | stopped {result : Except Fault Text} (aim : progress.aim = .stop result) :
      Takes responder progress (.ended ⟨result, progress.busy, progress.journal⟩)
  | refused {name : Text} {next : Text → List Span} {refusal : Refusal}
      (aim : progress.aim = .lookUp name next)
      (failed : progress.reply responder name = .error refusal) :
      Takes responder progress (.ended ⟨.error (.refused refusal), progress.busy,
        progress.journal ++ progress.questions responder name⟩)
  | resolved {name value : Text} {next : Text → List Span}
      (aim : progress.aim = .lookUp name next)
      (found : progress.reply responder name = .ok value) :
      Takes responder progress (.continued ⟨next value, progress.busy,
        progress.journal ++ (progress.questions responder name ++ [.resolved name value])⟩)

theorem turn_takes (responder : Responder) (progress : Progress) :
    Takes responder progress (progress.turn responder) := by
  cases aim : progress.aim with
  | stop result =>
    rw [turn_of_stop aim]
    exact .stopped aim
  | lookUp name next =>
    cases answered : progress.reply responder name with
    | error refusal =>
      rw [turn_of_refused aim answered]
      exact .refused aim answered
    | ok value =>
      rw [turn_of_resolved aim answered]
      exact .resolved aim answered

/-- What every turn preserves holds after any number of turns, up to the last one. -/
theorem turns_of_preserved {P : Progress → Prop}
    (preserved : ∀ progress next, P progress → progress.turn responder = .continued next → P next)
    (holds : P progress) (n : Nat) :
    (∃ next, progress.turns responder n = .continued next ∧ P next) ∨
      ∃ last expansion, P last ∧ last.turn responder = .ended expansion ∧
        progress.turns responder n = .ended expansion := by
  induction n generalizing progress with
  | zero => exact Or.inl ⟨progress, rfl, holds⟩
  | succ n ih =>
    rw [turns]
    cases taken : progress.turn responder with
    | ended expansion => exact Or.inr ⟨progress, expansion, holds, taken, rfl⟩
    | continued next => exact ih (preserved progress next holds taken)

theorem exists_turns_eq_run (responder : Responder) (finite : responder.Finite)
    (progress : Progress) :
    ∃ n, progress.turns responder n = .ended (progress.run responder finite) := by
  obtain ⟨names, longest, bounded⟩ := finite
  obtain ⟨expansion, ended⟩ := turns_end_of_weight_lt bounded
    (Nat.lt_succ_self (Span.weight names (longest + 1) progress.spans))
  rw [run_of_turns ⟨names, longest, bounded⟩ ended]
  exact ⟨_, ended⟩

end Progress

/-- An expansion is over, and with it the name whose value the text was. -/
def Expansion.close (expansion : Expansion) (key : Option Text) (busy : Names) : Expansion :=
  match key with
  | none => expansion
  | some name =>
    if name ∈ busy then expansion else { expansion with busy := expansion.busy.erase name }

theorem Expansion.result_close (expansion : Expansion) (key : Option Text) (busy : Names) :
    (expansion.close key busy).result = expansion.result := by
  unfold Expansion.close
  split
  · rfl
  · split <;> rfl

theorem Expansion.journal_close (expansion : Expansion) (key : Option Text) (busy : Names) :
    (expansion.close key busy).journal = expansion.journal := by
  unfold Expansion.close
  split
  · rfl
  · split <;> rfl

/-- What becomes of an expansion within a number of turns. -/
def expandWithin (responder : Responder) (n : Nat) (t : Text) (key : Option Text)
    (busy : Names) : Turn :=
  match (Progress.start t key busy).turns responder n with
  | .ended expansion => .ended (expansion.close key busy)
  | .continued progress => .continued progress

theorem expandWith_eq_close (responder : Responder) (finite : responder.Finite) (t : Text)
    (key : Option Text) (busy : Names) :
    expandWith responder finite t key busy =
      ((Progress.start t key busy).run responder finite).close key busy := by
  unfold expandWith Progress.start inProgress Expansion.close
  cases key with
  | none => rfl
  | some name =>
    simp only
    split
    · next known => rw [List.insert_of_mem known]
    · rfl

theorem expandWith_of_within {responder : Responder} (finite : responder.Finite) {n : Nat}
    {t : Text} {key : Option Text} {busy : Names} {expansion : Expansion}
    (ended : expandWithin responder n t key busy = .ended expansion) :
    expandWith responder finite t key busy = expansion := by
  unfold expandWithin at ended
  split at ended
  · next last taken =>
    rw [expandWith_eq_close, Progress.run_of_turns finite taken]
    exact Turn.ended.inj ended
  · cases ended

/-- Over finite sources some number of turns is enough. -/
theorem exists_expandWithin_eq (responder : Responder) (finite : responder.Finite) (t : Text)
    (key : Option Text) (busy : Names) :
    ∃ n, expandWithin responder n t key busy =
      .ended (expandWith responder finite t key busy) := by
  obtain ⟨n, ended⟩ :=
    Progress.exists_turns_eq_run responder finite (Progress.start t key busy)
  refine ⟨n, ?_⟩
  rw [expandWithin, ended, expandWith_eq_close]

end PropertyToolkit.Substitution
