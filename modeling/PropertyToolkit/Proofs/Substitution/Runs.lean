import PropertyToolkit.Proofs.Substitution.Marked

/-!
Runs of moves. A run is noted with the names that it replaces, in order. Moves leave no choice, so
no two runs from one text come to different ends.
-/

set_option autoImplicit false

namespace PropertyToolkit.Substitution.Marked

variable (look : Look) (busy : Names)

/-- Moves lead from one text to another and replace these names, in order. -/
inductive Reaches : Marked → List Text → Marked → Prop where
  | refl (m : Marked) : Reaches m [] m
  | move {m next last : Marked} {name : Text} {names : List Text}
      (first : move look busy m = .replaced name next) (rest : Reaches next names last) :
      Reaches m (name :: names) last

/-- Moves come to an end with a result. -/
def Ends (m : Marked) (names : List Text) (result : Except Fault Text) : Prop :=
  ∃ last, Reaches look busy m names last ∧ move look busy last = .ended result

variable {look : Look} {busy : Names}

theorem Reaches.trans {m mid last : Marked} {names more : List Text}
    (first : Reaches look busy m names mid) (second : Reaches look busy mid more last) :
    Reaches look busy m (names ++ more) last := by
  induction first with
  | refl => exact second
  | move step _ ih => exact .move step (ih second)

theorem Reaches.single {m next : Marked} {name : Text}
    (step : Marked.move look busy m = .replaced name next) : Reaches look busy m [name] next :=
  .move step (.refl next)

/-- A text that is not ended on is left by its one move. -/
theorem Reaches.of_replaced {m next last : Marked} {name : Text} {names : List Text}
    {result : Except Fault Text} (step : Marked.move look busy m = .replaced name next)
    (run : Reaches look busy m names last) (ended : Marked.move look busy last = .ended result) :
    ∃ rest, names = name :: rest ∧ Reaches look busy next rest last := by
  cases run with
  | refl =>
    rw [step] at ended
    cases ended
  | move first rest =>
    rw [step] at first
    cases first
    exact ⟨_, rfl, rest⟩

theorem Reaches.last_unique {m first second : Marked} {names more : List Text}
    {result other : Except Fault Text} (run : Reaches look busy m names first)
    (ended : Marked.move look busy first = .ended result) (again : Reaches look busy m more second)
    (endedAgain : Marked.move look busy second = .ended other) :
    names = more ∧ first = second := by
  induction run generalizing more with
  | refl m =>
    cases again with
    | refl => exact ⟨rfl, rfl⟩
    | move step _ =>
      rw [ended] at step
      cases step
  | move step _ ih =>
    obtain ⟨rest, rfl, tail⟩ := again.of_replaced step endedAgain
    obtain ⟨rfl, same⟩ := ih ended tail
    exact ⟨rfl, same⟩

theorem Reaches.ends {m mid : Marked} {names more : List Text} {result : Except Fault Text}
    (first : Reaches look busy m names mid) (second : Ends look busy mid more result) :
    Ends look busy m (names ++ more) result := by
  obtain ⟨last, run, ended⟩ := second
  exact ⟨last, first.trans run, ended⟩

theorem Ends.of_ended {m : Marked} {result : Except Fault Text}
    (ended : Marked.move look busy m = .ended result) : Ends look busy m [] result :=
  ⟨m, .refl m, ended⟩

theorem Ends.unique {m : Marked} {names more : List Text} {result other : Except Fault Text}
    (first : Ends look busy m names result) (second : Ends look busy m more other) :
    names = more ∧ result = other := by
  obtain ⟨last, run, ended⟩ := first
  obtain ⟨end', again, endedAgain⟩ := second
  obtain ⟨same, rfl⟩ := run.last_unique ended again endedAgain
  rw [ended] at endedAgain
  cases endedAgain
  exact ⟨same, rfl⟩

theorem Ends.cases_ok {m : Marked} {names : List Text} {t : Text}
    (run : Ends look busy m names (.ok t)) :
    (closer ∉ m.text ∧ m.text = t ∧ names = []) ∨
      ∃ name next rest, Marked.move look busy m = .replaced name next ∧ names = name :: rest ∧
        Ends look busy next rest (.ok t) := by
  obtain ⟨last, run, ended⟩ := run
  cases run with
  | refl =>
    obtain ⟨settled, same⟩ := settled_of_move_ok look busy ended
    exact Or.inl ⟨settled, same, rfl⟩
  | move step rest => exact Or.inr ⟨_, _, _, step, rfl, last, rest, ended⟩

end PropertyToolkit.Substitution.Marked
