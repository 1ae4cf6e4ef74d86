import PropertyToolkit.Proofs.Substitution.Journal
import PropertyToolkit.Substitution.Properties

/-!
Only what is looked up has a part in an expansion. Two responders that answer alike the names that
the first is asked for keep their expansions in step: after any number of turns both stand at the
same text and have looked up the same names, whatever the second has for all other names.
-/

set_option autoImplicit false

namespace PropertyToolkit.Substitution

open Marked

/-- A responder answers in the same way at all times. -/
def Responder.Steady (responder : Responder) (look : Look) : Prop :=
  ∀ name busy journal, (responder.lookup name busy journal).1 = look name

theorem Sources.responder_steady (sources : Sources) :
    sources.responder.Steady sources.lookup := sources.lookup_responder

theorem prefix_lookups {earlier later : Journal} (answered : Answered earlier)
    (before : earlier <+: later) : lookups earlier <+: lookups later := by
  obtain ⟨rest, rfl⟩ := before
  rw [lookups_append answered]
  exact List.prefix_append _ _

theorem result?_expandWithin (responder : Responder) (n : Nat) (t : Text) (key : Option Text)
    (busy : Names) :
    (expandWithin responder n t key busy).result? =
      ((Progress.start t key busy).turns responder n).result? := by
  unfold expandWithin
  cases (Progress.start t key busy).turns responder n with
  | ended expansion => exact congrArg some (expansion.result_close key busy)
  | continued progress => rfl

/-- Two expansions under way stand at the same text after the same lookups. -/
structure Progress.Alike (first second : Progress) : Prop where
  spans : first.spans = second.spans
  busy : first.busy = second.busy
  answered : Answered first.journal
  answeredToo : Answered second.journal
  looked : lookups first.journal = lookups second.journal

/-- Two turns come to the same. -/
inductive Turn.Alike : Turn → Turn → Prop where
  | ended {result : Except Fault Text} {busy : Names} {first second : Journal}
      (same : lookups first = lookups second) :
      Alike (.ended ⟨result, busy, first⟩) (.ended ⟨result, busy, second⟩)
  | continued {first second : Progress} (alike : first.Alike second) :
      Alike (.continued first) (.continued second)

namespace Turn.Alike

variable {first second : Turn}

theorem result? (alike : first.Alike second) : first.result? = second.result? := by
  cases alike <;> rfl

theorem looked (alike : first.Alike second) :
    lookups first.journal = lookups second.journal := by
  cases alike with
  | ended same => exact same
  | continued alike => exact alike.looked

end Turn.Alike

namespace Progress

variable {one two : Responder} {look other : Look} {first second : Progress}

/-- What a turn is about to do shows in the text and in the names in progress. -/
theorem Alike.aim (alike : first.Alike second) : first.aim = second.aim := by
  unfold Progress.aim
  rw [alike.spans, alike.busy]

/-- One turn keeps two expansions alike if the name that it looks up has the same value in both. -/
theorem Alike.turn (alike : first.Alike second) (steady : one.Steady look)
    (steadyToo : two.Steady other)
    (agree : ∀ name ∈ lookups (first.turn one).journal, look name = other name) :
    (first.turn one).Alike (second.turn two) := by
  have aims := alike.aim
  cases aim : first.aim with
  | stop result =>
    have aimToo := aims.symm.trans aim
    rw [turn_of_stop aim, turn_of_stop aimToo, alike.busy]
    exact .ended alike.looked
  | lookUp name next =>
    have aimToo := aims.symm.trans aim
    have looked := lookups_turn one alike.answered aim
    have lookedToo := lookups_turn two alike.answeredToo aimToo
    have same : look name = other name := by
      apply agree
      rw [looked]
      exact List.mem_concat_self
    have answer : second.reply two name = first.reply one name := by
      rw [reply, reply, steady, steadyToo, same]
    have both : lookups (first.turn one).journal =
        lookups (second.turn two).journal := by
      rw [looked, lookedToo, alike.looked]
    cases found : first.reply one name with
    | error refusal =>
      rw [turn_of_refused aim found, turn_of_refused aimToo (answer.trans found)] at both ⊢
      rw [alike.busy]
      exact .ended both
    | ok value =>
      have turned := turn_of_resolved aim found
      have turnedToo := turn_of_resolved aimToo (answer.trans found)
      rw [turned, turnedToo] at both ⊢
      apply Turn.Alike.continued
      exact ⟨rfl, alike.busy, answered_of_continued turned, answered_of_continued turnedToo, both⟩

/-- The names looked up in the first turn are looked up in all the turns. -/
theorem prefix_lookups_turns (responder : Responder) (progress : Progress) (n : Nat) :
    lookups (progress.turn responder).journal <+:
      lookups (progress.turns responder (n + 1)).journal := by
  rw [turns]
  cases taken : progress.turn responder with
  | ended expansion => exact List.prefix_rfl
  | continued next =>
    exact prefix_lookups (answered_of_continued taken) (prefix_journal_turns n)

/-- Two expansions stay alike for as many turns as the names that the first looks up in them have
the same values in both. -/
theorem Alike.turns (alike : first.Alike second) (steady : one.Steady look)
    (steadyToo : two.Steady other) (n : Nat)
    (agree : ∀ name ∈ lookups (first.turns one n).journal, look name = other name) :
    (first.turns one n).Alike (second.turns two n) := by
  induction n generalizing first second with
  | zero => exact .continued alike
  | succ n ih =>
    have step := alike.turn steady steadyToo fun name mem =>
      agree name ((prefix_lookups_turns one first n).subset mem)
    rw [Progress.turns] at agree ⊢
    rw [Progress.turns]
    cases taken : first.turn one with
    | ended expansion =>
      rw [taken] at step
      generalize second.turn two = takenToo at step ⊢
      cases step with
      | ended same => exact .ended same
    | continued next =>
      rw [taken] at step agree
      generalize second.turn two = takenToo at step ⊢
      cases step with
      | continued alike => exact ih alike agree

end Progress

section

variable {one two : Responder} {look other : Look} {t : Text} {key : Option Text} {busy : Names}

theorem expandWithin_alike (steady : one.Steady look) (steadyToo : two.Steady other) {n : Nat}
    (agree : ∀ name ∈ lookups (expandWithin one n t key busy).journal, look name = other name) :
    (expandWithin two n t key busy).result? = (expandWithin one n t key busy).result? ∧
      lookups (expandWithin two n t key busy).journal =
        lookups (expandWithin one n t key busy).journal := by
  have start : (Progress.start t key busy).Alike (Progress.start t key busy) :=
    ⟨rfl, rfl, answered_nil, answered_nil, rfl⟩
  rw [journal_expandWithin] at agree
  have alike := start.turns steady steadyToo n agree
  rw [journal_expandWithin, journal_expandWithin, result?_expandWithin, result?_expandWithin]
  exact ⟨alike.result?.symm, alike.looked.symm⟩

theorem expandWith_alike (steady : one.Steady look) (steadyToo : two.Steady other)
    (finite : one.Finite) (finiteToo : two.Finite)
    (agree : ∀ name ∈ lookups (expandWith one finite t key busy).journal,
      look name = other name) :
    (expandWith two finiteToo t key busy).result = (expandWith one finite t key busy).result ∧
      lookups (expandWith two finiteToo t key busy).journal =
        lookups (expandWith one finite t key busy).journal := by
  obtain ⟨n, ended⟩ := exists_expandWithin_eq one finite t key busy
  have agreed : ∀ name ∈ lookups (expandWithin one n t key busy).journal,
      look name = other name := by
    rw [ended]
    exact agree
  obtain ⟨result, looked⟩ := expandWithin_alike steady steadyToo agreed
  rw [ended] at result looked
  cases taken : expandWithin two n t key busy with
  | ended expansion =>
    rw [taken] at result looked
    rw [expandWith_of_within finiteToo taken]
    exact ⟨Option.some.inj result, looked⟩
  | continued progress =>
    rw [taken] at result
    cases result

end

/-- Over two pairs of sources that agree on the names looked up over the first, a text expands to
the same, after the same lookups. -/
theorem expand_alike {first second : Sources} {t : Text} {key : Option Text} {busy : Names}
    (agree : ∀ name ∈ lookups (expand first t key busy).journal,
      first.lookup name = second.lookup name) :
    (expand second t key busy).result = (expand first t key busy).result ∧
      lookups (expand second t key busy).journal = lookups (expand first t key busy).journal :=
  expandWith_alike first.responder_steady second.responder_steady _ _ agree

section

variable {sources : Sources} {name value : Text}

theorem expandEach_of_error {fault : Fault}
    (failed : (expand sources value (some name) []).result = .error fault)
    (rest : List (Text × Text)) :
    expandEach sources ((name, value) :: rest) =
      ⟨.error fault, (expand sources value (some name) []).journal⟩ := by
  simp only [expandEach, failed]

theorem expandEach_of_ok {final : Text}
    (expanded : (expand sources value (some name) []).result = .ok final)
    (rest : List (Text × Text)) :
    expandEach sources ((name, value) :: rest) =
      ⟨(expandEach sources rest).result.map ((name, final) :: ·),
        (expand sources value (some name) []).journal ++ (expandEach sources rest).journal⟩ := by
  simp only [expandEach, expanded]

end

/-- So do several values, one after the other. -/
theorem expandEach_alike {first second : Sources} {entries : List (Text × Text)}
    (agree : ∀ name ∈ lookups (expandEach first entries).journal,
      first.lookup name = second.lookup name) :
    (expandEach second entries).result = (expandEach first entries).result ∧
      lookups (expandEach second entries).journal =
        lookups (expandEach first entries).journal := by
  induction entries with
  | nil => exact ⟨rfl, rfl⟩
  | cons entry rest ih =>
    obtain ⟨name, value⟩ := entry
    cases expanded : (expand first value (some name) []).result with
    | error fault =>
      rw [expandEach_of_error expanded] at agree ⊢
      obtain ⟨result, looked⟩ := expand_alike agree
      rw [expandEach_of_error (result.trans expanded)]
      exact ⟨rfl, looked⟩
    | ok final =>
      rw [expandEach_of_ok expanded] at agree ⊢
      rw [lookups_append (answered_of_expand expanded)] at agree ⊢
      obtain ⟨here, later⟩ := List.forall_mem_append.1 agree
      obtain ⟨result, looked⟩ := expand_alike here
      obtain ⟨others, lookedLater⟩ := ih later
      have expandedToo := result.trans expanded
      rw [expandEach_of_ok expandedToo, lookups_append (answered_of_expand expandedToo), others,
        looked, lookedLater]
      exact ⟨rfl, rfl⟩

end PropertyToolkit.Substitution
