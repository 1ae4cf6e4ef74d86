import PropertyToolkit.Proofs.Substitution.Evaluation

/-!
Expanding two texts side by side. A text makes the same moves inside a wider one, as long as nothing
before it closes a placeholder; and it fails there as it does alone, as long as nothing before it
can open one either. So a text that has settled stands still while the text after it is expanded.
-/

set_option autoImplicit false

namespace PropertyToolkit.Substitution

open Marked

/-- Text that has no part in any placeholder after it. -/
structure Inert (t : Text) : Prop where
  unclosed : closer ∉ t
  unopened : ¬opening <:+: t
  ended : t.getLast? ≠ some '$'

theorem inert_nil : Inert [] where
  unclosed := List.not_mem_nil
  unopened := by decide
  ended := fun same => by cases same

/-- No opening begins in an inert text and ends after it. -/
theorem Inert.not_infix_append {before t : Text} (inert : Inert before)
    (unopened : ¬opening <:+: t) : ¬opening <:+: before ++ t := by
  intro found
  rcases List.infix_append_iff.1 found with left | right | ⟨head, tail, split, suffix, start⟩
  · exact inert.unopened left
  · exact unopened right
  · -- The opening has two code points, so it falls apart in three ways.
    have spelled : opening = [CodePoint.ofChar '$', CodePoint.ofChar '\x7b'] := rfl
    rw [spelled] at split
    rcases List.cons_eq_append_iff.1 split with ⟨rfl, rfl⟩ | ⟨rest, rfl, later⟩
    · exact unopened start.isInfix
    · rcases List.cons_eq_append_iff.1 later with ⟨rfl, -⟩ | ⟨more, rfl, empty⟩
      · apply inert.ended
        obtain ⟨front, rfl⟩ := suffix
        exact List.getLast?_concat
      · obtain ⟨rfl, rfl⟩ := List.append_eq_nil_iff.1 empty.symm
        exact inert.unopened suffix.isInfix

theorem scan_eq_unopened_iff (t : Text) :
    scan t = .unopened ↔
      ∃ head after, t = head ++ (closing ++ after) ∧ closer ∉ head ∧ ¬opening <:+: head := by
  unfold scan
  constructor
  · intro found
    split at found
    · cases found
    · next head after cut =>
      split at found
      · next unopened =>
        refine ⟨head, after, Text.eq_of_cutFirst? cut, ?_, ?_⟩
        · exact Text.not_mem_of_cutFirst?_singleton cut
        · exact (Text.cutLast?_eq_none_iff (by decide) head).1 unopened
      · cases found
  · rintro ⟨head, after, rfl, unclosed, unopened⟩
    have cut : (head ++ (closing ++ after)).cutFirst? closing = some (head, after) :=
      Text.cutFirst?_singleton_append unclosed after
    simp only [cut, (Text.cutLast?_eq_none_iff (by decide) head).2 unopened]

/-- An unmatched brace is unmatched in wider surroundings. -/
theorem scan_unopened_within {before t : Text} (inert : Inert before)
    (found : scan t = .unopened) (after : Text) :
    scan (before ++ (t ++ after)) = .unopened := by
  obtain ⟨head, rest, rfl, unclosed, unopened⟩ := (scan_eq_unopened_iff t).1 found
  refine (scan_eq_unopened_iff _).2 ⟨before ++ head, rest ++ after, ?_, ?_, ?_⟩
  · simp only [List.append_assoc]
  · rw [List.mem_append, not_or]
    exact ⟨inert.unclosed, unclosed⟩
  · exact inert.not_infix_append unopened

/-- The same fault, where the text that it shows is another. -/
def Fault.mapText (f : Text → Text) : Fault → Fault
  | unmatched t => unmatched (f t)
  | fault => fault

namespace Marked

variable {look : Look} {busy : Names} {m : Marked}

theorem move_unopened (look : Look) (busy : Names) {m : Marked}
    (found : scan m.text = .unopened) :
    move look busy m = .ended (.error (.unmatched m.text)) := by
  simp only [move, found]

theorem move_replaced_within (before after : Marked) (unclosed : closer ∉ before.text)
    {name : Text} {next : Marked} (step : move look busy m = .replaced name next) :
    move look busy (before ++ (m ++ after)) = .replaced name (before ++ (next ++ after)) := by
  obtain ⟨place, value, rfl, rfl, idle, fresh, found, rfl⟩ := exists_of_move_replaced look busy step
  rw [← place.whole_within before after unclosed, ← place.replacedBy_within before after unclosed]
  exact @move_whole_fresh look busy (place.within before after unclosed) value idle fresh found

/-- A text makes its moves in wider surroundings, too. -/
theorem Reaches.within (before after : Marked) (unclosed : closer ∉ before.text) {last : Marked}
    {names : List Text} (run : Reaches look busy m names last) :
    Reaches look busy (before ++ (m ++ after)) names (before ++ (last ++ after)) := by
  induction run with
  | refl m => exact .refl _
  | move step _ ih => exact .move (move_replaced_within before after unclosed step) ih

/-- A text that fails also fails in wider surroundings, at the same name. -/
theorem move_error_within (before after : Marked) (inert : Inert before.text) {fault : Fault}
    (ended : move look busy m = .ended (.error fault)) :
    let around := fault.mapText fun t => before.text ++ (t ++ after.text)
    move look busy (before ++ (m ++ after)) = .ended (.error around) ∧
      (before ++ (m ++ after)).sought (.error around) = m.sought (.error fault) := by
  cases found : scan m.text with
  | settled =>
    rw [move_settled look busy ((scan_eq_settled_iff _).1 found)] at ended
    cases ended
  | unopened =>
    have reads : (before ++ (m ++ after)).text = before.text ++ (m.text ++ after.text) := by
      rw [text_append, text_append]
    have still := scan_unopened_within inert found after.text
    rw [← reads] at still
    rw [move_unopened look busy found] at ended
    cases ended
    refine ⟨?_, rfl⟩
    rw [move_unopened look busy still, reads]
    rfl
  | placeholder left name right =>
    obtain ⟨place, rfl⟩ := Placeholder.exists_of_scan found
    let wide := place.within before after inert.unclosed
    rw [← place.whole_within before after inert.unclosed]
    rw [move_whole] at ended
    split at ended
    · next known =>
      cases ended
      exact ⟨move_whole_cyclic look wide known, rfl⟩
    · next fresh =>
      split at ended
      · next refusal refused =>
        cases ended
        exact ⟨move_whole_refused wide fresh refused,
          (sought_refused wide refusal).trans (sought_refused place refusal).symm⟩
      · cases ended

theorem Seeks.error_within (before after : Marked) (inert : Inert before.text)
    {names : List Text} {fault : Fault} (run : Seeks look busy m names (.error fault)) :
    Seeks look busy (before ++ (m ++ after)) names
      (.error (fault.mapText fun t => before.text ++ (t ++ after.text))) := by
  obtain ⟨passed, last, moves, ended, rfl⟩ := run
  obtain ⟨endedToo, same⟩ := move_error_within before after inert ended
  exact ⟨passed, _, moves.within before after inert.unclosed, endedToo, by rw [same]⟩

/-- What comes to an end after an inert text comes to the same end without it. -/
theorem Seeks.after (before : Marked) (inert : Inert before.text) {names : List Text}
    {result : Except Fault Text} (run : Seeks look busy m names result) :
    Seeks look busy (before ++ m) names
      ((result.map (before.text ++ ·)).mapError (Fault.mapText (before.text ++ ·))) := by
  cases result with
  | error fault =>
    have within := run.error_within before [] inert
    change Seeks look busy (before ++ m) names (.error (fault.mapText (before.text ++ ·)))
    simpa only [List.append_nil, text_nil] using within
  | ok t =>
    obtain ⟨passed, last, moves, ended, rfl⟩ := run
    obtain ⟨settled, rfl⟩ := settled_of_move_ok look busy ended
    have within := moves.within before [] inert.unclosed
    rw [List.append_nil, List.append_nil] at within
    refine ⟨passed, before ++ last, within, ?_, rfl⟩
    rw [move_settled, text_append]
    · rfl
    · rw [text_append, List.mem_append, not_or]
      exact ⟨inert.unclosed, settled⟩

end Marked

/-- Expanding a text with another one after it: the first one fails as it does alone, or it settles
and, as long as it holds no opening and ends in no half of one, stays as it is while the second one
is expanded. The names that are looked up are those of the first text and then those of the
second. -/
theorem expand_append (sources : Sources) (x y : Text) (key : Option Text) (busy : Names) :
    (∀ fault, (expand sources x key busy).result = .error fault →
      (expand sources (x ++ y) key busy).result = .error (fault.mapText (· ++ y)) ∧
      (expand sources (x ++ y) key busy).journal = (expand sources x key busy).journal) ∧
    ∀ r, (expand sources x key busy).result = .ok r → ¬opening <:+: r → r.getLast? ≠ some '$' →
      (expand sources (x ++ y) key busy).result =
        ((expand sources y key busy).result.map (r ++ ·)).mapError (Fault.mapText (r ++ ·)) ∧
      (expand sources (x ++ y) key busy).journal =
        (expand sources x key busy).journal ++ (expand sources y key busy).journal ∧
      lookups (expand sources (x ++ y) key busy).journal =
        lookups (expand sources x key busy).journal ++
          lookups (expand sources y key busy).journal := by
  obtain ⟨names, first, journal⟩ := expand_seeks sources x key busy
  constructor
  · intro fault failed
    rw [failed] at first
    have both := first.error_within [] (mark y ∅) inert_nil
    rw [List.nil_append, ← mark_append, text_mark] at both
    obtain ⟨result, noted⟩ := expand_of_seeks both
    exact ⟨result, noted.trans journal.symm⟩
  · intro r done unopened ended
    have answered := answered_of_expand done
    obtain ⟨more, second, journalToo⟩ := expand_seeks sources y key busy
    rw [done] at first
    obtain ⟨passed, last, moves, settles, rfl⟩ := first
    obtain ⟨settled, rfl⟩ := settled_of_move_ok _ _ settles
    have inert : Inert last.text := ⟨settled, unopened, ended⟩
    have reached := moves.within [] (mark y ∅) List.not_mem_nil
    rw [List.nil_append, List.nil_append, ← mark_append] at reached
    obtain ⟨result, noted⟩ := expand_of_seeks (reached.seeks (second.after last inert))
    have joined : (expand sources (x ++ y) key busy).journal =
        (expand sources x key busy).journal ++ (expand sources y key busy).journal := by
      rw [noted, journal, journalToo, ← List.flatMap_append, List.append_assoc]
      rfl
    refine ⟨result, joined, ?_⟩
    rw [joined, lookups_append answered]

/-- A text with a stray brace, which shows the text after it too; and a text that settles, so that a
stray brace of the next text shows both. -/
theorem expand_append_pages :
    ((expand ⟨some (.ofTable pages), none⟩ "a\x7d" none []).result =
        .error (.unmatched "a\x7d") ∧
      (expand ⟨some (.ofTable pages), none⟩ ("a\x7d" ++ "$\x7benv\x7d") none []).result =
        .error (.unmatched "a\x7d$\x7benv\x7d")) ∧
    ((expand ⟨some (.ofTable pages), none⟩ "$\x7benv\x7d-" none []).result = .ok "prod-" ∧
      ¬opening <:+: "prod-" ∧ ("prod-" : Text).getLast? ≠ some '$' ∧
      (expand ⟨some (.ofTable pages), none⟩
        ("$\x7benv\x7d-" ++ "$\x7bhost\x7d\x7d") none []).result =
        .error (.unmatched "prod-h\x7d")) := by
  have stray : (expand ⟨some (.ofTable pages), none⟩ "a\x7d" none []).result =
      .error (.unmatched "a\x7d") := result_expand_of_turns 1 (by decide +kernel)
  have settles : (expand ⟨some (.ofTable pages), none⟩ "$\x7benv\x7d-" none []).result =
      .ok "prod-" := result_expand_of_turns 2 (by decide +kernel)
  have strays : (expand ⟨some (.ofTable pages), none⟩ "$\x7bhost\x7d\x7d" none []).result =
      .error (.unmatched "h\x7d") := result_expand_of_turns 2 (by decide +kernel)
  have unopened : ¬opening <:+: "prod-" := by decide
  have ended : ("prod-" : Text).getLast? ≠ some '$' := by decide
  refine ⟨⟨stray, ((expand_append _ _ _ _ _).1 _ stray).1⟩, settles, unopened, ended, ?_⟩
  rw [((expand_append _ _ _ _ _).2 _ settles unopened ended).1, strays]
  rfl

end PropertyToolkit.Substitution
