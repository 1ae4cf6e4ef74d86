import PropertyToolkit.Proofs.Text.Cut
import PropertyToolkit.Substitution.Scan

/-!
What a scan finds, said without cutting. A text is settled exactly when it has no closing brace;
the placeholder that is found is the one whose name has no opening and no closing brace in it, with
no closing brace before it either. There is only one such place, so it may be stated from outside:
whatever stands around a placeholder, the scan still finds it.
-/

set_option autoImplicit false

namespace PropertyToolkit.Substitution

/-- The code point that closes a placeholder. -/
def closer : CodePoint := '\x7d'

theorem opening_eq : opening = [CodePoint.ofChar '$', CodePoint.ofChar '\x7b'] := rfl

theorem closing_eq : closing = [closer] := rfl

/-- The name of a placeholder that has no other placeholder within. -/
structure Innermost (name : Text) : Prop where
  unclosed : closer ∉ name
  unopened : ¬opening <:+: name

theorem scan_eq_settled_iff (t : Text) : scan t = .settled ↔ closer ∉ t := by
  rw [← Text.cutFirst?_singleton_eq_none_iff, ← closing_eq]
  unfold scan
  split
  · next absent => simp [absent]
  · next head after found =>
    constructor
    · intro h
      split at h <;> cases h
    · intro absent
      rw [absent] at found
      cases found

/-- A second opening never begins within the first one. -/
theorem not_infix_opening_overlap {name : Text} (unopened : ¬opening <:+: name) :
    ¬opening <:+: CodePoint.ofChar '\x7b' :: name := by
  intro again
  rcases List.infix_cons_iff.1 again with ⟨rest, here⟩ | later
  · have first : CodePoint.ofChar '$' = CodePoint.ofChar '\x7b' := (List.cons.inj here).1
    exact absurd first (by decide)
  · exact unopened later

/-- The scan finds the innermost placeholder in any surroundings. -/
theorem scan_eq_placeholder {before name : Text} (unclosed : closer ∉ before)
    (innermost : Innermost name) (after : Text) :
    scan (before ++ (opening ++ (name ++ (closing ++ after)))) =
      .placeholder before name after := by
  have head : closer ∉ before ++ (opening ++ name) := by
    simp only [List.mem_append, not_or]
    exact ⟨unclosed, by decide, innermost.unclosed⟩
  have outer : (before ++ (opening ++ (name ++ (closing ++ after)))).cutFirst? closing =
      some (before ++ (opening ++ name), after) := by
    have cut := Text.cutFirst?_singleton_append head after
    simpa only [closing_eq, List.append_assoc] using cut
  have inner : (before ++ (opening ++ name)).cutLast? opening = some (before, name) :=
    Text.cutLast?_append (not_infix_opening_overlap innermost.unopened)
  unfold scan
  simp only [outer, inner]

theorem innermost_of_scan {t before name after : Text}
    (h : scan t = .placeholder before name after) : closer ∉ before ∧ Innermost name := by
  unfold scan at h
  split at h
  · cases h
  · next head rest outer =>
    split at h
    · cases h
    · next start inner found =>
      cases h
      have absent := Text.not_mem_of_cutFirst?_singleton outer
      have unopened := Text.not_infix_of_cutLast? (by decide) found
      rw [Text.eq_of_cutLast? found] at absent
      simp only [List.mem_append, not_or] at absent
      exact ⟨absent.1, absent.2.2, unopened⟩

end PropertyToolkit.Substitution
