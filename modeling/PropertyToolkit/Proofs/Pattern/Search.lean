import PropertyToolkit.Pattern
import PropertyToolkit.Proofs.Text.Cut

/-!
What the search for segments finds. Segments are in order in a text if they occur one after the
other, without overlap. The search takes the first occurrence of each segment; this leaves the most
room for the segments after it, so the search succeeds wherever the segments are in order at all.
-/

set_option autoImplicit false

namespace PropertyToolkit.Pattern

/-- The segments occur in a text one after the other, with any gaps before and after them. -/
inductive InOrder : List Text → Text → Prop
  | nil (t : Text) : InOrder [] t
  | cons (gap segment : Text) {segments : List Text} {after : Text}
      (rest : InOrder segments after) :
    InOrder (segment :: segments) (gap ++ (segment ++ after))

theorem inOrder_cons_iff {segment : Text} {segments : List Text} {t : Text} :
    InOrder (segment :: segments) t ↔
      ∃ gap after, t = gap ++ (segment ++ after) ∧ InOrder segments after := by
  constructor
  · intro inOrder
    cases inOrder with
    | cons gap _ rest => exact ⟨gap, _, rfl, rest⟩
  · rintro ⟨gap, after, rfl, rest⟩
    exact .cons gap segment rest

/-- More room at the front does no harm. -/
theorem InOrder.of_suffix {segments : List Text} {t whole : Text} (inOrder : InOrder segments t)
    (suffix : t <:+ whole) : InOrder segments whole := by
  obtain ⟨skipped, rfl⟩ := suffix
  cases inOrder with
  | nil => exact .nil _
  | cons gap segment rest =>
    rw [← List.append_assoc]
    exact .cons (skipped ++ gap) segment rest

/-- If the segments are in order at all, they are so from the first occurrence of the first one. -/
theorem inOrder_cons_iff_cutFirst? {segment : Text} {segments : List Text} {t : Text} :
    InOrder (segment :: segments) t ↔
      ∃ before after, t.cutFirst? segment = some (before, after) ∧ InOrder segments after := by
  rw [inOrder_cons_iff]
  constructor
  · rintro ⟨gap, after, rfl, inOrder⟩
    obtain ⟨before, rest, cut, longest⟩ := Text.exists_cutFirst?_of_append gap segment after
    exact ⟨before, rest, cut, inOrder.of_suffix longest⟩
  · rintro ⟨before, after, cut, inOrder⟩
    exact ⟨before, after, Text.eq_of_cutFirst? cut, inOrder⟩

/-- A turn of the search, for a segment that is not the last. -/
theorem matchesRest_cons (subject segment : Text) {segments : List Text} (more : segments ≠ [])
    (rest : Text) :
    matchesRest subject (segment :: segments) rest =
      match rest.cutFirst? segment with
      | none => false
      | some (_, after) => matchesRest subject segments after := by
  cases segments with
  | nil => exact absurd rfl more
  | cons next others => rfl

theorem matchesRest_iff (subject : Text) (interior : List Text) (last rest : Text) :
    matchesRest subject (interior ++ [last]) rest = true ↔
      InOrder interior rest ∧ last <:+ subject := by
  induction interior generalizing rest with
  | nil =>
    have ending : matchesRest subject [last] rest = last.isSuffixOf subject := rfl
    rw [List.nil_append, ending, List.isSuffixOf_iff_suffix]
    exact (and_iff_right (InOrder.nil rest)).symm
  | cons segment interior ih =>
    have more : interior ++ [last] ≠ [] :=
      List.append_ne_nil_of_right_ne_nil _ (List.cons_ne_nil _ _)
    rw [List.cons_append, matchesRest_cons subject segment more, inOrder_cons_iff_cutFirst?]
    cases cut : rest.cutFirst? segment with
    | none => simp
    | some parts =>
      have turn := ih parts.2
      simp only [Option.some.injEq]
      constructor
      · intro found
        obtain ⟨inOrder, suffix⟩ := turn.1 found
        exact ⟨⟨parts.1, parts.2, rfl, inOrder⟩, suffix⟩
      · rintro ⟨⟨before, after, same, inOrder⟩, suffix⟩
        rw [same] at turn ⊢
        exact turn.2 ⟨inOrder, suffix⟩

/-- Two segments or more match a subject that starts with the first, holds the inner ones in order
after it and ends with the last, which may overlap the others. -/
theorem matchesSegments_iff (first : Text) (interior : List Text) (last subject : Text) :
    matchesSegments (first :: (interior ++ [last])) subject = true ↔
      (∃ rest, subject = first ++ rest ∧ InOrder interior rest) ∧ last <:+ subject := by
  have more : interior ++ [last] ≠ [] :=
    List.append_ne_nil_of_right_ne_nil _ (List.cons_ne_nil _ _)
  have start : matchesSegments (first :: (interior ++ [last])) subject =
      (first.isPrefixOf? subject).any (matchesRest subject (interior ++ [last])) := by
    cases segments : interior ++ [last] with
    | nil => exact absurd segments more
    | cons next others =>
      rw [matchesSegments]
      · cases first.isPrefixOf? subject <;> rfl
      · exact List.cons_ne_nil _ _
  rw [start]
  cases found : first.isPrefixOf? subject with
  | none =>
    have absent : ¬∃ rest, subject = first ++ rest ∧ InOrder interior rest := by
      rintro ⟨rest, rfl, -⟩
      rw [Text.isPrefixOf?_append] at found
      cases found
    simp [absent]
  | some rest =>
    have split : subject = first ++ rest := Text.isPrefixOf?_eq_some found
    have same (other : Text) (again : subject = first ++ other) : other = rest :=
      List.append_cancel_left (again.symm.trans split)
    rw [Option.any_some, matchesRest_iff]
    constructor
    · rintro ⟨inOrder, suffix⟩
      exact ⟨⟨rest, split, inOrder⟩, suffix⟩
    · rintro ⟨⟨other, again, inOrder⟩, suffix⟩
      exact ⟨same other again ▸ inOrder, suffix⟩

end PropertyToolkit.Pattern
