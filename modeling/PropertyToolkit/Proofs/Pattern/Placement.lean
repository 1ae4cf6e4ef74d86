import PropertyToolkit.Proofs.Pattern.Search

/-!
Matching in terms of positions. The search takes each segment at its first occurrence after the one
before; it finds all of them exactly when they can be placed in the subject at all, each at or after
the end of the one before it. The first segment and the last stand at the ends of the subject.
-/

set_option autoImplicit false

namespace PropertyToolkit.Pattern

/-- A segment stands in a subject from a position on. -/
def StandsAt (segment subject : Text) (position : Nat) : Prop :=
  ∃ before after, subject = before ++ (segment ++ after) ∧ before.length = position

/-- Positions of segments in a subject. The first one stands at `start` or later, and every other
one where the one before it ends or later. -/
structure Placement (subject : Text) (start : Nat) (segments : List Text) where
  position : Nat → Nat
  first : 0 < segments.length → start ≤ position 0
  next : ∀ j (more : j + 1 < segments.length), position j + segments[j].length ≤ position (j + 1)
  stands : ∀ j (inside : j < segments.length), StandsAt segments[j] subject (position j)

namespace Placement

variable {subject segment : Text} {start position : Nat} {segments : List Text}

def nil (subject : Text) (start : Nat) : Placement subject start [] where
  position _ := start
  first filled := absurd filled (Nat.lt_irrefl 0)
  next _ more := absurd more (Nat.not_lt_zero _)
  stands _ inside := absurd inside (Nat.not_lt_zero _)

/-- Places one more segment in front of the others. -/
def cons (late : start ≤ position) (here : StandsAt segment subject position)
    (rest : Placement subject (position + segment.length) segments) :
    Placement subject start (segment :: segments) where
  position
    | 0 => position
    | j + 1 => rest.position j
  first _ := late
  next
    | 0, more => rest.first (Nat.lt_of_succ_lt_succ more)
    | j + 1, more => rest.next j (Nat.lt_of_succ_lt_succ more)
  stands
    | 0, _ => here
    | j + 1, inside => rest.stands j (Nat.lt_of_succ_lt_succ inside)

/-- The places of all segments but the first. -/
def tail (placement : Placement subject start (segment :: segments)) :
    Placement subject (placement.position 0 + segment.length) segments where
  position j := placement.position (j + 1)
  first filled := placement.next 0 (Nat.succ_lt_succ filled)
  next j more := placement.next (j + 1) (Nat.succ_lt_succ more)
  stands j inside := placement.stands (j + 1) (Nat.succ_lt_succ inside)

end Placement

/-- Segments are in order in a text exactly when they have places there. -/
theorem inOrder_iff_placement (before rest : Text) (segments : List Text) :
    InOrder segments rest ↔ Nonempty (Placement (before ++ rest) before.length segments) := by
  induction segments generalizing before rest with
  | nil => exact ⟨fun _ => ⟨.nil _ _⟩, fun _ => .nil rest⟩
  | cons segment segments ih =>
    rw [inOrder_cons_iff]
    constructor
    · rintro ⟨gap, after, rfl, inOrder⟩
      obtain ⟨others⟩ := (ih (before ++ gap ++ segment) after).1 inOrder
      rw [List.length_append, List.append_assoc, List.append_assoc] at others
      have late : before.length ≤ (before ++ gap).length := by
        rw [List.length_append]
        exact Nat.le_add_right _ _
      exact ⟨others.cons late ⟨before ++ gap, after, (List.append_assoc _ _ _).symm, rfl⟩⟩
    · rintro ⟨placement⟩
      have late := placement.first (Nat.succ_pos _)
      have others := placement.tail
      obtain ⟨head, after, split, reached⟩ := placement.stands 0 (Nat.succ_pos _)
      rw [List.getElem_cons_zero] at split
      rw [← reached] at late others
      -- What stands before the segment starts with the text that was passed before.
      obtain ⟨gap, rfl⟩ : before <+: head :=
        List.prefix_of_prefix_length_le ⟨rest, rfl⟩ ⟨segment ++ after, split.symm⟩ late
      have left : rest = gap ++ (segment ++ after) := by
        rw [List.append_assoc] at split
        exact List.append_cancel_left split
      refine ⟨gap, after, left, (ih (before ++ gap ++ segment) after).2 ?_⟩
      rw [List.length_append, List.append_assoc _ segment, ← split]
      exact ⟨others⟩

/-- When segments match. None at all match every subject, and a single one has to be both its start
and its end. Two or more match a subject that starts with the first and ends with the last, if there
are places for the inner ones that do not overlap and lie behind the first. -/
theorem matchesSegments_iff_placement (subject : Text) :
    matchesSegments [] subject = true ∧
    (∀ segment, matchesSegments [segment] subject = true ↔
      segment <+: subject ∧ segment <:+ subject) ∧
    ∀ first interior last, matchesSegments (first :: (interior ++ [last])) subject = true ↔
      first <+: subject ∧ last <:+ subject ∧
        Nonempty (Placement subject first.length interior) := by
  refine ⟨rfl, fun segment => ?_, fun first interior last => ?_⟩
  · rw [matchesSegments, Bool.and_eq_true, List.isPrefixOf_iff_prefix,
      List.isSuffixOf_iff_suffix]
  · rw [matchesSegments_iff]
    constructor
    · rintro ⟨⟨rest, rfl, inOrder⟩, suffix⟩
      exact ⟨⟨rest, rfl⟩, suffix, (inOrder_iff_placement first rest interior).1 inOrder⟩
    · rintro ⟨⟨rest, rfl⟩, suffix, placed⟩
      exact ⟨⟨rest, rfl, (inOrder_iff_placement first rest interior).2 placed⟩, suffix⟩

end PropertyToolkit.Pattern
