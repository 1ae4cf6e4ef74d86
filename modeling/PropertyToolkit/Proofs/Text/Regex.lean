import PropertyToolkit.Text.Regex

/-!
The language of a regular expression. What an expression matches is said without the matcher, one
rule for each way in which an expression is built, and the matcher accepts just that.
-/

set_option autoImplicit false

namespace PropertyToolkit.Regex

inductive Matches : Regex → Text → Prop where
  | empty : Matches empty []
  | one {ofClass : CodePoint → Bool} {c : CodePoint} (inside : ofClass c = true) :
    Matches (one ofClass) [c]
  | first {r s : Regex} {t : Text} (matched : Matches r t) : Matches (either r s) t
  | second {r s : Regex} {t : Text} (matched : Matches s t) : Matches (either r s) t
  | inTurn {r s : Regex} {t u : Text} (before : Matches r t) (after : Matches s u) :
    Matches (inTurn r s) (t ++ u)
  | stop (r : Regex) : Matches (many r) []
  | again {r : Regex} {t u : Text} (once : Matches r t) (others : Matches (many r) u) :
    Matches (many r) (t ++ u)

variable {r s : Regex} {t : Text} {c : CodePoint}

theorem matches_empty_iff : Matches empty t ↔ t = [] := by
  constructor
  · rintro ⟨⟩
    rfl
  · rintro rfl
    exact .empty

theorem matches_one_iff {ofClass : CodePoint → Bool} :
    Matches (one ofClass) t ↔ ∃ c, ofClass c = true ∧ t = [c] := by
  constructor
  · rintro ⟨⟩
    exact ⟨_, ‹_›, rfl⟩
  · rintro ⟨c, inside, rfl⟩
    exact .one inside

theorem matches_either_iff : Matches (either r s) t ↔ Matches r t ∨ Matches s t := by
  constructor
  · intro matched
    cases matched with
    | first matched => exact .inl matched
    | second matched => exact .inr matched
  · exact fun matched => matched.elim .first .second

theorem matches_inTurn_iff :
    Matches (inTurn r s) t ↔ ∃ u v, t = u ++ v ∧ Matches r u ∧ Matches s v := by
  constructor
  · intro matched
    cases matched with
    | inTurn before after => exact ⟨_, _, rfl, before, after⟩
  · rintro ⟨u, v, rfl, before, after⟩
    exact .inTurn before after

/-! ## Texts that begin with a code point -/

theorem matches_one_cons_iff {ofClass : CodePoint → Bool} :
    Matches (one ofClass) (c :: t) ↔ ofClass c = true ∧ t = [] := by
  rw [matches_one_iff]
  constructor
  · rintro ⟨d, inside, ⟨⟩⟩
    exact ⟨inside, rfl⟩
  · rintro ⟨inside, rfl⟩
    exact ⟨c, inside, rfl⟩

/-- Either the first part begins with the code point, or it is empty and the second one does. -/
theorem matches_inTurn_cons_iff :
    Matches (inTurn r s) (c :: t) ↔
      (∃ u v, t = u ++ v ∧ Matches r (c :: u) ∧ Matches s v) ∨
        Matches r [] ∧ Matches s (c :: t) := by
  rw [matches_inTurn_iff]
  constructor
  · rintro ⟨u, v, whole, before, later⟩
    cases u with
    | nil =>
      rw [List.nil_append] at whole
      exact .inr ⟨before, whole ▸ later⟩
    | cons d u =>
      rw [List.cons_append, List.cons.injEq] at whole
      obtain ⟨rfl, rfl⟩ := whole
      exact .inl ⟨u, v, rfl, before, later⟩
  · rintro (⟨u, v, rfl, before, later⟩ | ⟨none, later⟩)
    · exact ⟨c :: u, v, rfl, before, later⟩
    · exact ⟨[], c :: t, rfl, none, later⟩

/-- A repetition that is not empty begins with a part that is not empty. -/
theorem matches_many_cons_iff :
    Matches (many r) (c :: t) ↔ ∃ u v, t = u ++ v ∧ Matches r (c :: u) ∧ Matches (many r) v := by
  constructor
  · intro matched
    generalize whole : c :: t = text at matched
    generalize repeated : many r = expression at matched
    induction matched with
    | @again _ u v once others _ ih =>
      cases repeated
      cases u with
      | nil => exact ih whole rfl
      | cons d u =>
        rw [List.cons_append, List.cons.injEq] at whole
        obtain ⟨rfl, rfl⟩ := whole
        exact ⟨u, v, rfl, once, others⟩
    | stop => cases whole
    | _ => cases repeated
  · rintro ⟨u, v, rfl, once, others⟩
    exact .again once others

/-! ## The matcher -/

theorem acceptsEmpty_iff (r : Regex) : r.acceptsEmpty = true ↔ Matches r [] := by
  induction r with
  | never => exact iff_of_false nofun nofun
  | empty => exact iff_of_true rfl .empty
  | one ofClass => exact iff_of_false nofun nofun
  | either r s first second =>
    rw [acceptsEmpty, Bool.or_eq_true, first, second, matches_either_iff]
  | inTurn r s first second =>
    rw [acceptsEmpty, Bool.and_eq_true, first, second, matches_inTurn_iff]
    constructor
    · rintro ⟨before, after⟩
      exact ⟨[], [], rfl, before, after⟩
    · rintro ⟨u, v, whole, before, after⟩
      obtain ⟨rfl, rfl⟩ := List.append_eq_nil_iff.1 whole.symm
      exact ⟨before, after⟩
  | many r => exact iff_of_true rfl (.stop r)

/-- The derivative of an expression matches what may follow the code point. -/
theorem matches_after_iff (c : CodePoint) (r : Regex) (t : Text) :
    Matches (after c r) t ↔ Matches r (c :: t) := by
  induction r generalizing t with
  | never => exact iff_of_false nofun nofun
  | empty => exact iff_of_false nofun nofun
  | one ofClass =>
    rw [matches_one_cons_iff, after]
    split
    · next inside => rw [matches_empty_iff, and_iff_right inside]
    · next outside => exact iff_of_false nofun fun both => outside both.1
  | either r s first second =>
    rw [after, matches_either_iff, matches_either_iff, first, second]
  | inTurn r s first second =>
    have rest : Matches (inTurn (after c r) s) t ↔
        ∃ u v, t = u ++ v ∧ Matches r (c :: u) ∧ Matches s v := by
      simp only [matches_inTurn_iff, first]
    rw [matches_inTurn_cons_iff, ← rest, ← acceptsEmpty_iff, after]
    split
    · next skipped => rw [matches_either_iff, second, and_iff_right skipped]
    · next kept => rw [or_iff_left fun both => kept both.1]
  | many r ih =>
    rw [after, matches_many_cons_iff, matches_inTurn_iff]
    simp only [ih]

theorem accepts_iff (r : Regex) (t : Text) : r.accepts t = true ↔ Matches r t := by
  induction t generalizing r with
  | nil => exact acceptsEmpty_iff r
  | cons c rest ih => rw [accepts, ih, matches_after_iff]

/-! ## Common expressions -/

theorem matches_word_iff (u : Text) : Matches (word u) t ↔ t = u := by
  induction u generalizing t with
  | nil => exact matches_empty_iff
  | cons c rest ih =>
    rw [word, matches_inTurn_iff]
    simp only [only, matches_one_iff, ih, decide_eq_true_eq]
    constructor
    · rintro ⟨_, _, rfl, ⟨d, rfl, rfl⟩, rfl⟩
      rfl
    · rintro rfl
      exact ⟨[c], rest, rfl, ⟨c, rfl, rfl⟩, rfl⟩

theorem matches_firstOf_iff (choices : List Regex) :
    Matches (firstOf choices) t ↔ ∃ r ∈ choices, Matches r t := by
  induction choices with
  | nil => exact iff_of_false nofun nofun
  | cons r rest ih =>
    rw [firstOf, List.foldr_cons, ← firstOf, matches_either_iff, ih]
    simp only [List.mem_cons, exists_eq_or_imp]

end PropertyToolkit.Regex
