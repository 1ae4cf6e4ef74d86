import PropertyToolkit.Proofs.Pattern.Search

/-!
The language of wildcard patterns. A pattern stands for the texts that it gives when each of its
stars is replaced by any text. Matching takes the tail behind the last star for an ending of its
own: it accepts the texts that the pattern without the tail stands for, if they end with the tail.
-/

set_option autoImplicit false

namespace PropertyToolkit.Pattern

/-- The texts that come of a pattern when each star is replaced by any text. -/
inductive Glob : Text → Text → Prop
  | nil : Glob [] []
  | star (filling : Text) {pattern t : Text} (rest : Glob pattern t) :
    Glob (star :: pattern) (filling ++ t)
  | literal {c : CodePoint} (plain : c ≠ Pattern.star) {pattern t : Text} (rest : Glob pattern t) :
    Glob (c :: pattern) (c :: t)

theorem glob_nil_iff {t : Text} : Glob [] t ↔ t = [] := by
  constructor
  · intro glob
    cases glob
    rfl
  · rintro rfl
    exact .nil

theorem glob_star_iff {pattern t : Text} :
    Glob (star :: pattern) t ↔ ∃ filling rest, t = filling ++ rest ∧ Glob pattern rest := by
  constructor
  · intro glob
    cases glob with
    | star filling rest => exact ⟨filling, _, rfl, rest⟩
    | literal plain rest => exact absurd rfl plain
  · rintro ⟨filling, rest, rfl, glob⟩
    exact .star filling glob

theorem glob_literal_iff {c : CodePoint} (plain : c ≠ star) {pattern t : Text} :
    Glob (c :: pattern) t ↔ ∃ rest, t = c :: rest ∧ Glob pattern rest := by
  constructor
  · intro glob
    cases glob with
    | star filling rest => exact absurd rfl plain
    | literal _ rest => exact ⟨_, rfl, rest⟩
  · rintro ⟨rest, rfl, glob⟩
    exact .literal plain glob

/-- A star alone stands for every text. -/
theorem glob_single_star (t : Text) : Glob [star] t :=
  glob_star_iff.2 ⟨t, [], (List.append_nil t).symm, .nil⟩

/-- A text without a star stands for itself. -/
theorem glob_iff_eq_of_not_mem {pattern : Text} (plain : star ∉ pattern) {t : Text} :
    Glob pattern t ↔ t = pattern := by
  induction pattern generalizing t with
  | nil => exact glob_nil_iff
  | cons c pattern ih =>
    rw [List.mem_cons, not_or] at plain
    rw [glob_literal_iff (Ne.symm plain.1)]
    constructor
    · rintro ⟨rest, rfl, glob⟩
      rw [(ih plain.2).1 glob]
    · rintro rfl
      exact ⟨pattern, rfl, (ih plain.2).2 rfl⟩

/-- The texts of a joined pattern are the joined texts of its parts. -/
theorem glob_append_iff {front back t : Text} :
    Glob (front ++ back) t ↔ ∃ first second, t = first ++ second ∧ Glob front first ∧
      Glob back second := by
  constructor
  · intro glob
    induction front generalizing t with
    | nil => exact ⟨[], t, rfl, .nil, glob⟩
    | cons c front ih =>
      rw [List.cons_append] at glob
      by_cases starred : c = star
      · rw [starred] at glob ⊢
        obtain ⟨filling, rest, rfl, later⟩ := glob_star_iff.1 glob
        obtain ⟨first, second, rfl, front, back⟩ := ih later
        exact ⟨filling ++ first, second, (List.append_assoc _ _ _).symm, .star filling front, back⟩
      · obtain ⟨rest, rfl, later⟩ := (glob_literal_iff starred).1 glob
        obtain ⟨first, second, rfl, front, back⟩ := ih later
        exact ⟨c :: first, second, rfl, .literal starred front, back⟩
  · rintro ⟨first, second, rfl, front, back⟩
    induction front with
    | nil => exact back
    | star filling _ ih =>
      rw [List.append_assoc]
      exact .star filling ih
    | literal plain _ ih => exact .literal plain ih

/-- A pattern that ends with a star stands for the texts that start with the first of its pieces and
hold the others in order after it. -/
theorem glob_append_star_iff {front first : Text} {interior : List Text}
    (pieces : Text.splitOn front star = first :: interior) {t : Text} :
    Glob (front ++ [star]) t ↔ ∃ rest, t = first ++ rest ∧ InOrder interior rest := by
  induction front generalizing first interior t with
  | nil =>
    cases pieces
    exact ⟨fun _ => ⟨t, rfl, .nil t⟩, fun _ => glob_single_star t⟩
  | cons c front ih =>
    obtain ⟨piece, others, split⟩ := List.exists_cons_of_ne_nil (Text.splitOn_ne_nil front star)
    have later (rest : Text) := ih split (t := rest)
    rw [List.cons_append]
    by_cases starred : c = star
    · rw [starred, Text.splitOn_cons_mark, split] at pieces
      cases pieces
      rw [starred, glob_star_iff]
      constructor
      · rintro ⟨gap, _, rfl, glob⟩
        obtain ⟨rest, rfl, inOrder⟩ := (later _).1 glob
        exact ⟨_, rfl, .cons gap piece inOrder⟩
      · rintro ⟨_, rfl, found⟩
        obtain ⟨gap, after, rfl, inOrder⟩ := inOrder_cons_iff.1 found
        exact ⟨gap, _, rfl, (later _).2 ⟨after, rfl, inOrder⟩⟩
    · rw [Text.splitOn_cons_of_ne starred split] at pieces
      cases pieces
      rw [glob_literal_iff starred]
      constructor
      · rintro ⟨_, rfl, glob⟩
        obtain ⟨rest, rfl, inOrder⟩ := (later _).1 glob
        exact ⟨rest, rfl, inOrder⟩
      · rintro ⟨rest, rfl, inOrder⟩
        exact ⟨_, rfl, (later _).2 ⟨rest, rfl, inOrder⟩⟩

/-- A pattern without neighbouring stars compiles to its pieces. -/
theorem exists_compile_eq_ok {pattern : Text} (spaced : ¬[star, star] <:+: pattern) :
    ∃ compiled, compile pattern = .ok compiled ∧ compiled.segments = Text.splitOn pattern star := by
  have absent : pattern.cutFirst? [star, star] = none := (Text.cutFirst?_eq_none_iff _ _).2 spaced
  refine ⟨⟨Text.splitOn pattern star, pattern.head? = some star, pattern.getLast? = some star⟩, ?_,
    rfl⟩
  rw [compile, absent]
  rfl

/-- A pattern with neighbouring stars is refused as it stands. -/
theorem compile_of_doubled {pattern : Text} (doubled : [star, star] <:+: pattern) :
    compile pattern = .error ⟨pattern⟩ := by
  have found : (pattern.cutFirst? [star, star]).isSome := by
    rw [Option.isSome_iff_ne_none]
    exact fun absent => (Text.cutFirst?_eq_none_iff _ _).1 absent doubled
  rw [compile, if_pos found]

/-- What a pattern with a star accepts. Let `tail` be what stands behind its last star, and `front`
what stands before that. It compiles, and accepts the texts that `front` with a star stands for and
that end with `tail`; so it accepts all that it stands for, and nothing else if it ends with a
star. -/
theorem accepts_iff_glob (front tail : Text) (last : star ∉ tail)
    (spaced : ¬[star, star] <:+: front ++ star :: tail) :
    ∃ compiled, compile (front ++ star :: tail) = .ok compiled ∧
      (∀ subject, compiled.accepts subject = true ↔
        Glob (front ++ [star]) subject ∧ tail <:+ subject) ∧
      (∀ subject, Glob (front ++ star :: tail) subject → compiled.accepts subject = true) ∧
      (tail = [] → ∀ subject, compiled.accepts subject = true ↔
        Glob (front ++ star :: tail) subject) := by
  obtain ⟨compiled, compiles, segments⟩ := exists_compile_eq_ok spaced
  obtain ⟨first, interior, pieces⟩ := List.exists_cons_of_ne_nil (Text.splitOn_ne_nil front star)
  have exact (subject : Text) : compiled.accepts subject = true ↔
      Glob (front ++ [star]) subject ∧ tail <:+ subject := by
    rw [accepts, segments, Text.splitOn_append_cons, pieces, Text.splitOn_of_not_mem last,
      List.cons_append, matchesSegments_iff, glob_append_star_iff pieces]
  refine ⟨compiled, compiles, exact, ?_, ?_⟩
  · intro subject glob
    rw [exact]
    obtain ⟨start, rest, rfl, before, after⟩ := glob_append_iff.1 glob
    obtain ⟨filling, ending, rfl, same⟩ := glob_star_iff.1 after
    rw [(glob_iff_eq_of_not_mem last).1 same]
    refine ⟨glob_append_iff.2 ⟨start, filling ++ tail, rfl, before, glob_single_star _⟩, ?_⟩
    exact ⟨start ++ filling, List.append_assoc _ _ _⟩
  · rintro rfl subject
    rw [exact]
    exact and_iff_left (List.nil_suffix)

/-- The tail may overlap what the pieces before it hold: one letter serves for two. Without a tail
there is nothing to overlap. -/
theorem accepts_iff_glob_overlap :
    ((star ∉ ("n" : Text) ∧ ¬[star, star] <:+: ("Jo*n" : Text) ++ star :: "n") ∧
      (Glob (("Jo*n" : Text) ++ [star]) "Jon" ∧ ("n" : Text) <:+ "Jon") ∧
      ∃ compiled, compile (("Jo*n" : Text) ++ star :: "n") = .ok compiled ∧
        compiled.accepts "Jon" = true) ∧
    ∃ compiled, compile (("Jo*n" : Text) ++ [star]) = .ok compiled ∧
      (compiled.accepts "Jon" = true ↔ Glob (("Jo*n" : Text) ++ [star]) "Jon") := by
  have last : star ∉ ("n" : Text) := by decide
  have spaced : ¬[star, star] <:+: ("Jo*n" : Text) ++ star :: "n" := by decide
  have glob : Glob (("Jo*n" : Text) ++ [star]) "Jon" :=
    .literal (by decide) (.literal (by decide) (.star [] (.literal (by decide) (.star [] .nil))))
  have suffix : ("n" : Text) <:+ "Jon" := by decide
  constructor
  · obtain ⟨compiled, compiles, exact, -⟩ := accepts_iff_glob "Jo*n" "n" last spaced
    exact ⟨⟨last, spaced⟩, ⟨glob, suffix⟩, compiled, compiles, (exact "Jon").2 ⟨glob, suffix⟩⟩
  · obtain ⟨compiled, compiles, -, -, untailed⟩ :=
      accepts_iff_glob "Jo*n" [] (by decide) (by decide)
    exact ⟨compiled, compiles, untailed rfl "Jon"⟩

end PropertyToolkit.Pattern
