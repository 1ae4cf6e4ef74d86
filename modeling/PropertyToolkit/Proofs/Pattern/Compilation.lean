import PropertyToolkit.Proofs.Pattern.Glob

/-!
Compiling a pattern in one pass. The pass holds the pieces that are complete and the one that it is
reading; it drops the empty pieces at the ends and puts them back when the text is over. It comes to
the pattern cut at its stars, and the segments with a star between each two of them give the pattern
back.
-/

set_option autoImplicit false

namespace PropertyToolkit.Pattern

/-- What a pass over a pattern holds. -/
structure Pass where
  /-- The pieces that are complete, without the empty ones. -/
  pieces : List Text
  /-- The piece that is being read. -/
  current : Text
  wasStar : Bool
  leadingStar : Bool

namespace Pass

def start : Pass := ⟨[], [], false, false⟩

/-- Reads one more code point, unless it is a second star right after a first one. -/
def read (pass : Pass) (c : CodePoint) : Option Pass :=
  if c = star then
    if pass.wasStar then none
    else
      let pieces := if pass.current = [] then pass.pieces else pass.pieces ++ [pass.current]
      some ⟨pieces, [], true, pass.leadingStar || pieces.isEmpty⟩
  else some { pass with current := pass.current ++ [c], wasStar := false }

/-- The pattern at the end of its text. The outer segments are the text that is wanted at the start
and at the end of a subject, and either may be empty. -/
def finish (pass : Pass) : Pattern :=
  let pieces := if pass.wasStar then pass.pieces else pass.pieces ++ [pass.current]
  let segments :=
    if pass.leadingStar || pass.wasStar || 1 < pieces.length then
      let closed := if pass.wasStar then pieces ++ [[]] else pieces
      if pass.leadingStar then [] :: closed else closed
    else pieces
  ⟨segments, pass.leadingStar, pass.wasStar⟩

end Pass

/-- Compiles a pattern in one pass. -/
def compileInPass (pattern : Text) : Except Fault Pattern :=
  match pattern.foldlM Pass.read Pass.start with
  | none => .error ⟨pattern⟩
  | some pass => .ok pass.finish

namespace Pass

/-- The segments of what has been read. -/
def segments (pass : Pass) : List Text :=
  (if pass.leadingStar then [[]] else []) ++ (pass.pieces ++ [pass.current])

/-- What a pass holds when it has read a text. -/
structure Holds (pass : Pass) (done : Text) : Prop where
  joined : [star].intercalate pass.segments = done
  plain : ∀ segment ∈ pass.segments, star ∉ segment
  filled : [] ∉ pass.pieces
  leading : pass.leadingStar = true ↔ done.head? = some star
  last : pass.wasStar = true ↔ done.getLast? = some star
  spaced : ¬[star, star] <:+: done
  rested : pass.wasStar = true → pass.current = []
  /-- Only at the start and after a star is there nothing in the piece being read. -/
  begun : pass.current = [] → pass = start ∨ pass.wasStar = true

theorem segments_eq_concat (pass : Pass) :
    pass.segments = ((if pass.leadingStar then [[]] else []) ++ pass.pieces) ++ [pass.current] :=
  (List.append_assoc _ _ _).symm

variable {pass next : Pass} {done : Text} {c : CodePoint}

theorem holds_start : start.Holds [] where
  joined := rfl
  plain := by decide
  filled := by decide
  leading := by decide
  last := by decide
  spaced := by decide
  rested _ := rfl
  begun _ := .inl rfl

/-- A pass that has read no text yet holds no text. -/
theorem Holds.current_of_nil (holds : pass.Holds []) : pass.current = [] := by
  have joined := holds.joined
  rw [segments_eq_concat, ← List.nil_append pass.current, Text.intercalate_concat_append] at joined
  exact (List.append_eq_nil_iff.1 joined).2

theorem Holds.read_literal (holds : pass.Holds done) (literal : c ≠ star) :
    ∃ next, pass.read c = some next ∧ next.Holds (done ++ [c]) := by
  have grown : pass.current ++ [c] ≠ [] :=
    List.append_ne_nil_of_right_ne_nil _ (List.cons_ne_nil c [])
  refine ⟨{ pass with current := pass.current ++ [c], wasStar := false }, if_neg literal, ?_⟩
  refine
    { joined := ?joined, plain := ?plain, filled := holds.filled, leading := ?leading,
      last := ?last, spaced := ?spaced, rested := fun rested => absurd rested Bool.false_ne_true,
      begun := fun empty => absurd empty grown }
  case joined =>
    rw [segments_eq_concat]
    dsimp only
    rw [Text.intercalate_concat_append, ← segments_eq_concat, holds.joined]
  case plain =>
    have plain := holds.plain
    rw [segments_eq_concat, List.forall_mem_append, List.forall_mem_singleton] at plain ⊢
    refine ⟨plain.1, ?_⟩
    rw [List.mem_append, List.mem_singleton, not_or]
    exact ⟨plain.2, Ne.symm literal⟩
  case leading =>
    rw [holds.leading]
    cases done with
    | nil => simpa using literal
    | cons first rest => rfl
  case last =>
    rw [List.getLast?_concat, Option.some.injEq]
    exact ⟨fun rested => absurd rested Bool.false_ne_true, fun same => absurd same literal⟩
  case spaced =>
    rw [Text.pair_infix_concat_iff, not_or, not_and]
    exact ⟨fun _ same => literal same.symm, holds.spaced⟩

theorem Holds.read_star (holds : pass.Holds done) (ready : pass.wasStar = false) :
    ∃ next, pass.read star = some next ∧ next.Holds (done ++ [star]) := by
  have unmarked : done.getLast? ≠ some star := fun same => by
    rw [holds.last.2 same] at ready
    cases ready
  have spaced : ¬[star, star] <:+: done ++ [star] := by
    rw [Text.pair_infix_concat_iff, not_or, not_and]
    exact ⟨fun last => absurd last unmarked, holds.spaced⟩
  by_cases empty : pass.current = []
  · -- Nothing has been read, for the piece is empty and there was no star.
    obtain rfl : pass = start := (holds.begun empty).resolve_right (by rw [ready]; decide)
    obtain rfl : [] = done := holds.joined
    refine ⟨⟨[], [], true, true⟩, rfl, ?_⟩
    exact
      { joined := rfl, plain := by decide, filled := by decide, leading := by decide,
        last := by decide, spaced, rested := fun _ => rfl, begun := fun _ => .inr rfl }
  · let next : Pass := ⟨pass.pieces ++ [pass.current], [], true, pass.leadingStar⟩
    have reads : pass.read star = some next := by
      simp [read, ready, empty, next]
    have more : next.segments = pass.segments ++ [[]] := by
      simp only [segments, next, List.append_assoc]
    have filled : pass.segments ≠ [] := by
      rw [segments_eq_concat]
      exact List.concat_ne_nil _ _
    refine ⟨next, reads, ?_⟩
    refine
      { joined := ?joined, plain := ?plain, filled := ?filled, leading := ?leading, last := ?last,
        spaced, rested := fun _ => rfl, begun := fun _ => .inr rfl }
    case joined => rw [more, Text.intercalate_concat _ filled, holds.joined, List.append_nil]
    case plain =>
      rw [more, List.forall_mem_append, List.forall_mem_singleton]
      exact ⟨holds.plain, List.not_mem_nil⟩
    case filled =>
      rw [List.mem_append, List.mem_singleton, not_or]
      exact ⟨holds.filled, fun same => empty same.symm⟩
    case leading =>
      cases done with
      | nil => exact absurd holds.current_of_nil empty
      | cons first rest => exact holds.leading
    case last => simp [next]

/-- Reading on through a text keeps what a pass holds, unless two stars stand next to each other. -/
theorem Holds.run (holds : pass.Holds done) (rest : Text) :
    (∃ last, rest.foldlM read pass = some last ∧ last.Holds (done ++ rest)) ∨
      (rest.foldlM read pass = none ∧ [star, star] <:+: done ++ rest) := by
  induction rest generalizing pass done with
  | nil =>
    rw [List.append_nil]
    exact .inl ⟨pass, rfl, holds⟩
  | cons c rest ih =>
    rw [List.foldlM_cons]
    by_cases doubled : c = star ∧ pass.wasStar = true
    · obtain ⟨rfl, again⟩ := doubled
      obtain ⟨front, rfl⟩ := List.getLast?_eq_some_iff.1 (holds.last.1 again)
      have refused : pass.read star = none := by rw [read, if_pos rfl, if_pos again]
      rw [refused]
      exact .inr ⟨rfl, front, rest, by simp⟩
    · obtain ⟨next, reads, kept⟩ : ∃ next, pass.read c = some next ∧ next.Holds (done ++ [c]) := by
        by_cases marked : c = star
        · subst marked
          exact holds.read_star (Bool.eq_false_iff.2 fun again => doubled ⟨rfl, again⟩)
        · exact holds.read_literal marked
      rw [reads, List.append_cons]
      exact ih kept

/-- A pass ends with the segments that it holds. -/
theorem Holds.finish_eq (holds : pass.Holds done) :
    pass.finish = ⟨pass.segments, pass.leadingStar, pass.wasStar⟩ := by
  cases ending : pass.wasStar with
  | true =>
    have rested := holds.rested ending
    cases leads : pass.leadingStar <;> simp [finish, segments, ending, leads, rested]
  | false => cases leads : pass.leadingStar <;> simp [finish, segments, ending, leads]

theorem Holds.splitOn_eq (holds : pass.Holds done) : Text.splitOn done star = pass.segments := by
  have filled : pass.segments ≠ [] := by
    rw [segments_eq_concat]
    exact List.concat_ne_nil _ _
  rw [Text.splitOn_eq_list_splitOn, ← holds.joined,
    List.splitOn_intercalate star holds.plain filled]

/-- What a pass holds is what the pattern is compiled to. -/
theorem Holds.compile_eq (holds : pass.Holds done) : compile done = .ok pass.finish := by
  have absent : done.cutFirst? [star, star] = none :=
    (Text.cutFirst?_eq_none_iff _ _).2 holds.spaced
  have leading : decide (done.head? = some star) = pass.leadingStar :=
    Bool.eq_iff_iff.2 (decide_eq_true_iff.trans holds.leading.symm)
  have trailing : decide (done.getLast? = some star) = pass.wasStar :=
    Bool.eq_iff_iff.2 (decide_eq_true_iff.trans holds.last.symm)
  rw [compile, absent, holds.finish_eq, ← holds.splitOn_eq, leading, trailing]
  rfl

end Pass

/-- What a compiled pattern keeps of its text. -/
structure Keeps (compiled : Pattern) (pattern : Text) : Prop where
  joined : [star].intercalate compiled.segments = pattern
  plain : ∀ segment ∈ compiled.segments, star ∉ segment
  /-- Only the segments at the two ends may be empty. -/
  filled : ∀ first interior last, compiled.segments = first :: (interior ++ [last]) → [] ∉ interior
  leading : compiled.leadingStar = true ↔ [star] <+: pattern
  trailing : compiled.trailingStar = true ↔ [star] <:+ pattern
  literal : compiled.isLiteral = true ↔ star ∉ pattern

namespace Pass

variable {pass : Pass} {pattern : Text}

theorem Holds.not_mem_interior (holds : pass.Holds pattern) {first last : Text}
    {interior : List Text} (split : pass.segments = first :: (interior ++ [last])) :
    [] ∉ interior := by
  unfold segments at split
  cases leads : pass.leadingStar with
  | true =>
    rw [leads, if_pos rfl, List.singleton_append, List.cons.injEq] at split
    rw [← List.append_inj_left' split.2 rfl]
    exact holds.filled
  | false =>
    rw [leads, if_neg Bool.false_ne_true, List.nil_append, ← List.cons_append] at split
    have pieces := List.append_inj_left' split rfl
    exact fun mem => holds.filled (pieces ▸ List.mem_cons_of_mem first mem)

theorem Holds.isLiteral_iff (holds : pass.Holds pattern) :
    pass.finish.isLiteral = true ↔ star ∉ pattern := by
  rw [holds.finish_eq, isLiteral, Bool.and_eq_true, Bool.not_eq_true', Bool.or_eq_false_iff,
    decide_eq_true_iff]
  constructor
  · rintro ⟨-, single⟩
    obtain ⟨segment, only⟩ : ∃ segment, pass.segments = [segment] :=
      List.length_eq_one_iff.1 single
    have joined := holds.joined
    have plain := holds.plain segment
    rw [only] at joined plain
    rw [← joined, List.intercalate_singleton]
    exact plain (List.mem_singleton_self segment)
  · intro absent
    refine ⟨⟨?_, ?_⟩, ?_⟩
    · exact Bool.eq_false_iff.2 fun leads => absent (List.mem_of_head? (holds.leading.1 leads))
    · exact Bool.eq_false_iff.2 fun trails => absent (List.mem_of_getLast? (holds.last.1 trails))
    · rw [← holds.splitOn_eq, Text.splitOn_of_not_mem absent]
      rfl

theorem Holds.keeps (holds : pass.Holds pattern) : pass.finish.Keeps pattern := by
  have literal := holds.isLiteral_iff
  rw [holds.finish_eq] at literal ⊢
  exact
    { joined := holds.joined
      plain := holds.plain
      filled := fun _ _ _ split => holds.not_mem_interior split
      leading := holds.leading.trans List.singleton_prefix_iff_head?_eq_some.symm
      trailing := holds.last.trans List.singleton_suffix_iff_getLast?_eq_some.symm
      literal }

end Pass

/-- One pass is enough to compile a pattern, and what it comes to keeps the text. -/
theorem compile_cases (pattern : Text) :
    (∃ compiled, compileInPass pattern = .ok compiled ∧ compile pattern = .ok compiled ∧
        compiled.Keeps pattern ∧ ¬[star, star] <:+: pattern) ∨
      (compileInPass pattern = .error ⟨pattern⟩ ∧ compile pattern = .error ⟨pattern⟩ ∧
        [star, star] <:+: pattern) := by
  unfold compileInPass
  rcases Pass.holds_start.run pattern with ⟨last, reads, holds⟩ | ⟨refused, doubled⟩
  · rw [reads]
    exact .inl ⟨last.finish, rfl, holds.compile_eq, holds.keeps, holds.spaced⟩
  · rw [refused]
    exact .inr ⟨rfl, compile_of_doubled doubled, doubled⟩

/-- Compiling refuses just the patterns with neighbouring stars and loses nothing of the others: the
segments with a star between each two of them give the pattern back, so what it is compiled to tells
it from every other one. One pass over the text comes to the same. -/
theorem compile_keeps :
    (∀ pattern, compileInPass pattern = compile pattern) ∧
    (∀ pattern fault, compile pattern = .error fault ↔
      [star, star] <:+: pattern ∧ fault = ⟨pattern⟩) ∧
    (∀ pattern compiled, compile pattern = .ok compiled → compiled.Keeps pattern) ∧
    ∀ first second compiled, compile first = .ok compiled → compile second = .ok compiled →
      first = second := by
  have keeps : ∀ pattern compiled, compile pattern = .ok compiled → compiled.Keeps pattern := by
    intro pattern compiled compiles
    rcases compile_cases pattern with ⟨other, -, same, kept, -⟩ | ⟨-, refused, -⟩
    · rw [compiles, Except.ok.injEq] at same
      exact same ▸ kept
    · rw [compiles] at refused
      cases refused
  refine ⟨fun pattern => ?_, fun pattern fault => ?_, keeps, ?_⟩
  · rcases compile_cases pattern with ⟨_, inPass, whole, -⟩ | ⟨inPass, whole, -⟩
    · rw [inPass, whole]
    · rw [inPass, whole]
  · rcases compile_cases pattern with ⟨_, -, compiles, -, spaced⟩ | ⟨-, refused, doubled⟩
    · rw [compiles]
      exact ⟨fun same => (nomatch same), fun ⟨doubled, _⟩ => absurd doubled spaced⟩
    · rw [refused, Except.error.injEq]
      exact ⟨fun same => ⟨doubled, same.symm⟩, fun ⟨_, same⟩ => same.symm⟩
  · intro first second compiled compiles compilesToo
    exact (keeps first compiled compiles).joined.symm.trans
      (keeps second compiled compilesToo).joined

/-- A pattern with stars at both ends and one between has empty outer segments. -/
theorem compile_keeps_between :
    compile "*Jo*n*" = .ok ⟨["", "Jo", "n", ""], true, true⟩ ∧
      (⟨["", "Jo", "n", ""], true, true⟩ : Pattern).Keeps "*Jo*n*" ∧
      ∀ other, compile other = .ok ⟨["", "Jo", "n", ""], true, true⟩ → other = "*Jo*n*" := by
  obtain ⟨-, -, keeps, injective⟩ := compile_keeps
  have compiles : compile "*Jo*n*" = .ok ⟨["", "Jo", "n", ""], true, true⟩ := by decide +kernel
  exact ⟨compiles, keeps _ _ compiles, fun other same => injective _ _ _ same compiles⟩

end PropertyToolkit.Pattern
