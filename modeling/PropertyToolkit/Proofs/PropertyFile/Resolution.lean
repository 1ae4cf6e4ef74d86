import PropertyToolkit.Proofs.PropertyFile.Lines

/-!
Escapes as units of a text, and how they are resolved. A text that does not end in the half of an
escape is made of units, which are code points that are no backslash and backslashes with the code
point after them. Resolving takes one turn after the other: an escape by number is several units,
all else is one. So every turn leaves whole units, and a backslash that nothing comes after is never
met: turns lead to the end of the text, or to an escape by number without its digits.
-/

set_option autoImplicit false

namespace PropertyToolkit.PropertyFile

/-! ## Units -/

/-- A code point that is no backslash, or a backslash with the code point after it. -/
inductive LineUnit where
  | bare (c : CodePoint) (plain : c ≠ '\\')
  | escape (c : CodePoint)

namespace LineUnit

def text : LineUnit → Text
  | bare c _ => [c]
  | escape c => ['\\', c]

/-- The text of some units, one after the other. -/
def join (units : List LineUnit) : Text := units.flatMap text

/-- Ends a key: a separator or a blank that no backslash stands before. -/
def endsKey : LineUnit → Bool
  | bare c _ => isSeparator c || isBlank c
  | escape _ => false

theorem join_cons (unit : LineUnit) (units : List LineUnit) :
    join (unit :: units) = unit.text ++ join units := List.flatMap_cons

theorem join_concat (units : List LineUnit) (unit : LineUnit) :
    join (units ++ [unit]) = join units ++ unit.text := by
  simp [join]

theorem continues_text (unit : LineUnit) : continues unit.text = false := by
  cases unit with
  | bare c plain => exact continues_concat_of_ne plain []
  | escape c => exact continues_append_pair continues_nil c

theorem continues_join (units : List LineUnit) : continues (join units) = false := by
  induction units with
  | nil => rfl
  | cons unit units ih => rw [join_cons, continues_append unit.continues_text, ih]

/-- A text that does not ask for the next line starts with a whole unit, unless it is empty. -/
theorem exists_text_append {t : Text} (whole : continues t = false) (filled : t ≠ []) :
    ∃ (unit : LineUnit) (rest : Text), t = unit.text ++ rest ∧ continues rest = false := by
  obtain ⟨c, rest, rfl⟩ := List.exists_cons_of_ne_nil filled
  by_cases slash : c = '\\'
  · subst slash
    cases rest with
    | nil =>
      rw [continues_backslash] at whole
      cases whole
    | cons d rest =>
      have tail := continues_append (escape d).continues_text rest
      exact ⟨escape d, rest, rfl, tail.symm.trans whole⟩
  · have tail := continues_append (bare c slash).continues_text rest
    exact ⟨bare c slash, rest, rfl, tail.symm.trans whole⟩

theorem length_text_pos (unit : LineUnit) : 0 < unit.text.length := by
  cases unit <;> exact Nat.succ_pos _

theorem exists_join_eq {t : Text} (whole : continues t = false) : ∃ units, join units = t := by
  by_cases filled : t = []
  · exact ⟨[], filled.symm⟩
  · obtain ⟨unit, rest, split, later⟩ := exists_text_append whole filled
    have shorter : rest.length < t.length := by
      rw [split, List.length_append]
      exact Nat.lt_add_of_pos_left unit.length_text_pos
    obtain ⟨units, joined⟩ := exists_join_eq later
    exact ⟨unit :: units, by rw [join_cons, joined, split]⟩
termination_by t.length

theorem join_injective {units others : List LineUnit} (same : join units = join others) :
    units = others := by
  induction units generalizing others with
  | nil =>
    cases others with
    | nil => rfl
    | cons other others => cases other <;> cases same
  | cons unit units ih =>
    cases others with
    | nil => cases unit <;> cases same
    | cons other others =>
      rw [join_cons, join_cons] at same
      cases unit with
      | bare c plain =>
        cases other with
        | bare d other =>
          obtain ⟨rfl, rest⟩ := List.cons_eq_cons.1 same
          rw [ih rest]
        | escape d => exact absurd (List.cons_eq_cons.1 same).1 plain
      | escape c =>
        cases other with
        | bare d other => exact absurd (List.cons_eq_cons.1 same).1.symm other
        | escape d =>
          obtain ⟨rfl, rest⟩ := List.cons_eq_cons.1 (List.cons_eq_cons.1 same).2
          rw [ih rest]

end LineUnit

/-! ## Escapes by number -/

/-- The code point of four hexadecimal digits, and of no other text. -/
def numeral? : Text → Option CodePoint
  | [a, b, c, d] =>
    match a.hexDigit?, b.hexDigit?, c.hexDigit?, d.hexDigit? with
    | some n₁, some n₂, some n₃, some n₄ => some (ofHexDigits n₁ n₂ n₃ n₄)
    | _, _, _, _ => none
  | _ => none

theorem unescape_u (rest : Text) :
    unescape ('\\' :: 'u' :: rest) =
      match numeral? (rest.take 4) with
      | some c => (unescape (rest.drop 4)).map (c :: ·)
      | none => .error ⟨rest.take 4⟩ := by
  rw [unescape.eq_def]
  dsimp only
  rw [if_pos rfl, if_pos rfl]
  rcases rest with _ | ⟨a, _ | ⟨b, _ | ⟨c, _ | ⟨d, rest⟩⟩⟩⟩
  · rfl
  · rfl
  · rfl
  · rfl
  · simp only [List.take_succ_cons, List.take_zero, List.drop_succ_cons, List.drop_zero, numeral?]
    cases a.hexDigit? <;> cases b.hexDigit? <;> cases c.hexDigit? <;> cases d.hexDigit? <;> rfl

theorem ne_backslash_of_hexDigit? {c : CodePoint} {n : Fin 16} (digit : c.hexDigit? = some n) :
    c ≠ '\\' := by
  rintro rfl
  have none : CodePoint.hexDigit? '\\' = none := by decide
  rw [none] at digit
  cases digit

theorem ne_backslash_of_numeral? {digits : Text} {c : CodePoint}
    (spelled : numeral? digits = some c) : ∀ d ∈ digits, d ≠ '\\' := by
  unfold numeral? at spelled
  split at spelled
  · split at spelled
    · next first second third fourth =>
      simp only [List.forall_mem_cons]
      exact ⟨ne_backslash_of_hexDigit? first, ne_backslash_of_hexDigit? second,
        ne_backslash_of_hexDigit? third, ne_backslash_of_hexDigit? fourth, nofun⟩
    · cases spelled
  · cases spelled

/-! ## Turns -/

/-- What the start of a text stands for, and what is left after it. A backslash that nothing comes
after stands for nothing, and neither does an escape by number without its digits. -/
inductive Turn : Text → CodePoint → Text → Prop where
  | bare {c : CodePoint} (plain : c ≠ '\\') (rest : Text) : Turn (c :: rest) c rest
  | letter {c : CodePoint} (other : c ≠ 'u') (rest : Text) :
      Turn ('\\' :: c :: rest) (escaped c) rest
  | number {rest : Text} {c : CodePoint} (spelled : numeral? (rest.take 4) = some c) :
      Turn ('\\' :: 'u' :: rest) c (rest.drop 4)

/-- A text that starts with an escape by number without its digits; they are what stands in their
place. -/
inductive IsMalformed : Text → Text → Prop where
  | intro {rest : Text} (unspelled : numeral? (rest.take 4) = none) :
      IsMalformed ('\\' :: 'u' :: rest) (rest.take 4)

theorem IsMalformed.unescape_eq {left digits : Text} (malformed : IsMalformed left digits) :
    unescape left = .error ⟨digits⟩ := by
  obtain ⟨unspelled⟩ := malformed
  rw [unescape_u, unspelled]

namespace Turn

variable {left rest : Text} {c : CodePoint}

theorem unescape_eq (turn : Turn left c rest) : unescape left = (unescape rest).map (c :: ·) := by
  cases turn with
  | bare plain => exact unescape_cons_of_ne plain rest
  | letter other => exact unescape_escaped other rest
  | number spelled => rw [unescape_u, spelled]

theorem length_lt (turn : Turn left c rest) : rest.length < left.length := by
  cases turn with
  | bare => exact Nat.lt_succ_self _
  | letter =>
    simp only [List.length_cons]
    omega
  | number =>
    simp only [List.length_drop, List.length_cons]
    omega

/-- A turn takes no half of an escape. -/
theorem continues_eq (turn : Turn left c rest) : continues rest = continues left := by
  cases turn with
  | bare plain => exact (continues_append (LineUnit.bare c plain).continues_text rest).symm
  | @letter d => exact (continues_append (LineUnit.escape d).continues_text rest).symm
  | @number more _ spelled =>
    have digits := continues_append_plain (LineUnit.escape 'u').continues_text
      (ne_backslash_of_numeral? spelled)
    have whole := continues_append digits (more.drop 4)
    rw [List.append_assoc, List.take_append_drop] at whole
    exact whole.symm

end Turn

/-- There is a turn wherever a text does not end in the middle of an escape. -/
theorem exists_turn {left : Text} (whole : continues left = false) (filled : left ≠ []) :
    (∃ c rest, Turn left c rest) ∨ ∃ digits, IsMalformed left digits := by
  obtain ⟨unit, rest, rfl, -⟩ := LineUnit.exists_text_append whole filled
  cases unit with
  | bare c plain => exact .inl ⟨c, rest, .bare plain rest⟩
  | escape d =>
    by_cases number : d = 'u'
    · subst number
      cases spelled : numeral? (rest.take 4) with
      | some c => exact .inl ⟨c, rest.drop 4, .number spelled⟩
      | none => exact .inr ⟨rest.take 4, .intro spelled⟩
    · exact .inl ⟨escaped d, rest, .letter number rest⟩

/-! ## Runs of turns -/

/-- How far the resolving of a text comes: what it has given, and what is left. -/
inductive Resolves (t : Text) : Text → Text → Prop where
  | start : Resolves t [] t
  | turn {given left rest : Text} {c : CodePoint} (before : Resolves t given left)
      (next : Turn left c rest) : Resolves t (given ++ [c]) rest

namespace Resolves

variable {t given left : Text}

/-- On the way nothing is lost: the text comes to what was given and what the rest comes to. -/
theorem unescape_eq (resolves : Resolves t given left) :
    unescape t = (unescape left).map (given ++ ·) := by
  induction resolves with
  | start => cases unescape t <;> rfl
  | @turn given left rest c before next ih =>
    rw [ih, next.unescape_eq]
    cases unescape rest with
    | error fault => rfl
    | ok s => exact congrArg Except.ok (List.append_cons ..)

theorem continues_eq (resolves : Resolves t given left) : continues left = continues t := by
  induction resolves with
  | start => rfl
  | turn before next ih => exact next.continues_eq.trans ih

/-- A backslash that nothing comes after is not met. -/
theorem ne_backslash (resolves : Resolves t given left) (whole : continues t = false) :
    left ≠ (['\\'] : Text) := by
  rintro rfl
  have half := resolves.continues_eq.symm.trans continues_backslash
  rw [whole] at half
  cases half

/-- Resolving goes on to the end of the text, or to an escape without its digits. -/
theorem exists_end {t given left : Text} (resolves : Resolves t given left)
    (whole : continues t = false) :
    ∃ all last, Resolves t all last ∧ (last = [] ∨ ∃ digits, IsMalformed last digits) := by
  by_cases filled : left = []
  · exact ⟨given, left, resolves, .inl filled⟩
  · rcases exists_turn (resolves.continues_eq.trans whole) filled with ⟨c, rest, next⟩ | malformed
    · have shorter := next.length_lt
      exact (resolves.turn next).exists_end whole
    · exact ⟨given, left, resolves, .inr malformed⟩
termination_by left.length

end Resolves

/-- A text that ends in no half of an escape is resolved exactly if turns lead to its end. -/
theorem unescape_eq_ok_iff {t : Text} (whole : continues t = false) (s : Text) :
    unescape t = .ok s ↔ Resolves t s [] := by
  constructor
  · intro resolved
    obtain ⟨all, last, resolves, rfl | ⟨digits, malformed⟩⟩ :=
      Resolves.start.exists_end whole
    · have given : unescape t = .ok all :=
        resolves.unescape_eq.trans (congrArg Except.ok (List.append_nil all))
      rw [given] at resolved
      cases resolved
      exact resolves
    · rw [resolves.unescape_eq, malformed.unescape_eq] at resolved
      cases resolved
  · intro resolves
    rw [resolves.unescape_eq]
    exact congrArg Except.ok (List.append_nil s)

/-- And it is refused exactly if they lead to an escape without its digits. -/
theorem unescape_eq_error_iff {t : Text} (whole : continues t = false) (fault : MalformedEscape) :
    unescape t = .error fault ↔
      ∃ given left, Resolves t given left ∧ IsMalformed left fault.digits := by
  constructor
  · intro refused
    obtain ⟨all, last, resolves, rfl | ⟨digits, malformed⟩⟩ :=
      Resolves.start.exists_end whole
    · rw [resolves.unescape_eq] at refused
      cases refused
    · rw [resolves.unescape_eq, malformed.unescape_eq] at refused
      cases refused
      exact ⟨all, last, resolves, malformed⟩
  · rintro ⟨given, left, resolves, malformed⟩
    rw [resolves.unescape_eq, malformed.unescape_eq]
    rfl

end PropertyToolkit.PropertyFile
