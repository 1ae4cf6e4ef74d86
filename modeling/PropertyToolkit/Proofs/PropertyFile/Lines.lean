import Mathlib.Data.List.Induction
import Mathlib.Data.List.TakeWhile
import PropertyToolkit.Proofs.PropertyFile.Form

/-!
The lines of a text that is put together from parts. A line ends at any break; a comment or a line
of blanks says nothing; a continuation inside an entry cannot be told from its absence.
-/

set_option autoImplicit false

namespace PropertyToolkit.PropertyFile

/-! ## Physical lines -/

theorem physicalLines_cons {c : CodePoint} (inner : isBreak c = false) (rest : Text) :
    physicalLines (c :: rest) = consFirst c (physicalLines rest) := by
  cases rest with
  | nil => simp [physicalLines, inner, consFirst]
  | cons d rest =>
    have other : ¬(c = '\r' ∧ d = '\n') := by
      rintro ⟨rfl, -⟩
      revert inner
      decide
    rw [physicalLines, if_neg other, inner]
    rfl

/-- A text without breaks goes in front of the first line of what comes after. -/
theorem physicalLines_append {line : Text} (unbroken : ∀ c ∈ line, isBreak c = false)
    {rest first : Text} {others : List Text} (lines : physicalLines rest = first :: others) :
    physicalLines (line ++ rest) = (line ++ first) :: others := by
  induction line with
  | nil => exact lines
  | cons c line ih =>
    rw [List.forall_mem_cons] at unbroken
    rw [List.cons_append, physicalLines_cons unbroken.1, ih unbroken.2]
    rfl

theorem exists_physicalLines_of_isBreak {c : CodePoint} (breaks : isBreak c = true) (rest : Text) :
    ∃ others, physicalLines (c :: rest) = [] :: others := by
  cases rest with
  | nil => exact ⟨[[]], by rw [physicalLines, if_pos breaks]⟩
  | cons d rest =>
    rw [physicalLines, if_pos breaks]
    split
    · exact ⟨_, rfl⟩
    · exact ⟨_, rfl⟩

theorem exists_physicalLines_eq_cons (t : Text) :
    ∃ first others, physicalLines t = first :: others := by
  induction t with
  | nil => exact ⟨[], [], rfl⟩
  | cons c rest ih =>
    cases inner : isBreak c with
    | false =>
      obtain ⟨first, others, lines⟩ := ih
      rw [physicalLines_cons inner, lines]
      exact ⟨_, _, rfl⟩
    | true => exact ⟨[], exists_physicalLines_of_isBreak inner rest⟩

/-- What ends a line. -/
inductive LineBreak where
  | lineFeed
  | carriageReturn
  | both

def LineBreak.text : LineBreak → Text
  | lineFeed => ['\n']
  | carriageReturn => ['\r']
  | both => ['\r', '\n']

theorem physicalLines_feed (rest : Text) :
    physicalLines ('\n' :: rest) = [] :: physicalLines rest := by
  cases rest with
  | nil => rfl
  | cons d rest =>
    have other : ¬(('\n' : CodePoint) = '\r' ∧ d = '\n') := by
      rintro ⟨same, -⟩
      revert same
      decide
    rw [physicalLines, if_neg other]
    rfl

/-- A return that no feed comes after ends a line by itself. -/
theorem physicalLines_return {rest : Text} (bare : ∀ c ∈ rest.head?, c ≠ '\n') :
    physicalLines ('\r' :: rest) = [] :: physicalLines rest := by
  cases rest with
  | nil => rfl
  | cons d rest =>
    have other : ¬(('\r' : CodePoint) = '\r' ∧ d = '\n') := fun both => bare d rfl both.2
    rw [physicalLines, if_neg other]
    rfl

theorem physicalLines_break (ending : LineBreak) {rest : Text}
    (bare : ∀ c ∈ rest.head?, c ≠ '\n') :
    physicalLines (ending.text ++ rest) = [] :: physicalLines rest := by
  cases ending with
  | lineFeed => exact physicalLines_feed rest
  | carriageReturn => exact physicalLines_return bare
  | both => rfl

/-- The lines are the same if every break is a feed. -/
theorem physicalLines_withLineFeeds (t : Text) :
    physicalLines t.withLineFeeds = physicalLines t := by
  induction t using Text.withLineFeeds.induct with
  | case1 => rfl
  | case2 c =>
    by_cases back : c = '\r'
    · subst back
      rfl
    · rw [Text.withLineFeeds, if_neg back]
  | case3 c d rest both ih =>
    rw [Text.withLineFeeds, if_pos both, physicalLines_feed, ih, physicalLines, if_pos both]
  | case4 c d rest other ih =>
    rw [Text.withLineFeeds, if_neg other]
    by_cases back : c = '\r'
    · have bare : ∀ e ∈ (d :: rest).head?, e ≠ '\n' := by
        rintro e ⟨⟩ feed
        exact other ⟨back, feed⟩
      subst back
      rw [if_pos rfl, physicalLines_feed, ih, physicalLines_return bare]
    · rw [if_neg back]
      by_cases feed : c = '\n'
      · subst feed
        rw [physicalLines_feed, physicalLines_feed, ih]
      · have inner : isBreak c = false := by simp [isBreak, back, feed]
        rw [physicalLines_cons inner, physicalLines_cons inner, ih]

/-! ## Lines that ask for the next one -/

theorem continues_append {line : Text} (complete : continues line = false) (next : Text) :
    continues (line ++ next) = continues next := by
  induction next using List.reverseRecOn with
  | nil =>
    rw [List.append_nil, complete]
    rfl
  | append_singleton next c ih =>
    rw [← List.append_assoc, continues_concat, continues_concat, ih]

/-- One backslash more asks for the next line. -/
theorem continues_append_backslash {line : Text} (complete : continues line = false) :
    continues (line ++ (['\\'] : Text)) = true := by
  rw [continues_concat, if_pos rfl, complete]
  rfl

/-- The backslash that asks for the next line is alone, or after pairs of backslashes. -/
theorem exists_eq_of_continues {line : Text} (asks : continues line = true) :
    ∃ text, continues text = false ∧ line = text ++ (['\\'] : Text) := by
  have filled : line ≠ [] := by
    rintro rfl
    revert asks
    decide
  obtain ⟨text, c, rfl⟩ : ∃ text c, line = text ++ [c] :=
    ⟨_, _, (List.dropLast_concat_getLast filled).symm⟩
  rw [continues_concat] at asks
  split at asks
  · next last => exact ⟨text, by simpa using asks, by rw [last]⟩
  · cases asks

theorem continues_dropLast {line : Text} (asks : continues line = true) :
    continues line.dropLast = false := by
  obtain ⟨text, complete, rfl⟩ := exists_eq_of_continues asks
  rw [List.dropLast_concat]
  exact complete

theorem continues_trimBlanks (line : Text) : continues (trimBlanks line) = continues line := by
  have plain : ∀ c ∈ line.takeWhile isBlank, c ≠ '\\' := by
    rintro c mem rfl
    have blank : isBlank '\\' = true := List.mem_takeWhile_imp mem
    cases blank
  have complete := continues_append_plain continues_nil plain
  rw [List.nil_append] at complete
  have whole := continues_append complete (trimBlanks line)
  rw [trimBlanks, List.takeWhile_append_dropWhile] at whole
  exact whole.symm

/-! ## Logical lines -/

theorem logicalLinesFrom_cons_of_starts {line : Text}
    (starts : startsEntry (trimBlanks line) = true) (number : Nat) (rest : List Text) :
    logicalLinesFrom number (line :: rest) =
      (number, (gather (trimBlanks line) rest).1) ::
        logicalLinesFrom (number + 1 + (rest.length - (gather (trimBlanks line) rest).2.length))
          (gather (trimBlanks line) rest).2 := by
  rw [logicalLinesFrom, if_pos starts]

theorem logicalLinesFrom_cons_of_skipped {line : Text}
    (skipped : startsEntry (trimBlanks line) = false) (number : Nat) (rest : List Text) :
    logicalLinesFrom number (line :: rest) = logicalLinesFrom (number + 1) rest := by
  rw [logicalLinesFrom, if_neg (Bool.eq_false_iff.1 skipped)]

/-- The texts of the logical lines among some physical ones. -/
def contents (lines : List Text) : List Text := (logicalLinesFrom 1 lines).map Prod.snd

theorem map_logicalLinesFrom (number : Nat) (lines : List Text) :
    (logicalLinesFrom number lines).map Prod.snd = contents lines := by
  have same (m n : Nat) :
      (logicalLinesFrom m lines).map Prod.snd = (logicalLinesFrom n lines).map Prod.snd := by
    induction m, lines using logicalLinesFrom.induct generalizing n with
    | case1 => rw [logicalLinesFrom, logicalLinesFrom]
    | case2 m line rest starts gathered ih =>
      rw [logicalLinesFrom, logicalLinesFrom, if_pos starts, if_pos starts]
      exact congrArg (_ :: ·) (ih _)
    | case3 m line rest skipped ih =>
      rw [logicalLinesFrom, logicalLinesFrom, if_neg skipped, if_neg skipped]
      exact ih _
  exact same number 1

theorem contents_cons_of_starts {line : Text} (starts : startsEntry (trimBlanks line) = true)
    (rest : List Text) :
    contents (line :: rest) =
      (gather (trimBlanks line) rest).1 :: contents (gather (trimBlanks line) rest).2 := by
  rw [contents, logicalLinesFrom_cons_of_starts starts]
  exact congrArg (_ :: ·) (map_logicalLinesFrom _ _)

theorem contents_cons_of_skipped {line : Text} (skipped : startsEntry (trimBlanks line) = false)
    (rest : List Text) : contents (line :: rest) = contents rest := by
  rw [contents, logicalLinesFrom_cons_of_skipped skipped]
  exact map_logicalLinesFrom _ _

theorem contents_nil : contents [] = [] := by
  rw [contents, logicalLinesFrom]
  rfl

theorem gather_of_complete {line : Text} (complete : continues line = false) (lines : List Text) :
    gather line lines = (line, lines) := by
  cases lines with
  | nil => rw [gather, complete]; rfl
  | cons next rest => rw [gather, complete]; rfl

/-- A line that is not continued, or that says nothing, is read on its own. -/
theorem contents_cons_of_complete {line : Text}
    (complete : startsEntry (trimBlanks line) = true → continues (trimBlanks line) = false)
    (rest : List Text) : contents (line :: rest) = contents [line] ++ contents rest := by
  cases starts : startsEntry (trimBlanks line) with
  | true =>
    rw [contents_cons_of_starts starts, contents_cons_of_starts starts,
      gather_of_complete (complete starts), gather_of_complete (complete starts), contents_nil]
    rfl
  | false =>
    rw [contents_cons_of_skipped starts, contents_cons_of_skipped starts, contents_nil]
    rfl

/-! ## Parts of a text -/

/-- Nothing comes after a line, or a break. -/
def IsEnded (rest : Text) : Prop := ∀ c ∈ rest.head?, isBreak c = true

theorem isEnded_break (ending : LineBreak) (rest : Text) : IsEnded (ending.text ++ rest) := by
  intro c mem
  cases ending <;> cases mem <;> decide

theorem contents_nil_cons (lines : List Text) : contents ([] :: lines) = contents lines :=
  have skipped : startsEntry (trimBlanks []) = false := rfl
  contents_cons_of_skipped skipped lines

theorem contents_break (ending : LineBreak) (rest : Text) :
    contents (physicalLines (ending.text ++ rest)) = contents (physicalLines rest) := by
  -- A return and a feed that comes next are one break; the line that is lost is an empty one.
  by_cases bare : ∀ c ∈ rest.head?, c ≠ '\n'
  · rw [physicalLines_break ending bare, contents_nil_cons]
  · cases rest with
    | nil => exact absurd (fun c mem => nomatch mem) bare
    | cons d rest =>
      have feed : d = '\n' := by simpa using bare
      subst feed
      cases ending with
      | carriageReturn => exact congrArg contents (physicalLines_feed rest).symm
      | lineFeed => exact (congrArg contents (physicalLines_feed _)).trans (contents_nil_cons _)
      | both => exact contents_nil_cons _

theorem exists_physicalLines_of_isEnded {rest : Text} (ended : IsEnded rest) :
    ∃ others, physicalLines rest = [] :: others := by
  cases rest with
  | nil => exact ⟨[], rfl⟩
  | cons c rest => exact exists_physicalLines_of_isBreak (ended c rfl) rest

/-- The first line of a text is read on its own. -/
theorem contents_append_of_isEnded {line rest : Text} (unbroken : ∀ c ∈ line, isBreak c = false)
    (complete : startsEntry (trimBlanks line) = true → continues (trimBlanks line) = false)
    (ended : IsEnded rest) :
    contents (physicalLines (line ++ rest)) = contents [line] ++ contents (physicalLines rest) := by
  obtain ⟨others, lines⟩ := exists_physicalLines_of_isEnded ended
  rw [physicalLines_append unbroken lines, List.append_nil, contents_cons_of_complete complete,
    lines, contents_nil_cons]

theorem contents_append_of_skipped {line rest : Text} (unbroken : ∀ c ∈ line, isBreak c = false)
    (skipped : startsEntry (trimBlanks line) = false) (ended : IsEnded rest) :
    contents (physicalLines (line ++ rest)) = contents (physicalLines rest) := by
  have silent : startsEntry (trimBlanks line) = true → continues (trimBlanks line) = false := by
    rw [skipped]
    exact nofun
  rw [contents_append_of_isEnded unbroken silent ended, contents_cons_of_skipped skipped,
    contents_nil, List.nil_append]

/-! ## Continuations -/

/-- A break behind a backslash, and the blanks that the next line starts with. -/
structure Continuation where
  ending : LineBreak
  indent : Blanks

def Continuation.text (continuation : Continuation) : Text :=
  '\\' :: (continuation.ending.text ++ continuation.indent.val)

/-- The start of an entry, up to a place where it may be continued. -/
structure IsStem (stem : Text) : Prop where
  unbroken : ∀ c ∈ stem, isBreak c = false
  complete : continues stem = false
  head : ∃ c rest, stem = c :: rest ∧ isLayout c = false

theorem isBreak_of_isBlank {c : CodePoint} (blank : isBlank c = true) : isBreak c = false := by
  simp only [isBlank, Bool.or_eq_true, decide_eq_true_eq] at blank
  rcases blank with (rfl | rfl) | rfl <;> decide

theorem Blanks.unbroken (blanks : Blanks) : ∀ c ∈ blanks.val, isBreak c = false :=
  fun c mem => isBreak_of_isBlank (blanks.property c mem)

theorem isStem_text {form : Form} (closed : form.isClosed = true) : IsStem form.text where
  unbroken := fun _ mem => isBreak_of_mem_text mem
  complete := continues_append_text continues_nil form
  head := exists_text_eq_cons closed

namespace IsStem

variable {stem : Text}

theorem trimBlanks_append (isStem : IsStem stem) (indent : Blanks) (rest : Text) :
    trimBlanks (indent.val ++ (stem ++ rest)) = stem ++ rest := by
  obtain ⟨c, more, rfl, layout⟩ := isStem.head
  rw [PropertyFile.trimBlanks_append, List.cons_append,
    trimBlanks_of_ne (isBlank_of_isLayout layout)]

theorem startsEntry_append (isStem : IsStem stem) (rest : Text) :
    startsEntry (stem ++ rest) = true := by
  obtain ⟨c, more, rfl, layout⟩ := isStem.head
  rw [List.cons_append, startsEntry, (Bool.or_eq_false_iff.1 layout).2]
  rfl

theorem append (isStem : IsStem stem) {t : Text} (unbroken : ∀ c ∈ t, isBreak c = false)
    (complete : continues (stem ++ t) = false) : IsStem (stem ++ t) where
  unbroken := List.forall_mem_append.2 ⟨isStem.unbroken, unbroken⟩
  complete := complete
  head := by
    obtain ⟨c, more, rfl, layout⟩ := isStem.head
    exact ⟨c, more ++ t, rfl, layout⟩

theorem append_text (isStem : IsStem stem) (form : Form) : IsStem (stem ++ form.text) :=
  isStem.append (fun _ mem => isBreak_of_mem_text mem)
    (continues_append_text isStem.complete form)

theorem append_separator (isStem : IsStem stem) (separator : Separator) :
    IsStem (stem ++ separator.text) :=
  isStem.append (fun _ mem => (Separator.plain_of_mem_text mem).2)
    (continues_append_plain isStem.complete fun _ mem => (Separator.plain_of_mem_text mem).1)

theorem append_join (isStem : IsStem stem) (forms : List Form) :
    IsStem (stem ++ Form.join forms) :=
  isStem.append (fun _ mem => isBreak_of_mem_join mem)
    (continues_append_join isStem.complete forms)

/-- The logical line of an entry, where the line that it starts on is known. -/
theorem contents_lines (isStem : IsStem stem) (indent : Blanks) (rest : Text)
    (others : List Text) :
    contents ((indent.val ++ (stem ++ rest)) :: others) =
      (gather (stem ++ rest) others).1 :: contents (gather (stem ++ rest) others).2 := by
  have trimmed := isStem.trimBlanks_append indent rest
  have starts : startsEntry (trimBlanks (indent.val ++ (stem ++ rest))) = true := by
    rw [trimmed]
    exact isStem.startsEntry_append rest
  rw [contents_cons_of_starts starts, trimmed]

/-- An entry that is not continued any more is one logical line. -/
theorem contents_append (isStem : IsStem stem) (indent : Blanks) {rest : Text}
    (ended : IsEnded rest) :
    contents (physicalLines (indent.val ++ (stem ++ rest))) =
      stem :: contents (physicalLines rest) := by
  have unbroken : ∀ c ∈ indent.val ++ stem, isBreak c = false :=
    List.forall_mem_append.2 ⟨indent.unbroken, isStem.unbroken⟩
  have trimmed := isStem.trimBlanks_append indent []
  have single := isStem.contents_lines indent [] []
  rw [List.append_nil] at trimmed single
  rw [gather_of_complete isStem.complete, contents_nil] at single
  have complete : continues (trimBlanks (indent.val ++ stem)) = false := by
    rw [trimmed]
    exact isStem.complete
  rw [← List.append_assoc, contents_append_of_isEnded unbroken (fun _ => complete) ended, single]
  rfl

end IsStem

theorem EntryForms.isStem_key (entry : EntryForms) :
    IsStem (Form.join entry.key ++ entry.separator.text) := by
  obtain ⟨key, separator, value, named, closed, bare⟩ := entry
  cases key with
  | nil => exact absurd rfl named
  | cons form key =>
    have first := isStem_text (closed form (List.mem_cons_self ..))
    exact (first.append_join key).append_separator separator

theorem EntryForms.isStem_line (entry : EntryForms) : IsStem entry.line := by
  have whole := entry.isStem_key.append_join entry.value
  rwa [List.append_assoc] at whole

theorem gather_continued {line : Text} (complete : continues line = false) (next : Text)
    (others : List Text) :
    gather (line ++ (['\\'] : Text)) (next :: others) =
      gather (line ++ trimBlanks next) others := by
  rw [gather, if_pos (continues_append_backslash complete), List.dropLast_concat]

theorem trimBlanks_first {rest first : Text} {others : List Text}
    (next : ∀ c ∈ rest.head?, isBlank c = false ∧ isBreak c = false)
    (lines : physicalLines rest = first :: others) : trimBlanks first = first := by
  cases rest with
  | nil =>
    cases lines
    rfl
  | cons c rest =>
    obtain ⟨bare, inner⟩ := next c rfl
    obtain ⟨more, later, rest_lines⟩ := exists_physicalLines_eq_cons rest
    rw [physicalLines_cons inner, rest_lines] at lines
    cases lines
    exact trimBlanks_of_ne bare more

theorem physicalLines_continuation {line : Text} (unbroken : ∀ c ∈ line, isBreak c = false)
    (continuation : Continuation) {rest first : Text} {others : List Text}
    (next : ∀ c ∈ rest.head?, isBlank c = false ∧ isBreak c = false)
    (lines : physicalLines rest = first :: others) :
    physicalLines (line ++ (continuation.text ++ rest)) =
      (line ++ (['\\'] : Text)) :: (continuation.indent.val ++ first) :: others := by
  obtain ⟨ending, indent⟩ := continuation
  have inner : ∀ c ∈ (indent.val ++ rest).head?, isBreak c = false := by
    obtain ⟨t, blank⟩ := indent
    cases t with
    | nil => exact fun c mem => (next c mem).2
    | cons d t =>
      rintro c ⟨⟩
      exact isBreak_of_isBlank (blank d (List.mem_cons_self ..))
  have bare : ∀ c ∈ (indent.val ++ rest).head?, c ≠ '\n' := by
    rintro c mem rfl
    exact absurd (inner _ mem) (by decide)
  have second := physicalLines_break ending bare
  rw [physicalLines_append indent.unbroken lines] at second
  have slash : ∀ c ∈ line ++ (['\\'] : Text), isBreak c = false := by
    refine List.forall_mem_append.2 ⟨unbroken, ?_⟩
    rw [List.forall_mem_singleton]
    decide
  have both := physicalLines_append slash second
  rwa [List.append_nil, List.append_assoc, List.singleton_append, ← List.append_assoc _ _ rest]
    at both

/-- A continuation leaves no trace: the entry reads on where it was cut. -/
theorem contents_continuation (indent : Blanks) {stem : Text} (isStem : IsStem stem)
    (continuation : Continuation) {rest : Text}
    (next : ∀ c ∈ rest.head?, isBlank c = false ∧ isBreak c = false) :
    contents (physicalLines (indent.val ++ (stem ++ (continuation.text ++ rest)))) =
      contents (physicalLines (indent.val ++ (stem ++ rest))) := by
  obtain ⟨first, others, lines⟩ := exists_physicalLines_eq_cons rest
  have unbroken : ∀ c ∈ indent.val ++ stem, isBreak c = false :=
    List.forall_mem_append.2 ⟨indent.unbroken, isStem.unbroken⟩
  have cut := physicalLines_continuation unbroken continuation next lines
  have whole := physicalLines_append unbroken lines
  rw [List.append_assoc, List.append_assoc] at cut whole
  rw [cut, whole, isStem.contents_lines, isStem.contents_lines, gather_continued isStem.complete,
    trimBlanks_append, trimBlanks_first next lines]

/-! ## Entries -/

theorem foldl_add (entries : List EntryForms) {lines : List (Nat × Text)}
    (written : lines.map Prod.snd = entries.map EntryForms.line) (table : Properties) :
    lines.foldl Reading.add ⟨table, []⟩ =
      ⟨table.putAll (entries.map EntryForms.content), []⟩ := by
  induction entries generalizing table lines with
  | nil =>
    rw [List.map_nil, List.map_eq_nil_iff] at written
    rw [written]
    rfl
  | cons entry entries ih =>
    rw [List.map_cons, List.map_eq_cons_iff] at written
    obtain ⟨line, rest, rfl, first, others⟩ := written
    rw [List.foldl_cons, Reading.add, first, entry.readEntry_line]
    exact ih others _

/-- A text with the lines of some entries comes to these entries. -/
theorem read_of_contents {t : Text} {entries : List EntryForms}
    (written : contents (physicalLines t) = entries.map EntryForms.line) :
    read t = ⟨Table.ofList (entries.map EntryForms.content), []⟩ :=
  foldl_add entries written Table.empty

theorem read_withLineFeeds (t : Text) : read t.withLineFeeds = read t := by
  rw [read, read, logicalLines, logicalLines, physicalLines_withLineFeeds]

end PropertyToolkit.PropertyFile
