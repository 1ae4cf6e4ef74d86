import PropertyToolkit.Proofs.PropertyFile.Resolution

/-!
No escape is cut in two on its way through the passes of a reading. However many lines are joined, a
logical line ends in no half of an escape. The scan for the end of the key goes over whole units and
stays within the line, the separator holds no backslash, and so the value is whole as well.
-/

set_option autoImplicit false

namespace PropertyToolkit.PropertyFile

/-! ## Logical lines are whole -/

theorem continues_gather (line : Text) (lines : List Text) :
    continues (gather line lines).1 = false := by
  induction lines generalizing line with
  | nil =>
    cases asks : continues line with
    | true =>
      rw [gather, if_pos asks]
      exact continues_dropLast asks
    | false =>
      rw [gather_of_complete asks]
      exact asks
  | cons next rest ih =>
    cases asks : continues line with
    | true =>
      rw [gather, if_pos asks]
      exact ih _
    | false =>
      rw [gather_of_complete asks]
      exact asks

theorem continues_of_mem_logicalLinesFrom {number : Nat} {lines : List Text} {entry : Nat × Text}
    (mem : entry ∈ logicalLinesFrom number lines) : continues entry.2 = false := by
  induction number, lines using logicalLinesFrom.induct with
  | case1 number =>
    rw [logicalLinesFrom] at mem
    cases mem
  | case2 number line rest starts gathered ih =>
    rw [logicalLinesFrom_cons_of_starts starts] at mem
    rcases List.mem_cons.1 mem with rfl | later
    · exact continues_gather _ _
    · exact ih later
  | case3 number line rest skipped ih =>
    rw [logicalLinesFrom_cons_of_skipped (Bool.eq_false_iff.2 skipped)] at mem
    exact ih mem

/-! ## The scan for the end of the key -/

/-- The place where a scan for the end of the key stops. It looks at one code point at a time, and
a backslash takes it two places on, even if the line ends between the two. -/
def keyEnd (t : Text) (place : Nat) : Nat :=
  if inside : place < t.length then
    if t[place] = '\\' then keyEnd t (place + 2)
    else if isSeparator t[place] || isBlank t[place] then place
    else keyEnd t (place + 1)
  else place
termination_by t.length - place

/-- A line that ends in the half of an escape is overrun. -/
example : keyEnd ['a', '\\'] 0 = 3 := by cbv

/-- A backslash takes the next code point with it, if there is one. -/
theorem cutKey_backslash (after : Text) :
    cutKey ('\\' :: after) =
      (('\\' : CodePoint) :: (after.take 1 ++ (cutKey (after.drop 1)).1),
        (cutKey (after.drop 1)).2) := by
  cases after with
  | nil => rfl
  | cons c rest => exact cutKey_escape c rest

/-- The key is what the scan goes over. -/
theorem cutKey_drop (t : Text) (place : Nat) :
    t.take place ++ (cutKey (t.drop place)).1 = t.take (keyEnd t place) ∧
      (cutKey (t.drop place)).2 = t.drop (keyEnd t place) := by
  induction place using keyEnd.induct t with
  | case1 place inside slash ih =>
    rw [keyEnd, dif_pos inside, if_pos slash, ← ih.1, ← ih.2, List.take_add, ← List.drop_drop,
      List.drop_eq_getElem_cons inside, slash, cutKey_backslash, List.append_assoc]
    exact ⟨rfl, rfl⟩
  | case2 place inside other stop =>
    rw [keyEnd, dif_pos inside, if_neg other, if_pos stop, List.drop_eq_getElem_cons inside,
      cutKey_of_stop stop]
    exact ⟨List.append_nil _, rfl⟩
  | case3 place inside other goes ih =>
    have plain := Bool.eq_false_iff.2 goes
    rw [keyEnd, dif_pos inside, if_neg other, if_neg goes, ← ih.1, ← ih.2,
      List.drop_eq_getElem_cons inside, cutKey_cons_of_plain other plain,
      ← List.take_append_getElem inside]
    exact ⟨List.append_cons .., rfl⟩
  | case4 place outside =>
    rw [keyEnd, dif_neg outside, List.drop_eq_nil_of_le (by omega)]
    exact ⟨List.append_nil _, rfl⟩

theorem cutKey_eq (t : Text) :
    cutKey t = (t.take (keyEnd t 0), t.drop (keyEnd t 0)) := by
  obtain ⟨key, rest⟩ := cutKey_drop t 0
  exact Prod.ext key rest

/-- Where the scan stops, the line is at its end or goes on with a separator or a blank. -/
theorem keyEnd_stops (t : Text) (place : Nat) :
    ∀ c ∈ (t.drop (keyEnd t place)).head?, (isSeparator c || isBlank c) = true := by
  induction place using keyEnd.induct t with
  | case1 place inside slash ih =>
    rw [keyEnd, dif_pos inside, if_pos slash]
    exact ih
  | case2 place inside other stop =>
    rw [keyEnd, dif_pos inside, if_neg other, if_pos stop, List.drop_eq_getElem_cons inside]
    rintro c ⟨⟩
    exact stop
  | case3 place inside other goes ih =>
    rw [keyEnd, dif_pos inside, if_neg other, if_neg goes]
    exact ih
  | case4 place outside =>
    rw [keyEnd, dif_neg outside, List.drop_eq_nil_of_le (by omega)]
    exact nofun

/-- A scan has come to a place of a line over whole units, and none of them ends a key. -/
def Scanned (t : Text) (place : Nat) : Prop :=
  ∃ units rest, t = LineUnit.join units ++ rest ∧ (LineUnit.join units).length = place ∧
    ∀ unit ∈ units, unit.endsKey = false

namespace Scanned

variable {t : Text} {place : Nat}

theorem start (t : Text) : Scanned t 0 := ⟨[], t, rfl, rfl, nofun⟩

theorem le_length (scanned : Scanned t place) : place ≤ t.length := by
  obtain ⟨units, rest, rfl, rfl, -⟩ := scanned
  rw [List.length_append]
  exact Nat.le_add_right _ _

theorem exists_take_eq (scanned : Scanned t place) :
    ∃ units, LineUnit.join units = t.take place ∧ ∀ unit ∈ units, unit.endsKey = false := by
  obtain ⟨units, rest, rfl, rfl, inner⟩ := scanned
  exact ⟨units, List.take_left.symm, inner⟩

/-- What is left of a whole line is whole at every place that a scan comes to. -/
theorem continues_drop (scanned : Scanned t place) :
    continues (t.drop place) = continues t := by
  obtain ⟨units, rest, rfl, rfl, -⟩ := scanned
  rw [List.drop_left, continues_append (LineUnit.continues_join units)]

/-- One unit more. -/
theorem step (scanned : Scanned t place) (unit : LineUnit) (inner : unit.endsKey = false)
    (later : Text) (next : t.drop place = unit.text ++ later) :
    Scanned t (place + unit.text.length) := by
  obtain ⟨units, rest, rfl, rfl, before⟩ := scanned
  rw [List.drop_left] at next
  refine ⟨units ++ [unit], later, ?_, ?_, ?_⟩
  · rw [LineUnit.join_concat, next, List.append_assoc]
  · rw [LineUnit.join_concat, List.length_append]
  · exact List.forall_mem_append.2 ⟨before, List.forall_mem_singleton.2 inner⟩

/-- The scan of a whole line goes from unit to unit until it stops. -/
theorem to_keyEnd (whole : continues t = false) (scanned : Scanned t place) :
    Scanned t (keyEnd t place) := by
  induction place using keyEnd.induct t with
  | case1 place inside slash ih =>
    -- The line cannot end behind this backslash, for then it would end in the half of an escape.
    have left := scanned.continues_drop.trans whole
    rw [List.drop_eq_getElem_cons inside, slash] at left
    rw [keyEnd, dif_pos inside, if_pos slash]
    cases after : t.drop (place + 1) with
    | nil =>
      rw [after, continues_backslash] at left
      cases left
    | cons c later =>
      refine ih (scanned.step (.escape c) rfl later ?_)
      rw [List.drop_eq_getElem_cons inside, slash, after]
      rfl
  | case2 place inside other stop =>
    rw [keyEnd, dif_pos inside, if_neg other, if_pos stop]
    exact scanned
  | case3 place inside other goes ih =>
    rw [keyEnd, dif_pos inside, if_neg other, if_neg goes]
    exact ih (scanned.step (.bare t[place] other) (Bool.eq_false_iff.2 goes)
      (t.drop (place + 1)) (List.drop_eq_getElem_cons inside))
  | case4 place outside =>
    rw [keyEnd, dif_neg outside]
    exact scanned

end Scanned

/-! ## The separator -/

/-- Nothing at the start of a value could belong to the separator before it. Where there is no
separator, there is no value either. -/
def EndsBefore : Option Separator → Text → Prop
  | none, value => value = []
  | some (.sign ..), value => ∀ c ∈ value.head?, isBlank c = false
  | some (.blanks ..), value => ∀ c ∈ value.head?, isBlank c = false ∧ isSeparator c = false

theorem exists_blanks_append (t : Text) : ∃ blanks : Blanks, t = blanks.val ++ trimBlanks t :=
  ⟨⟨t.takeWhile isBlank, fun _ mem => List.mem_takeWhile_imp mem⟩,
    List.takeWhile_append_dropWhile.symm⟩

theorem isBlank_of_mem_head?_trimBlanks {t : Text} {c : CodePoint}
    (first : c ∈ (trimBlanks t).head?) : isBlank c = false := by
  have bare := List.head?_dropWhile_not isBlank t
  rw [trimBlanks] at first
  rw [first] at bare
  simpa using bare

/-- What comes after a key is a separator and the value, with nothing between them. -/
theorem exists_separator {rest : Text}
    (stops : ∀ c ∈ rest.head?, (isSeparator c || isBlank c) = true) :
    ∃ separator : Option Separator, rest = separator.elim [] Separator.text ++ dropSeparator rest ∧
      EndsBefore separator (dropSeparator rest) := by
  obtain ⟨before, split⟩ := exists_blanks_append rest
  by_cases signed : ∃ c after, trimBlanks rest = c :: after ∧ isSeparator c = true
  · obtain ⟨c, after, trimmed, sign⟩ := signed
    obtain ⟨behind, tail⟩ := exists_blanks_append after
    rw [dropSeparator_of_sign trimmed sign]
    refine ⟨some (.sign before c sign behind), ?_, fun _ => isBlank_of_mem_head?_trimBlanks⟩
    rw [Option.elim_some, Separator.text, List.append_assoc, List.cons_append, ← tail, ← trimmed]
    exact split
  · have unsigned : ∀ c ∈ (trimBlanks rest).head?, isSeparator c = false := by
      intro c first
      obtain ⟨after, trimmed⟩ := List.head?_eq_some_iff.1 first
      exact Bool.eq_false_iff.2 fun sign => signed ⟨c, after, trimmed, sign⟩
    rw [dropSeparator_of_unsigned unsigned]
    obtain ⟨t, blank⟩ := before
    cases t with
    | nil =>
      -- A value would have to start with what is neither a separator nor a blank.
      refine ⟨none, split, List.head?_eq_none_iff.1 ?_⟩
      refine Option.eq_none_iff_forall_not_mem.2 fun c first => ?_
      have here : c ∈ rest.head? := by
        rw [split]
        exact first
      have stop := stops c here
      rw [unsigned c first, isBlank_of_mem_head?_trimBlanks first] at stop
      cases stop
    | cons d more =>
      obtain ⟨first, others⟩ := List.forall_mem_cons.1 blank
      exact ⟨some (.blanks d first ⟨more, others⟩), split,
        fun c mem => ⟨isBlank_of_mem_head?_trimBlanks mem, unsigned c mem⟩⟩

theorem continues_separator (separator : Option Separator) :
    continues (separator.elim [] Separator.text) = false := by
  cases separator with
  | none => exact continues_nil
  | some separator =>
    exact continues_append_plain continues_nil fun _ mem => (Separator.plain_of_mem_text mem).1

/-! ## Keys and values -/

/-- No escape of a text is cut in two. The text is made of units in exactly one way. However far its
escapes are resolved, no backslash is left that nothing comes after; and they are resolved to the
end of the text, unless an escape by number lacks its digits. -/
structure IsUncut (t : Text) : Prop where
  units : ∃! units, LineUnit.join units = t
  onward : ∀ given left, Resolves t given left →
    left ≠ (['\\'] : Text) ∧ unescape t = (unescape left).map (given ++ ·)
  resolved : ∀ s, unescape t = .ok s ↔ Resolves t s []
  refused : ∀ fault, unescape t = .error fault ↔
    ∃ given left, Resolves t given left ∧ IsMalformed left fault.digits

theorem isUncut_of_continues {t : Text} (whole : continues t = false) : IsUncut t where
  units := by
    obtain ⟨units, join⟩ := LineUnit.exists_join_eq whole
    exact ⟨units, join, fun _ other => LineUnit.join_injective (other.trans join.symm)⟩
  onward := fun _ _ resolves => ⟨resolves.ne_backslash whole, resolves.unescape_eq⟩
  resolved := unescape_eq_ok_iff whole
  refused := unescape_eq_error_iff whole

/-- The passes of a reading hand on whole escapes only. The scan for the end of the key stops within
the logical line, and the key is what it goes over. The line is the key, a separator, and the value.
The key is made of units that do not end a key, and no escape of the key or the value is cut in
two. -/
theorem splitEntry_keeps_escapes {t line : Text} {number : Nat}
    (mem : (number, line) ∈ logicalLines t) :
    keyEnd line 0 ≤ line.length ∧
    splitEntry line = (line.take (keyEnd line 0), dropSeparator (line.drop (keyEnd line 0))) ∧
    (∃ separator : Option Separator,
      line = (splitEntry line).1 ++
        (separator.elim [] Separator.text ++ (splitEntry line).2) ∧
      EndsBefore separator (splitEntry line).2) ∧
    (∃ units, LineUnit.join units = (splitEntry line).1 ∧
      ∀ unit ∈ units, unit.endsKey = false) ∧
    IsUncut (splitEntry line).1 ∧ IsUncut (splitEntry line).2 := by
  have whole : continues line = false := continues_of_mem_logicalLinesFrom mem
  have scanned : Scanned line (keyEnd line 0) := (Scanned.start line).to_keyEnd whole
  have split : splitEntry line =
      (line.take (keyEnd line 0), dropSeparator (line.drop (keyEnd line 0))) := by
    rw [splitEntry, cutKey_eq]
  obtain ⟨units, key, inner⟩ := scanned.exists_take_eq
  obtain ⟨separator, rest, ends⟩ := exists_separator (keyEnd_stops line 0)
  have value : continues (dropSeparator (line.drop (keyEnd line 0))) = false := by
    rw [← continues_append (continues_separator separator), ← rest, scanned.continues_drop]
    exact whole
  rw [split]
  refine ⟨scanned.le_length, rfl, ⟨separator, ?_, ends⟩, ⟨units, key, inner⟩, ?_,
    isUncut_of_continues value⟩
  · rw [← rest, List.take_append_drop]
  · rw [← key]
    exact isUncut_of_continues (LineUnit.continues_join units)

/-- Three backslashes ask for the next line, and so do those at the end of the text. An escaped
separator starts the second line, an escaped blank starts the value. -/
def joinedText : Text := "k\\\\\\\n \\=\\u00e9 : \\ v\\\\\\"

def joinedLine : Text := "k\\\\\\=\\u00e9 : \\ v\\\\"

def joinedEntry : Text × Text := ("k\\\\\\=\\u00e9", "\\ v\\\\")

theorem splitEntry_keeps_escapes_joined :
    (1, joinedLine) ∈ logicalLines joinedText ∧ splitEntry joinedLine = joinedEntry ∧
    keyEnd joinedLine 0 ≤ joinedLine.length ∧ IsUncut joinedEntry.1 ∧ IsUncut joinedEntry.2 ∧
    Resolves joinedEntry.1 "k\\=é" [] ∧ Resolves joinedEntry.2 " v\\" [] := by
  have mem : (1, joinedLine) ∈ logicalLines joinedText := by decide +kernel
  have split : splitEntry joinedLine = joinedEntry := by decide +kernel
  obtain ⟨inside, -, -, -, key, value⟩ := splitEntry_keeps_escapes mem
  rw [split] at key value
  exact ⟨mem, split, inside, key, value, (key.resolved _).1 (by decide +kernel),
    (value.resolved _).1 (by decide +kernel)⟩

end PropertyToolkit.PropertyFile
