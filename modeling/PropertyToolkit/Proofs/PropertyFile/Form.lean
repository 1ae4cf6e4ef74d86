import PropertyToolkit.PropertyFile.Read

/-!
The forms in which a code point may stand in a key or a value: as it is, behind a backslash or by
number. Whatever is written in forms is read back form by form. It never ends in the middle of an
escape, and it can be told from the separator unless a form is a bare piece of layout. So an entry
in forms gives its key and its value again.
-/

set_option autoImplicit false

namespace PropertyToolkit.PropertyFile

/-- The control characters with an escape of their own, each with the letter that stands for it. -/
def controls : List (CodePoint × CodePoint) :=
  [('\t', 't'), ('\n', 'n'), ('\r', 'r'), ('\x0c', 'f')]

/-- The code points that stand for themselves behind a backslash. -/
def quotable : List CodePoint := ['\\', ' ', '=', ':', '#', '!']

/-- A hexadecimal digit of either case. -/
def hexDigit (n : Fin 16) (capital : Bool) : CodePoint :=
  if n.val < 10 then ⟨'0'.toNat + n.val, by have := n.isLt; simp; omega⟩
  else if capital then ⟨'A'.toNat + (n.val - 10), by have := n.isLt; simp; omega⟩
  else ⟨'a'.toNat + (n.val - 10), by have := n.isLt; simp; omega⟩

/-- The hexadecimal digit of a number at a place, which is a power of sixteen. -/
def digitAt (unit : Fin 0x10000) (place : Nat) : Fin 16 :=
  ⟨unit.val / place % 16, Nat.mod_lt _ (by decide)⟩

/-- One way to write one code point. -/
inductive Form where
  | raw (c : CodePoint) (plain : c ≠ '\\' ∧ isBreak c = false)
  | control (c letter : CodePoint) (listed : (c, letter) ∈ controls)
  | quoted (c : CodePoint) (listed : c ∈ quotable)
  /-- By number; the case of each digit is free. -/
  | numbered (unit : Fin 0x10000) (capital : Nat → Bool)

/-- A code point that a line gives a meaning of its own: a blank, a separator or a comment mark. -/
def isLayout (c : CodePoint) : Bool := (isSeparator c || isBlank c) || (c = '#' || c = '!')

theorem isBlank_of_isLayout {c : CodePoint} (bare : isLayout c = false) : isBlank c = false :=
  (Bool.or_eq_false_iff.1 (Bool.or_eq_false_iff.1 bare).1).2

namespace Form

/-- The code point that is written. -/
def codePoint : Form → CodePoint
  | raw c _ | control c _ _ | quoted c _ => c
  | numbered unit _ => CodePoint.ofUnit unit

def text : Form → Text
  | raw c _ => [c]
  | control _ letter _ => ['\\', letter]
  | quoted c _ => ['\\', c]
  | numbered unit capital =>
    '\\' :: 'u' :: ([4096, 256, 16, 1].map fun place =>
      hexDigit (digitAt unit place) (capital place))

/-- A form that is no bare piece of layout. -/
def isClosed : Form → Bool
  | raw c _ => !isLayout c
  | _ => true

/-- The text of some forms, one after the other. -/
def join (forms : List Form) : Text := forms.flatMap text

@[simp] theorem join_nil : join [] = [] := rfl

@[simp] theorem join_cons (form : Form) (forms : List Form) :
    join (form :: forms) = form.text ++ join forms := List.flatMap_cons

end Form

/-! ## Reading forms back -/

theorem hexDigit?_hexDigit (n : Fin 16) (capital : Bool) :
    (hexDigit n capital).hexDigit? = some n := by
  revert n capital
  decide

theorem ofHexDigits_digitAt (unit : Fin 0x10000) :
    ofHexDigits (digitAt unit 4096) (digitAt unit 256) (digitAt unit 16) (digitAt unit 1) =
      CodePoint.ofUnit unit := by
  have bound := unit.isLt
  apply CodePoint.ext
  simp only [ofHexDigits, digitAt, CodePoint.ofUnit]
  omega

theorem unescape_cons_of_ne {c : CodePoint} (plain : c ≠ '\\') (rest : Text) :
    unescape (c :: rest) = (unescape rest).map (c :: ·) := by
  cases rest with
  | nil => rfl
  | cons d rest =>
    rw [unescape.eq_def]
    exact if_neg plain

theorem unescape_escaped {c : CodePoint} (other : c ≠ 'u') (rest : Text) :
    unescape ('\\' :: c :: rest) = (unescape rest).map (escaped c :: ·) := by
  rw [unescape.eq_def]
  exact if_neg other

theorem unescape_numbered (unit : Fin 0x10000) (capital : Nat → Bool) (rest : Text) :
    unescape ((Form.numbered unit capital).text ++ rest) =
      (unescape rest).map (CodePoint.ofUnit unit :: ·) := by
  simp only [Form.text, List.map_cons, List.map_nil, List.cons_append, List.nil_append]
  rw [unescape, if_pos rfl, if_pos rfl]
  simp only [hexDigit?_hexDigit, ofHexDigits_digitAt]

theorem escaped_of_control {c letter : CodePoint} (listed : (c, letter) ∈ controls) :
    letter ≠ 'u' ∧ escaped letter = c := by
  have all : ∀ entry ∈ controls, entry.2 ≠ 'u' ∧ escaped entry.2 = entry.1 := by decide
  exact all (c, letter) listed

theorem escaped_of_quotable {c : CodePoint} (listed : c ∈ quotable) :
    c ≠ 'u' ∧ escaped c = c := by
  revert c
  decide

/-- A form gives its code point, whatever follows. -/
theorem unescape_text_append (form : Form) (rest : Text) :
    unescape (form.text ++ rest) = (unescape rest).map (form.codePoint :: ·) := by
  cases form with
  | raw c plain => exact unescape_cons_of_ne plain.1 rest
  | control c letter listed =>
    obtain ⟨other, same⟩ := escaped_of_control listed
    have read := unescape_escaped other rest
    rw [same] at read
    exact read
  | quoted c listed =>
    obtain ⟨other, same⟩ := escaped_of_quotable listed
    have read := unescape_escaped other rest
    rw [same] at read
    exact read
  | numbered unit capital => exact unescape_numbered unit capital rest

theorem unescape_join (forms : List Form) :
    unescape (Form.join forms) = .ok (forms.map Form.codePoint) := by
  induction forms with
  | nil => rfl
  | cons form rest ih =>
    rw [Form.join_cons, unescape_text_append, ih]
    rfl

/-! ## Forms within lines -/

theorem continues_nil : continues [] = false := rfl

theorem continues_backslash : continues (['\\'] : Text) = true := rfl

theorem continues_concat (line : Text) (c : CodePoint) :
    continues (line ++ [c]) = if c = '\\' then !continues line else false := by
  unfold continues
  rw [List.reverse_append, List.reverse_singleton, List.singleton_append, List.takeWhile_cons]
  by_cases slash : c = '\\'
  · simp only [slash, decide_true, ↓reduceIte, List.length_cons]
    have parity := Nat.mod_two_eq_zero_or_one
      (line.reverse.takeWhile fun c : CodePoint => c = '\\').length
    rw [← decide_not, decide_eq_decide]
    omega
  · simp only [slash, decide_false, Bool.false_eq_true, ↓reduceIte, List.length_nil]
    decide

theorem continues_concat_of_ne {c : CodePoint} (other : c ≠ '\\') (line : Text) :
    continues (line ++ [c]) = false := by
  rw [continues_concat, if_neg other]

theorem hexDigit_ne_backslash (n : Fin 16) (capital : Bool) : hexDigit n capital ≠ '\\' := by
  revert n capital
  decide

/-- A backslash with a code point after it is complete, whichever code point this is. -/
theorem continues_append_pair {line : Text} (complete : continues line = false) (c : CodePoint) :
    continues (line ++ (['\\', c] : Text)) = false := by
  rw [List.append_cons, continues_concat]
  by_cases slash : c = '\\'
  · rw [if_pos slash, continues_concat, if_pos rfl, complete]
    rfl
  · exact if_neg slash

/-- A form is complete: no backslash of it joins with what comes after. -/
theorem continues_append_text {line : Text} (complete : continues line = false) (form : Form) :
    continues (line ++ form.text) = false := by
  cases form with
  | raw c plain => exact continues_concat_of_ne plain.1 line
  | control c letter listed => exact continues_append_pair complete letter
  | quoted c listed => exact continues_append_pair complete c
  | numbered unit capital =>
    have last := hexDigit_ne_backslash (digitAt unit 1) (capital 1)
    let start : Text := '\\' :: 'u' :: ([4096, 256, 16].map fun place =>
      hexDigit (digitAt unit place) (capital place))
    have ending := continues_concat_of_ne last (line ++ start)
    rw [List.append_assoc] at ending
    exact ending

theorem continues_append_plain {line : Text} (complete : continues line = false) {t : Text}
    (plain : ∀ c ∈ t, c ≠ '\\') : continues (line ++ t) = false := by
  induction t generalizing line with
  | nil =>
    rw [List.append_nil]
    exact complete
  | cons c t ih =>
    rw [List.forall_mem_cons] at plain
    rw [List.append_cons]
    exact ih (continues_concat_of_ne plain.1 line) plain.2

theorem continues_append_join {line : Text} (complete : continues line = false)
    (forms : List Form) : continues (line ++ Form.join forms) = false := by
  induction forms generalizing line with
  | nil =>
    rw [Form.join_nil, List.append_nil]
    exact complete
  | cons form rest ih =>
    rw [Form.join_cons, ← List.append_assoc]
    exact ih (continues_append_text complete form)

/-- No form breaks its line. -/
theorem isBreak_of_mem_text {form : Form} {c : CodePoint} (mem : c ∈ form.text) :
    isBreak c = false := by
  have slash : isBreak '\\' = false := by decide
  cases form with
  | raw d plain =>
    rw [List.mem_singleton.1 mem]
    exact plain.2
  | control d letter listed =>
    have all : ∀ entry ∈ controls, isBreak entry.2 = false := by decide
    rcases List.mem_cons.1 mem with rfl | mem
    · exact slash
    · rw [List.mem_singleton.1 mem]
      exact all _ listed
  | quoted d listed =>
    have all : ∀ d ∈ quotable, isBreak d = false := by decide
    rcases List.mem_cons.1 mem with rfl | mem
    · exact slash
    · rw [List.mem_singleton.1 mem]
      exact all _ listed
  | numbered unit capital =>
    have digits : ∀ n capital, isBreak (hexDigit n capital) = false := by decide
    rcases List.mem_cons.1 mem with rfl | mem
    · exact slash
    rcases List.mem_cons.1 mem with rfl | mem
    · decide
    · obtain ⟨place, -, rfl⟩ := List.mem_map.1 mem
      exact digits _ _

theorem isBreak_of_mem_join {forms : List Form} {c : CodePoint} (mem : c ∈ Form.join forms) :
    isBreak c = false := by
  obtain ⟨form, -, here⟩ := List.mem_flatMap.1 mem
  exact isBreak_of_mem_text here

/-! ## Keys and values -/

theorem cutKey_cons_of_plain {c : CodePoint} (other : c ≠ '\\')
    (plain : (isSeparator c || isBlank c) = false) (rest : Text) :
    cutKey (c :: rest) = (c :: (cutKey rest).1, (cutKey rest).2) := by
  cases rest with
  | nil => simp [cutKey, plain]
  | cons d rest => simp [cutKey, other, plain]

theorem cutKey_escape (c : CodePoint) (rest : Text) :
    cutKey ('\\' :: c :: rest) = (('\\' : CodePoint) :: c :: (cutKey rest).1, (cutKey rest).2) := by
  simp [cutKey]

/-- The key ends at a separator or a blank. -/
theorem cutKey_of_stop {c : CodePoint} (stop : (isSeparator c || isBlank c) = true) (rest : Text) :
    cutKey (c :: rest) = ([], c :: rest) := by
  have other : c ≠ '\\' := by
    rintro rfl
    revert stop
    decide
  cases rest with
  | nil => rw [cutKey, if_pos stop]
  | cons d rest => rw [cutKey, if_neg other, if_pos stop]

theorem cutKey_text_append {form : Form} (closed : form.isClosed = true) (rest : Text) :
    cutKey (form.text ++ rest) = (form.text ++ (cutKey rest).1, (cutKey rest).2) := by
  cases form with
  | raw c plain =>
    have bare : isLayout c = false := by simpa [Form.isClosed] using closed
    exact cutKey_cons_of_plain plain.1 (Bool.or_eq_false_iff.1 bare).1 rest
  | control c letter listed => exact cutKey_escape letter rest
  | quoted c listed => exact cutKey_escape c rest
  | numbered unit capital =>
    have plain : ∀ n capital, (isSeparator (hexDigit n capital) || isBlank (hexDigit n capital)) =
        false := by decide
    have digit (place : Nat) (rest : Text) :=
      cutKey_cons_of_plain (hexDigit_ne_backslash (digitAt unit place) (capital place))
        (plain _ _) rest
    simp only [Form.text, List.map_cons, List.map_nil, List.cons_append, List.nil_append]
    rw [cutKey_escape, digit, digit, digit, digit]

theorem cutKey_join_append {forms : List Form} (closed : ∀ form ∈ forms, form.isClosed = true)
    (rest : Text) :
    cutKey (Form.join forms ++ rest) = (Form.join forms ++ (cutKey rest).1, (cutKey rest).2) := by
  induction forms with
  | nil => rfl
  | cons form forms ih =>
    rw [List.forall_mem_cons] at closed
    rw [Form.join_cons, List.append_assoc, cutKey_text_append closed.1, ih closed.2,
      List.append_assoc]

/-- Any number of blanks. -/
abbrev Blanks := { t : Text // ∀ c ∈ t, isBlank c = true }

def Blanks.none : Blanks := ⟨[], List.forall_mem_nil _⟩

@[simp] theorem Blanks.val_none : none.val = [] := rfl

/-- What parts a key from its value. -/
inductive Separator where
  | sign (before : Blanks) (c : CodePoint) (sign : isSeparator c = true) (after : Blanks)
  | blanks (c : CodePoint) (blank : isBlank c = true) (more : Blanks)

def Separator.text : Separator → Text
  | sign before c _ after => before.val ++ (c :: after.val)
  | blanks c _ more => c :: more.val

/-- A sign and nothing around it. -/
def Separator.equals : Separator := .sign .none '=' rfl .none

/-- A separator holds no backslash and no break. -/
theorem Separator.plain_of_mem_text {separator : Separator} {c : CodePoint}
    (mem : c ∈ separator.text) : c ≠ '\\' ∧ isBreak c = false := by
  have stop : isSeparator c = true ∨ isBlank c = true := by
    cases separator with
    | sign before d sign after =>
      rcases List.mem_append.1 mem with front | back
      · exact .inr (before.property c front)
      · rcases List.mem_cons.1 back with rfl | behind
        · exact .inl sign
        · exact .inr (after.property c behind)
    | blanks d blank more =>
      rcases List.mem_cons.1 mem with rfl | later
      · exact .inr blank
      · exact .inr (more.property c later)
  simp only [isSeparator, isBlank, Bool.or_eq_true, decide_eq_true_eq] at stop
  rcases stop with (rfl | rfl) | (rfl | rfl) | rfl <;> decide

theorem isBlank_of_isSeparator {c : CodePoint} (sign : isSeparator c = true) :
    isBlank c = false := by
  rw [isSeparator, Bool.or_eq_true, decide_eq_true_eq, decide_eq_true_eq] at sign
  rcases sign with rfl | rfl <;> decide

theorem trimBlanks_append (blanks : Blanks) (rest : Text) :
    trimBlanks (blanks.val ++ rest) = trimBlanks rest :=
  List.dropWhile_append_of_pos blanks.property

theorem trimBlanks_of_ne {c : CodePoint} (bare : isBlank c = false) (rest : Text) :
    trimBlanks (c :: rest) = c :: rest := by
  rw [trimBlanks, List.dropWhile_cons_of_neg]
  rw [bare]
  exact Bool.false_ne_true

/-- A closed form starts with no layout. -/
theorem exists_text_eq_cons {form : Form} (closed : form.isClosed = true) :
    ∃ c rest, form.text = c :: rest ∧ isLayout c = false := by
  have slash : isLayout '\\' = false := by decide
  cases form with
  | raw c plain =>
    have bare : isLayout c = false := by simpa [Form.isClosed] using closed
    exact ⟨c, [], rfl, bare⟩
  | control c letter listed => exact ⟨_, _, rfl, slash⟩
  | quoted c listed => exact ⟨_, _, rfl, slash⟩
  | numbered unit capital => exact ⟨_, _, rfl, slash⟩

theorem cutKey_separator (separator : Separator) (rest : Text) :
    cutKey (separator.text ++ rest) = ([], separator.text ++ rest) := by
  cases separator with
  | blanks c blank more => exact cutKey_of_stop (by rw [blank, Bool.or_true]) _
  | sign before c sign after =>
    obtain ⟨t, blank⟩ := before
    cases t with
    | nil => exact cutKey_of_stop (by rw [sign, Bool.true_or]) _
    | cons d t => exact cutKey_of_stop (by rw [blank d (List.mem_cons_self ..), Bool.or_true]) _

theorem dropSeparator_of_sign {rest after : Text} {c : CodePoint}
    (trimmed : trimBlanks rest = c :: after) (sign : isSeparator c = true) :
    dropSeparator rest = trimBlanks after := by
  rw [dropSeparator, trimmed]
  exact if_pos sign

theorem dropSeparator_of_unsigned {rest : Text}
    (unsigned : ∀ c ∈ (trimBlanks rest).head?, isSeparator c = false) :
    dropSeparator rest = trimBlanks rest := by
  rw [dropSeparator]
  cases trimmed : trimBlanks rest with
  | nil => rfl
  | cons c after =>
    rw [trimmed] at unsigned
    exact if_neg (Bool.eq_false_iff.1 (unsigned c rfl))

/-- The separator goes away up to a value that starts with a closed form. -/
theorem dropSeparator_separator (separator : Separator) {value : List Form}
    (closed : ∀ form ∈ value.head?, form.isClosed = true) :
    dropSeparator (separator.text ++ Form.join value) = Form.join value := by
  -- Neither the blanks nor the sign can reach into the value.
  have bare : trimBlanks (Form.join value) = Form.join value ∧
      ∀ c ∈ (Form.join value).head?, isSeparator c = false := by
    cases value with
    | nil => exact ⟨rfl, nofun⟩
    | cons form rest =>
      obtain ⟨c, more, text, layout⟩ := exists_text_eq_cons (closed form rfl)
      obtain ⟨unsigned, blank⟩ := Bool.or_eq_false_iff.1 (Bool.or_eq_false_iff.1 layout).1
      rw [Form.join_cons, text]
      refine ⟨trimBlanks_of_ne blank _, ?_⟩
      rintro d ⟨⟩
      exact unsigned
  cases separator with
  | sign before c sign after =>
    have trimmed : trimBlanks ((Separator.sign before c sign after).text ++ Form.join value) =
        c :: (after.val ++ Form.join value) := by
      rw [Separator.text, List.append_assoc, trimBlanks_append, List.cons_append,
        trimBlanks_of_ne (isBlank_of_isSeparator sign)]
    rw [dropSeparator_of_sign trimmed sign, trimBlanks_append, bare.1]
  | blanks c blank more =>
    have trimmed : trimBlanks ((Separator.blanks c blank more).text ++ Form.join value) =
        Form.join value :=
      (trimBlanks_append ⟨c :: more.val, List.forall_mem_cons.2 ⟨blank, more.property⟩⟩ _).trans
        bare.1
    have unsigned := bare.2
    rw [← trimmed] at unsigned
    rw [dropSeparator_of_unsigned unsigned, trimmed]

/-- An entry in forms. Its key holds no bare layout, and its value starts with none. -/
structure EntryForms where
  key : List Form
  separator : Separator
  value : List Form
  named : key ≠ []
  closed : ∀ form ∈ key, form.isClosed = true
  bare : ∀ form ∈ value.head?, form.isClosed = true

namespace EntryForms

/-- The logical line of an entry. -/
def line (entry : EntryForms) : Text :=
  Form.join entry.key ++ (entry.separator.text ++ Form.join entry.value)

/-- The key and the value that are written. -/
def content (entry : EntryForms) : Text × Text :=
  (entry.key.map Form.codePoint, entry.value.map Form.codePoint)

/-- The key and the value are read back, whatever parts them. -/
theorem readEntry_line (entry : EntryForms) (number : Nat) :
    readEntry number entry.line = .ok entry.content := by
  have split : splitEntry entry.line = (Form.join entry.key, Form.join entry.value) := by
    rw [splitEntry, line, cutKey_join_append entry.closed, cutKey_separator]
    simp only [List.append_nil, dropSeparator_separator entry.separator entry.bare]
  have named : entry.key.map Form.codePoint ≠ [] := by
    rw [ne_eq, List.map_eq_nil_iff]
    exact entry.named
  simp only [readEntry, split, unescape_join, if_neg named]
  rfl

end EntryForms

end PropertyToolkit.PropertyFile
