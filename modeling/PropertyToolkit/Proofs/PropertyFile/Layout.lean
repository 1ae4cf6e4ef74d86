import Mathlib.Logic.Basic
import PropertyToolkit.Proofs.PropertyFile.Lines
import PropertyToolkit.Proofs.Text.Utf8
import PropertyToolkit.PropertyFile.Load

/-!
All that a property file may look like for one list of entries. Each code point has its forms, forms
may be parted by continuations, keys and values by separators, and entries by blank lines and
comments. None of this is left in what is read.
-/

set_option autoImplicit false

namespace PropertyToolkit.PropertyFile

/-! ## Spellings -/

abbrev ClosedForm := { form : Form // form.isClosed = true }

/-- A form, with the continuations before it. -/
structure Piece where
  continuations : List Continuation
  form : ClosedForm

def Piece.text (piece : Piece) : Text :=
  piece.continuations.flatMap Continuation.text ++ piece.form.val.text

/-- A text in forms that continuations may stand between. -/
structure Spelling where
  first : ClosedForm
  rest : List Piece

namespace Spelling

def text (spelling : Spelling) : Text :=
  spelling.first.val.text ++ spelling.rest.flatMap Piece.text

def forms (spelling : Spelling) : List Form :=
  spelling.first.val :: spelling.rest.map fun piece => piece.form.val

theorem isClosed_of_mem_forms (spelling : Spelling) :
    ∀ form ∈ spelling.forms, form.isClosed = true := by
  rw [forms, List.forall_mem_cons]
  refine ⟨spelling.first.property, fun form mem => ?_⟩
  obtain ⟨piece, -, rfl⟩ := List.mem_map.1 mem
  exact piece.form.property

end Spelling

/-- The next piece of a spelling is told from the blanks before it. -/
theorem Piece.head_text (piece : Piece) (rest : Text) :
    ∀ c ∈ (piece.text ++ rest).head?, isBlank c = false ∧ isBreak c = false := by
  obtain ⟨continuations, form, closed⟩ := piece
  cases continuations with
  | nil =>
    obtain ⟨d, more, text, layout⟩ := exists_text_eq_cons closed
    have mem : d ∈ form.text := text ▸ List.mem_cons_self ..
    have inner : isBreak d = false := isBreak_of_mem_text mem
    rw [Piece.text, List.flatMap_nil, List.nil_append, text, List.cons_append, List.head?_cons]
    rintro c ⟨⟩
    exact ⟨isBlank_of_isLayout layout, inner⟩
  | cons continuation continuations =>
    rintro c ⟨⟩
    decide

theorem contents_piece (indent : Blanks) {stem : Text} (isStem : IsStem stem)
    (piece : Piece) (rest : Text) :
    contents (physicalLines (indent.val ++ (stem ++ (piece.text ++ rest)))) =
      contents (physicalLines (indent.val ++ (stem ++ (piece.form.val.text ++ rest)))) := by
  obtain ⟨continuations, form⟩ := piece
  induction continuations with
  | nil => rfl
  | cons continuation continuations ih =>
    have next := Piece.head_text ⟨continuations, form⟩ rest
    have step := contents_continuation indent isStem continuation next
    rw [← ih, ← step]
    simp only [Piece.text, List.flatMap_cons, List.append_assoc]

/-- Pieces after the start of an entry are read as their forms. -/
theorem contents_pieces (indent : Blanks) {stem : Text} (isStem : IsStem stem)
    (pieces : List Piece) (rest : Text) :
    contents (physicalLines (indent.val ++ (stem ++ (pieces.flatMap Piece.text ++ rest)))) =
      contents (physicalLines (indent.val ++
        (stem ++ (Form.join (pieces.map fun piece => piece.form.val) ++ rest)))) := by
  induction pieces generalizing stem with
  | nil => rfl
  | cons piece pieces ih =>
    rw [List.flatMap_cons, List.append_assoc, contents_piece indent isStem,
      ← List.append_assoc stem, ih (isStem.append_text piece.form.val), List.map_cons,
      Form.join_cons, List.append_assoc, List.append_assoc]

theorem contents_spelling (indent : Blanks) {stem : Text} (isStem : IsStem stem)
    (spelling : Spelling) (rest : Text) :
    contents (physicalLines (indent.val ++ (stem ++ (spelling.text ++ rest)))) =
      contents (physicalLines (indent.val ++
        (stem ++ (Form.join spelling.forms ++ rest)))) := by
  obtain ⟨first, pieces⟩ := spelling
  have tail := contents_pieces indent (isStem.append_text first.val) pieces rest
  simpa only [Spelling.text, Spelling.forms, Form.join_cons, List.append_assoc] using tail

/-! ## Entries -/

structure SpelledEntry where
  indent : Blanks
  key : Spelling
  separator : Separator
  /-- An empty value is not spelled. -/
  value : Option Spelling

namespace SpelledEntry

def text (entry : SpelledEntry) : Text :=
  entry.indent.val ++
    (entry.key.text ++ (entry.separator.text ++ entry.value.elim [] Spelling.text))

/-- The entry without its continuations. -/
def forms (entry : SpelledEntry) : EntryForms where
  key := entry.key.forms
  separator := entry.separator
  value := entry.value.elim [] Spelling.forms
  named := List.cons_ne_nil _ _
  closed := entry.key.isClosed_of_mem_forms
  bare := by
    cases entry.value with
    | none => exact nofun
    | some value =>
      exact fun form mem => value.isClosed_of_mem_forms form (List.mem_of_mem_head? mem)

/-- The continuations of an entry leave no trace. -/
theorem contents_forms (entry : SpelledEntry) (rest : Text) :
    contents (physicalLines (entry.text ++ rest)) =
      contents (physicalLines (entry.indent.val ++ (entry.forms.line ++ rest))) := by
  have isStem := entry.forms.isStem_key
  obtain ⟨indent, key, separator, value⟩ := entry
  -- The pieces of the key go on from its first form, those of the value from the joined key.
  have key_joined := contents_pieces indent (isStem_text key.first.property) key.rest
    (separator.text ++ (value.elim [] Spelling.text ++ rest))
  have value_joined :
      contents (physicalLines (indent.val ++ ((Form.join key.forms ++ separator.text) ++
        (value.elim [] Spelling.text ++ rest)))) =
      contents (physicalLines (indent.val ++ ((Form.join key.forms ++ separator.text) ++
        (Form.join (value.elim [] Spelling.forms) ++ rest)))) := by
    cases value with
    | none => rfl
    | some value => exact contents_spelling indent isStem value rest
  rw [List.append_assoc (Form.join key.forms), List.append_assoc (Form.join key.forms)]
    at value_joined
  simp only [text, forms, EntryForms.line, Spelling.text, List.append_assoc]
  refine key_joined.trans (Eq.trans ?_ value_joined)
  rw [Spelling.forms, Form.join_cons, List.append_assoc]

/-- However an entry is written, it is one logical line. -/
theorem contents_text (entry : SpelledEntry) {rest : Text} (ended : IsEnded rest) :
    contents (physicalLines (entry.text ++ rest)) =
      entry.forms.line :: contents (physicalLines rest) := by
  rw [contents_forms, entry.forms.isStem_line.contents_append entry.indent ended]

end SpelledEntry

/-! ## Files -/

/-- What may stand between two breaks, continuations apart. -/
inductive Item where
  | blank (blanks : Blanks)
  | comment (indent : Blanks) (mark : CodePoint) (marks : mark = '#' ∨ mark = '!') (note : Text)
      (unbroken : ∀ c ∈ note, isBreak c = false)
  | entry (spelled : SpelledEntry)

namespace Item

def text : Item → Text
  | blank blanks => blanks.val
  | comment indent mark _ note _ => indent.val ++ (mark :: note)
  | entry spelled => spelled.text

def entries : Item → List EntryForms
  | blank _ | comment .. => []
  | entry spelled => [spelled.forms]

theorem contents_text (item : Item) {rest : Text} (ended : IsEnded rest) :
    contents (physicalLines (item.text ++ rest)) =
      item.entries.map EntryForms.line ++ contents (physicalLines rest) := by
  cases item with
  | blank blanks =>
    have trimmed := trimBlanks_append blanks []
    rw [List.append_nil] at trimmed
    have skipped : startsEntry (trimBlanks blanks.val) = false := by
      rw [trimmed]
      rfl
    exact contents_append_of_skipped blanks.unbroken skipped ended
  | comment indent mark marks note unbroken =>
    have plain : isBlank mark = false ∧ isBreak mark = false := by
      rcases marks with rfl | rfl <;> decide
    have inner : ∀ c ∈ indent.val ++ (mark :: note), isBreak c = false :=
      List.forall_mem_append.2 ⟨indent.unbroken, List.forall_mem_cons.2 ⟨plain.2, unbroken⟩⟩
    have skipped : startsEntry (trimBlanks (indent.val ++ (mark :: note))) = false := by
      rw [trimBlanks_append, trimBlanks_of_ne plain.1, startsEntry]
      rcases marks with rfl | rfl <;> decide
    exact contents_append_of_skipped inner skipped ended
  | entry spelled => exact spelled.contents_text ended

end Item

/-- A file: items that end in breaks, and a last one that does not. -/
structure Layout where
  items : List (Item × LineBreak)
  last : Item

namespace Layout

def text (layout : Layout) : Text :=
  (layout.items.flatMap fun item => item.1.text ++ item.2.text) ++ layout.last.text

def forms (layout : Layout) : List EntryForms :=
  (layout.items.flatMap fun item => item.1.entries) ++ layout.last.entries

/-- The entries that a file is about. -/
def entries (layout : Layout) : List (Text × Text) := layout.forms.map EntryForms.content

theorem contents_text (layout : Layout) :
    contents (physicalLines layout.text) = layout.forms.map EntryForms.line := by
  obtain ⟨items, last⟩ := layout
  induction items with
  | nil =>
    have ended : IsEnded [] := nofun
    have only := last.contents_text ended
    have empty : contents (physicalLines []) = [] := (contents_nil_cons []).trans contents_nil
    rwa [List.append_nil, empty, List.append_nil] at only
  | cons item items ih =>
    obtain ⟨item, ending⟩ := item
    have first := item.contents_text (isEnded_break ending (text ⟨items, last⟩))
    rw [contents_break, ih] at first
    simpa only [text, forms, List.flatMap_cons, List.append_assoc, List.map_append] using first

theorem read_text (layout : Layout) : read layout.text = ⟨Table.ofList layout.entries, []⟩ :=
  read_of_contents layout.contents_text

end Layout

/-! ## Loading -/

/-- A file in the line format has some text. -/
structure HasLines (files : Files) (path : Path) (t : Text) : Prop where
  nameable : path.isNameable = true
  kind : Language.ofType? path.fileType = some .lines
  written : ∃ bytes, files path = .ok bytes ∧ Utf8.encode t = .ok bytes

theorem load_of_hasLines {files : Files} {path : Path} {t : Text}
    (file : HasLines files path t) : load files path = .ofReading (read t) := by
  obtain ⟨bytes, found, written⟩ := file.written
  rw [load, Path.nameFault?_of_isNameable file.nameable, found]
  simp only [Utf8.decode_of_encode written, loadText, file.kind, read_withLineFeeds]

/-! ## Every list of entries has a file -/

theorem plain_of_large {c : CodePoint} (large : 0x10000 ≤ c.value) :
    (c ≠ '\\' ∧ isBreak c = false) ∧ isLayout c = false := by
  have other (d : Char) (small : d.toNat < 0x10000) : c ≠ d := by
    rintro rfl
    exact absurd large (Nat.not_le.2 small)
  simp [isBreak, isLayout, isSeparator, isBlank, other]

/-- A form for any code point, by number if it has one. -/
def Form.plainest (c : CodePoint) : ClosedForm :=
  if small : c.value < 0x10000 then ⟨numbered ⟨c.value, small⟩ fun _ => false, rfl⟩
  else
    have plain := plain_of_large (Nat.le_of_not_lt small)
    ⟨raw c plain.1, by rw [isClosed, plain.2]; rfl⟩

theorem Form.codePoint_plainest (c : CodePoint) : (plainest c).val.codePoint = c := by
  unfold plainest
  split <;> rfl

theorem Form.isSurrogate_plainest (c : CodePoint) :
    ∀ d ∈ (plainest c).val.text, d.isSurrogate = false := by
  have digits : ∀ n capital, (hexDigit n capital).isSurrogate = false := by decide
  unfold plainest
  split
  · next small =>
    simp only [text, List.map_cons, List.map_nil, List.forall_mem_cons, digits]
    decide
  · next large =>
    simp only [text, List.forall_mem_singleton, CodePoint.isSurrogate, Bool.and_eq_false_iff,
      decide_eq_false_iff_not]
    omega

/-- The forms of a text, one after the other. -/
def Spelling.ofText (c : CodePoint) (rest : Text) : Spelling :=
  ⟨Form.plainest c, rest.map fun d => ⟨[], Form.plainest d⟩⟩

theorem Spelling.codePoint_ofText (c : CodePoint) (rest : Text) :
    (ofText c rest).forms.map Form.codePoint = c :: rest := by
  simp [forms, ofText, Form.codePoint_plainest, Function.comp_def]

theorem Spelling.isSurrogate_ofText (c : CodePoint) (rest : Text) :
    ∀ d ∈ (ofText c rest).text, d.isSurrogate = false := by
  rw [text, List.forall_mem_append]
  refine ⟨Form.isSurrogate_plainest c, fun d mem => ?_⟩
  obtain ⟨piece, listed, here⟩ := List.mem_flatMap.1 mem
  obtain ⟨e, -, rfl⟩ := List.mem_map.1 listed
  exact Form.isSurrogate_plainest e d here

def SpelledEntry.ofContent (c : CodePoint) (key value : Text) : SpelledEntry where
  indent := .none
  key := .ofText c key
  separator := .equals
  value :=
    match value with
    | [] => none
    | d :: value => some (.ofText d value)

theorem SpelledEntry.content_ofContent (c : CodePoint) (key value : Text) :
    (ofContent c key value).forms.content = (c :: key, value) := by
  cases value with
  | nil => exact congrArg (·, []) (Spelling.codePoint_ofText c key)
  | cons d value =>
    exact congrArg₂ Prod.mk (Spelling.codePoint_ofText c key) (Spelling.codePoint_ofText d value)

theorem SpelledEntry.isSurrogate_ofContent (c : CodePoint) (key value : Text) :
    ∀ d ∈ (ofContent c key value).text, d.isSurrogate = false := by
  have sign : ∀ d ∈ (ofContent c key value).separator.text, d.isSurrogate = false := by
    change ∀ d ∈ (['='] : Text), d.isSurrogate = false
    decide
  rw [text, List.forall_mem_append, List.forall_mem_append, List.forall_mem_append]
  refine ⟨nofun, Spelling.isSurrogate_ofText c key, sign, ?_⟩
  cases value with
  | nil => exact nofun
  | cons d value => exact Spelling.isSurrogate_ofText d value

theorem exists_layout {entries : List (Text × Text)} (named : ∀ entry ∈ entries, entry.1 ≠ []) :
    ∃ layout : Layout, layout.entries = entries ∧ ∀ d ∈ layout.text, d.isSurrogate = false := by
  induction entries with
  | nil => exact ⟨⟨[], .blank .none⟩, rfl, nofun⟩
  | cons entry entries ih =>
    rw [List.forall_mem_cons] at named
    obtain ⟨⟨items, last⟩, about, scalar⟩ := ih named.2
    obtain ⟨_ | ⟨c, key⟩, value⟩ := entry
    · exact absurd rfl named.1
    · refine ⟨⟨(.entry (.ofContent c key value), .lineFeed) :: items, last⟩, ?_, ?_⟩
      · exact congrArg₂ List.cons (SpelledEntry.content_ofContent c key value) about
      · have feed : ∀ d ∈ LineBreak.lineFeed.text, d.isSurrogate = false := by
          rw [LineBreak.text, List.forall_mem_singleton]
          decide
        rw [Layout.text, List.flatMap_cons, List.append_assoc, List.append_assoc,
          List.forall_mem_append, List.forall_mem_append]
        exact ⟨SpelledEntry.isSurrogate_ofContent c key value, feed, scalar⟩

/-- Every list of entries has files, and whichever of them is loaded, it gives these entries. -/
theorem load_of_layout {entries : List (Text × Text)}
    (named : ∀ entry ∈ entries, entry.1 ≠ []) :
    (∃ layout : Layout, layout.entries = entries ∧
      ∃ bytes, Utf8.encode layout.text = .ok bytes) ∧
    ∀ layout : Layout, layout.entries = entries →
      read layout.text = ⟨Table.ofList entries, []⟩ ∧
      ∀ files path, HasLines files path layout.text →
        load files path = ⟨.ok (Table.ofList entries), []⟩ := by
  obtain ⟨layout, about, scalar⟩ := exists_layout named
  refine ⟨⟨layout, about, Utf8.exists_encode scalar⟩, ?_⟩
  rintro layout rfl
  refine ⟨layout.read_text, fun files path file => ?_⟩
  rw [load_of_hasLines file, layout.read_text]
  rfl

/-- Comments that end in backslashes, blanks, a key over two lines, breaks and separators of each
kind, and an entry without a value. -/
def scatteredLayout : Layout where
  items := [
    (.comment ⟨[' '], by decide⟩ '!' (.inr rfl) "note\\" (by decide), .carriageReturn),
    (.blank ⟨['\t'], by decide⟩, .both),
    (.entry {
      indent := ⟨[' '], by decide⟩
      key := {
        first := ⟨.raw 'k' (by decide), rfl⟩
        rest := [⟨[⟨.both, ⟨[' ', '\x0c'], by decide⟩⟩], ⟨.quoted '=' (by decide), rfl⟩⟩] }
      separator := .sign ⟨[' '], by decide⟩ ':' rfl ⟨['\t'], by decide⟩
      value := some {
        first := ⟨.numbered ⟨0x20AC, by decide⟩ fun place => place = 1, rfl⟩
        rest := [⟨[], ⟨.control '\t' 't' (by decide), rfl⟩⟩] } }, .lineFeed)]
  last := .entry {
    indent := .none
    key := ⟨⟨.raw 'x' (by decide), rfl⟩, []⟩
    separator := .blanks ' ' rfl .none
    value := none }

theorem load_of_scatteredLayout :
    scatteredLayout.text =
        " !note\\\r\t\r\n k\\\r\n \x0c\\= :\t\\u20aC\\t\nx " ∧
      load (.ofContents fun _ => .ok (scatteredLayout.text.map fun c => UInt8.ofNat c.value))
          (Path.ofText "a.properties") =
        ⟨.ok (Table.ofList [("k=", "€\t"), ("x", "")]), []⟩ := by
  have about : scatteredLayout.entries = ([("k=", "€\t"), ("x", "")] : List (Text × Text)) := by
    decide
  have named : ∀ entry ∈ ([("k=", "€\t"), ("x", "")] : List (Text × Text)), entry.1 ≠ [] := by
    decide
  refine ⟨by decide, ((load_of_layout named).2 scatteredLayout about).2 _ _ ⟨?_, ?_, _, rfl, ?_⟩⟩
  · decide
  · rfl
  · rfl

end PropertyToolkit.PropertyFile
