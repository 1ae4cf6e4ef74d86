import Mathlib.Data.List.Nodup
import PropertyToolkit.Proofs.PropertyFile.Lines
import PropertyToolkit.Proofs.Table
import PropertyToolkit.Proofs.Text.Utf16

/-!
Files that are stored as `java.util.Properties` stores them. What has no plain form is escaped by
number, unit by unit of UTF-16, and each number is read back as a code point of its own. So a
character past `U+FFFF` comes back as two surrogates; all else comes back as it was.
-/

set_option autoImplicit false

namespace PropertyToolkit.PropertyFile

/-! ## Characters -/

theorem plain_of_printable {c : Char} (low : 0x20 ≤ c.toNat)
    (unlisted : (c : CodePoint) ∉ quotable) :
    ((c : CodePoint) ≠ '\\' ∧ isBreak c = false) ∧ isLayout c = false := by
  have other {d : CodePoint} (listed : d ∈ quotable) : (c : CodePoint) ≠ d := by
    rintro rfl
    exact unlisted listed
  have above (d : Char) (control : d.toNat < 0x20) : (c : CodePoint) ≠ d := by
    intro same
    have number : c.toNat = d.toNat := congrArg CodePoint.value same
    omega
  have unbroken : isBreak c = false := by
    simp [isBreak, above]
  have bare : isLayout c = false := by
    have listed : (' ' : CodePoint) ∈ quotable ∧ ('=' : CodePoint) ∈ quotable ∧
        (':' : CodePoint) ∈ quotable ∧ ('#' : CodePoint) ∈ quotable ∧
        ('!' : CodePoint) ∈ quotable := by decide
    simp [isLayout, isSeparator, isBlank, above, other listed.1, other listed.2.1,
      other listed.2.2.1, other listed.2.2.2.1, other listed.2.2.2.2]
  exact ⟨⟨other (by decide), unbroken⟩, bare⟩

/-- The form of a character that is not stored by number. A space may be allowed to stand plain. -/
def shortForm? (spacePlain : Bool) (c : Char) : Option Form :=
  match found : controls.find? fun entry => entry.1 = (c : CodePoint) with
  | some entry => some (.control entry.1 entry.2 (List.mem_of_find?_eq_some found))
  | none =>
    if spacePlain ∧ c = ' ' then some (.raw ' ' (by decide))
    else if listed : (c : CodePoint) ∈ quotable then some (.quoted c listed)
    else if range : 0x20 ≤ c.toNat ∧ c.toNat ≤ 0x7E then
      some (.raw c (plain_of_printable range.1 listed).1)
    else none

/-- The forms that a character is stored in. -/
def stored (spacePlain : Bool) (c : Char) : List Form :=
  match shortForm? spacePlain c with
  | some form => [form]
  | none => (Utf16.units c).map fun unit => .numbered unit fun _ => true

theorem shortForm?_eq_some {spacePlain : Bool} {c : Char} {form : Form}
    (short : shortForm? spacePlain c = some form) :
    form.codePoint = c ∧ c.toNat < 0x10000 ∧ (spacePlain = false → form.isClosed = true) := by
  unfold shortForm? at short
  split at short
  · next entry found =>
    cases short
    have small : ∀ entry ∈ controls, entry.1.value < 0x10000 := by decide
    have same : entry.1 = (c : CodePoint) := by simpa using List.find?_some found
    have bound := small entry (List.mem_of_find?_eq_some found)
    rw [same] at bound
    exact ⟨same, bound, fun _ => rfl⟩
  · split at short
    · next plain =>
      cases short
      obtain ⟨allowed, rfl⟩ := plain
      refine ⟨rfl, by decide, fun forbidden => ?_⟩
      rw [forbidden] at allowed
      cases allowed
    · split at short
      · next listed =>
        cases short
        have small : ∀ d ∈ quotable, d.value < 0x10000 := by decide
        exact ⟨rfl, small c listed, fun _ => rfl⟩
      · next unlisted =>
        split at short
        · next range =>
          cases short
          refine ⟨rfl, by omega, fun _ => ?_⟩
          rw [Form.isClosed, (plain_of_printable range.1 unlisted).2]
          rfl
        · cases short

theorem map_stored (spacePlain : Bool) (c : Char) :
    (stored spacePlain c).map Form.codePoint = (Utf16.units c).map CodePoint.ofUnit := by
  unfold stored
  split
  · next form short =>
    obtain ⟨same, small, -⟩ := shortForm?_eq_some short
    rw [Utf16.map_units_of_small small, ← same]
    rfl
  · rw [List.map_map]
    rfl

theorem isClosed_of_mem_stored {c : Char} : ∀ form ∈ stored false c, form.isClosed = true := by
  unfold stored
  split
  · next form short =>
    rw [List.forall_mem_singleton]
    exact (shortForm?_eq_some short).2.2 rfl
  · intro form mem
    obtain ⟨unit, -, rfl⟩ := List.mem_map.1 mem
    rfl

theorem stored_ne_nil (spacePlain : Bool) (c : Char) : stored spacePlain c ≠ [] := by
  intro empty
  have codes := map_stored spacePlain c
  rw [empty, List.map_nil] at codes
  exact Utf16.units_ne_nil c (List.map_eq_nil_iff.1 codes.symm)

/-! ## Files -/

/-- An entry that can be stored so that it is read back. -/
structure StoredEntry where
  key : String
  value : String
  named : key ≠ ""

def storedKey (s : List Char) : List Form := s.flatMap (stored false)

/-- In a value, only a space at the start is quoted. -/
def storedValue : List Char → List Form
  | [] => []
  | c :: rest => stored false c ++ rest.flatMap (stored true)

theorem map_flatMap_stored (spacePlain : Bool) (s : List Char) :
    (s.flatMap (stored spacePlain)).map Form.codePoint = Utf16.codePoints s := by
  rw [List.map_flatMap]
  exact List.flatMap_congr fun c _ => map_stored spacePlain c

theorem map_storedValue (s : List Char) :
    (storedValue s).map Form.codePoint = Utf16.codePoints s := by
  cases s with
  | nil => rfl
  | cons c s =>
    rw [storedValue, List.map_append, map_stored, map_flatMap_stored, Utf16.codePoints_cons]

theorem storedKey_ne_nil {s : String} (named : s ≠ "") : storedKey s.toList ≠ [] := by
  intro empty
  have codes := map_flatMap_stored false s.toList
  rw [← storedKey, empty, List.map_nil] at codes
  -- The empty key is the only one without units.
  have none : s.toList = [] := Utf16.codePoints_injective codes.symm
  exact named (String.toList_eq_nil_iff.1 none)

def StoredEntry.forms (entry : StoredEntry) : EntryForms where
  key := storedKey entry.key.toList
  separator := .equals
  value := storedValue entry.value.toList
  named := storedKey_ne_nil entry.named
  closed := by
    intro form mem
    obtain ⟨c, -, here⟩ := List.mem_flatMap.1 mem
    exact isClosed_of_mem_stored form here
  bare := by
    cases entry.value.toList with
    | nil => exact nofun
    | cons c rest =>
      intro form mem
      rw [storedValue, List.head?_append_of_ne_nil _ (stored_ne_nil false c)] at mem
      exact isClosed_of_mem_stored form (List.mem_of_mem_head? mem)

/-- Each entry is stored on a line. -/
def store (entries : List StoredEntry) : Text :=
  entries.flatMap fun entry => entry.forms.line ++ LineBreak.lineFeed.text

theorem contents_store (entries : List StoredEntry) :
    contents (physicalLines (store entries)) =
      (entries.map StoredEntry.forms).map EntryForms.line := by
  induction entries with
  | nil => exact (contents_nil_cons []).trans contents_nil
  | cons entry entries ih =>
    have first := entry.forms.isStem_line.contents_append .none
      (isEnded_break .lineFeed (store entries))
    rw [contents_break, ih, Blanks.val_none, List.nil_append, ← List.append_assoc] at first
    exact first

/-- What is read from a stored file: the entries, unit by unit. -/
theorem read_store (entries : List StoredEntry) :
    read (store entries) =
      ⟨Table.ofList (entries.map fun entry =>
        (Utf16.codePoints entry.key.toList, Utf16.codePoints entry.value.toList)), []⟩ := by
  have content (entry : StoredEntry) : entry.forms.content =
      (Utf16.codePoints entry.key.toList, Utf16.codePoints entry.value.toList) :=
    Prod.ext (map_flatMap_stored false _) (map_storedValue _)
  rw [read_of_contents (contents_store entries), List.map_map]
  simp only [Function.comp_def, content]

theorem entries_read_store {entries : List StoredEntry}
    (distinct : (entries.map StoredEntry.key).Nodup) :
    (read (store entries)).properties.entries = entries.map fun entry =>
      (Utf16.codePoints entry.key.toList, Utf16.codePoints entry.value.toList) := by
  rw [read_store]
  apply Table.entries_ofList
  have keys : (fun key : String => Utf16.codePoints key.toList).Injective := fun s t same =>
    String.toList_injective (Utf16.codePoints_injective same)
  have mapped := distinct.map keys
  rwa [List.map_map] at mapped ⊢

/-- A stored file is read without a problem. Its entries come back as they were if, and only if,
none of their characters needs a pair of units. -/
theorem read_store_exact {entries : List StoredEntry}
    (distinct : (entries.map StoredEntry.key).Nodup) :
    (read (store entries)).problems = [] ∧
    (read (store entries)).properties.entries = (entries.map fun entry =>
      (Utf16.codePoints entry.key.toList, Utf16.codePoints entry.value.toList)) ∧
    ((read (store entries)).properties.entries =
        entries.map (fun entry => ((entry.key : Text), (entry.value : Text))) ↔
      ∀ entry ∈ entries, (∀ c ∈ entry.key.toList, c.toNat < 0x10000) ∧
        ∀ c ∈ entry.value.toList, c.toNat < 0x10000) := by
  have read_entries := entries_read_store distinct
  refine ⟨by rw [read_store], read_entries, ?_⟩
  rw [read_entries, List.map_inj_left]
  refine forall₂_congr fun entry _ => ?_
  rw [Prod.mk.injEq, ← Utf16.codePoints_eq_iff, ← Utf16.codePoints_eq_iff]
  rfl

theorem read_store_escaped :
    store [⟨"a =b", "  €\t", by decide⟩] = "a\\ \\=b=\\  \\u20AC\\t\n" ∧
      (read (store [⟨"a =b", "  €\t", by decide⟩])).properties.entries =
        ([("a =b", "  €\t")] : List (Text × Text)) :=
  ⟨by decide, (read_store_exact (by decide)).2.2.2 (by simp)⟩

/-- A character with a pair of units comes back as the two surrogates. -/
theorem read_store_pair :
    store [⟨"k", "😀", by decide⟩] = "k=\\uD83D\\uDE00\n" ∧
      (read (store [⟨"k", "😀", by decide⟩])).properties.entries =
        ([("k", [⟨0xD83D, by decide⟩, ⟨0xDE00, by decide⟩])] : List (Text × Text)) ∧
      (read (store [⟨"k", "😀", by decide⟩])).properties.entries ≠
        ([("k", "😀")] : List (Text × Text)) := by
  have pair : (read (store [⟨"k", "😀", by decide⟩])).properties.entries =
      ([("k", [⟨0xD83D, by decide⟩, ⟨0xDE00, by decide⟩])] : List (Text × Text)) :=
    entries_read_store (by decide)
  refine ⟨by decide, pair, ?_⟩
  rw [pair]
  decide

end PropertyToolkit.PropertyFile
