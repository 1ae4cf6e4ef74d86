import PropertyToolkit.Proofs.Fallible
import PropertyToolkit.Proofs.PropertyFile.Outcome
import PropertyToolkit.Proofs.Table
import PropertyToolkit.Proofs.Text.Utf8
import PropertyToolkit.Proofs.Yaml.FlatMapping

/-!
The spelling of a scalar in a YAML file. Plain scalars are kept as they are written, as quoted ones
are: none is read as a number, a truth value or a date. Only the merge sign is no text of its own,
and a file that has it for a value is refused.
-/

set_option autoImplicit false

namespace PropertyToolkit.PropertyFile

/-! ## Properties of a mapping -/

variable {runtime : Runtime}

namespace Reading

open Yaml.Reader (named named_cons_of_same named_cons_of_not_same)

variable {k : Text} {reading after : Reading}

theorem addYaml_text (filled : k ≠ []) (v : Text) (reading : Reading) :
    reading.addYaml runtime (.text k) (.scalar (.text v)) =
      some { reading with properties := reading.properties.put k v } := by
  cases k with
  | nil => exact absurd rfl filled
  | cons c rest => rfl

/-- An entry leaves the properties of the other names. -/
theorem get?_addYaml_of_not_same {name : Value} (other : ¬name.same (.text k) = true)
    {shape : Yaml.Shape (List Value)}
    (added : reading.addYaml runtime name shape = some after) :
    after.properties.get? k = reading.properties.get? k := by
  unfold addYaml at added
  split at added
  · cases added
    rfl
  · cases added
    rfl
  · next c rest value =>
    have apart : c :: rest ≠ k := by
      rintro rfl
      simp [Value.same] at other
    split at added
    · cases added
      exact (Table.get?_put ..).trans (if_neg apart)
    · cases added
  · next c rest items =>
    have apart : c :: rest ≠ k := by
      rintro rfl
      simp [Value.same] at other
    split at added
    · cases added
      exact (Table.get?_put ..).trans (if_neg apart)
    · cases added
  · split at added
    · cases added
      rfl
    · cases added

theorem get?_readMapping_of_named_nil {entries : List (Value × Yaml.Shape (List Value))}
    (none : named k entries = []) (read : readMapping runtime entries reading = .ok after) :
    after.properties.get? k = reading.properties.get? k := by
  induction entries generalizing reading with
  | nil =>
    cases read
    rfl
  | cons entry rest ih =>
    have other : ¬entry.1.same (.text k) = true := by
      intro same
      rw [named_cons_of_same same] at none
      cases none
    rw [named_cons_of_not_same other] at none
    unfold readMapping at read
    split at read
    · cases read
    · next added => exact (ih none read).trans (get?_addYaml_of_not_same other added)

/-- The only entry of a name gives its property. -/
theorem get?_readMapping {entries : List (Value × Yaml.Shape (List Value))} (filled : k ≠ [])
    {v : Text} (only : named k entries = [(.text k, .scalar (.text v))])
    (read : readMapping runtime entries reading = .ok after) :
    after.properties.get? k = some v := by
  induction entries generalizing reading with
  | nil => cases only
  | cons entry rest ih =>
    unfold readMapping at read
    by_cases same : entry.1.same (.text k) = true
    · rw [named_cons_of_same same] at only
      obtain ⟨rfl, none⟩ := List.cons_eq_cons.1 only
      rw [addYaml_text filled] at read
      rw [get?_readMapping_of_named_nil none read, Table.get?_put, if_pos rfl]
    · rw [named_cons_of_not_same same] at only
      split at read
      · cases read
      · exact ih only read

end Reading

/-! ## Mappings of texts -/

/-- Names and their texts, as the entries of a mapping. -/
def textEntries (entries : List (Text × Text)) : List (Value × Yaml.Shape (List Value)) :=
  entries.map fun entry => (.text entry.1, .scalar (.text entry.2))

theorem putEntry_textEntries (k v : Text) (entries : List (Text × Text)) :
    Yaml.Reader.putEntry (.text k) (.scalar (.text v)) (textEntries entries) =
      textEntries (Table.putEntry k v entries) := by
  induction entries with
  | nil => rfl
  | cons entry rest ih =>
    have same : (Value.text entry.1).same (.text k) = decide (entry.1 = k) := by simp [Value.same]
    unfold textEntries Table.putEntry
    rw [List.map_cons, Yaml.Reader.putEntry, same]
    by_cases here : entry.1 = k
    · simp [here]
    · simp only [here, decide_false, Bool.false_eq_true, ↓reduceIte, List.map_cons]
      exact congrArg _ ih

/-- Putting texts one after the other fills a table of them. -/
theorem foldl_putEntry_textEntries (pairs : List (Text × Text)) (table : Table Text Text) :
    pairs.foldl
        (fun read pair => Yaml.Reader.putEntry (.text pair.1) (.scalar (.text pair.2)) read)
        (textEntries table.entries) =
      textEntries (table.putAll pairs).entries := by
  induction pairs generalizing table with
  | nil => rfl
  | cons pair rest ih =>
    rw [List.foldl_cons, putEntry_textEntries, Table.putAll_cons]
    exact ih (table.put pair.1 pair.2)

theorem readMapping_textEntries {entries : List (Text × Text)}
    (filled : ∀ entry ∈ entries, entry.1 ≠ []) (reading : Reading) :
    readMapping runtime (textEntries entries) reading =
      .ok { reading with properties := reading.properties.putAll entries } := by
  induction entries generalizing reading with
  | nil => rfl
  | cons entry rest ih =>
    obtain ⟨first, later⟩ := List.forall_mem_cons.1 filled
    rw [textEntries, List.map_cons, readMapping, Reading.addYaml_text first]
    exact ih later _

/-- A table of texts is read back as it is. -/
theorem readData_textEntries {pairs : List (Text × Text)} (filled : ∀ pair ∈ pairs, pair.1 ≠ []) :
    readData runtime (some (.map (textEntries (Table.ofList pairs : Properties).entries))) =
      .ok ⟨Table.ofList pairs, []⟩ := by
  have named : ∀ entry ∈ (Table.ofList pairs : Properties).entries, entry.1 ≠ [] := by
    intro entry mem
    have last := Table.get?_eq_some_iff.2 mem
    rw [Table.get?_ofList] at last
    exact filled _ (Table.mem_of_last? last)
  refine (readMapping_textEntries named ⟨Table.empty, []⟩).trans ?_
  have same : Table.empty.putAll (Table.ofList pairs : Properties).entries = Table.ofList pairs :=
    Table.ofList_entries _
  rw [same]

/-! ## Files -/

/-- The file at a path holds a text in YAML. -/
structure HoldsYaml (files : Files) (path : Path) (t : Text) : Prop where
  nameable : path.isNameable = true
  content : ∃ bytes, files path = .ok bytes ∧ IsYaml path.fileType bytes t

theorem holdsYaml_of_encode {files : Files} {path : Path} {t : Text} {bytes : List UInt8}
    (nameable : path.isNameable = true) (language : Language.ofType? path.fileType = some .yaml)
    (written : Utf8.encode t = .ok bytes) (feeds : t.withLineFeeds = t)
    (found : files path = .ok bytes) : HoldsYaml files path t :=
  ⟨nameable, bytes, found, language, map_eq_ok_iff.2 ⟨t, Utf8.decode_of_encode written, feeds⟩⟩

theorem load_of_holdsYaml {files : Files} {path : Path} {t : Text}
    (holds : HoldsYaml files path t) : load files path = loadYaml files.runtime t := by
  obtain ⟨nameable, bytes, found, language, decoded⟩ := holds
  unfold load
  rw [Path.nameFault?_of_isNameable nameable, found]
  dsimp only
  cases text : Utf8.decode bytes with
  | error fault =>
    rw [text] at decoded
    cases decoded
  | ok s =>
    rw [text] at decoded
    cases decoded
    unfold loadText
    rw [language]

open Yaml (Scalar TokenStream Token Document Tag IsPlain documentTokens)

theorem read_of_composed {t : Text} {document : Document}
    (composed : Document.ofText t = .ok document)
    (shallow : (TokenStream.ofText t).depth ≤ runtime.nesting) :
    Yaml.read runtime t = document.data? runtime := by
  unfold Yaml.read
  rw [TokenStream.within_of_depth_le shallow]
  change Document.ofText t >>= _ = _
  rw [composed]
  rfl

/-- A text that gives data is nowhere too deep. -/
theorem depth_le_of_read {t : Text} {data? : Option Yaml.Data}
    (read : Yaml.read runtime t = .ok data?) :
    (TokenStream.ofText t).depth ≤ runtime.nesting := by
  obtain ⟨document, composed, -⟩ := bind_eq_ok_iff.1 read
  have meets := Document.ofStream_within_meets runtime.nesting (TokenStream.ofText t)
  rw [composed] at meets
  exact meets.1

/-- The last entry of a name gives its property, if the file can be loaded at all. -/
theorem get?_of_hasEntry {t k : Text} {document : Document} {scalar : Scalar}
    (composed : Document.ofText t = .ok document) (filled : k ≠ [])
    (has : document.HasEntry k scalar) (spelled : scalar.IsSpelled) {properties : Properties}
    (loaded : (loadYaml runtime t).result = .ok properties) :
    scalar ≠ .mergeSign ∧ properties.get? k = some scalar.text := by
  have tag := spelled.tag_eq
  unfold loadYaml at loaded
  cases read : Yaml.read runtime t with
  | error fault =>
    rw [read] at loaded
    cases fault <;> cases loaded
  | ok data? =>
    have data := read
    rw [read_of_composed composed (depth_le_of_read read)] at data
    rw [read] at loaded
    by_cases sign : scalar = .mergeSign
    · rw [if_pos sign] at tag
      have none : Yaml.Yields _ (document.data? runtime) :=
        Document.data?_of_hasEntry_merge has tag
      rw [data] at none
      exact none.elim
    · rw [if_neg sign] at tag
      have given : Yaml.Yields _ (document.data? runtime) := Document.data?_of_hasEntry has tag
      rw [data] at given
      obtain ⟨entries, rfl, only⟩ := given
      dsimp only [readData] at loaded
      split at loaded
      · cases loaded
      · next reading done =>
        obtain ⟨-, rfl⟩ := (Load.result_ofReading_eq_ok_iff ..).1 loaded
        exact ⟨sign, Reading.get?_readMapping filled only done⟩

/-- A mapping of texts to scalars is loaded as it is written, unless one of them is the merge
sign. -/
theorem loadYaml_of_isFlat {t : Text} {document : Document} {pairs : List (Text × Scalar)}
    (composed : Document.ofText t = .ok document)
    (shallow : (TokenStream.ofText t).depth ≤ runtime.nesting) (flat : document.IsFlat pairs)
    (filled : ∀ pair ∈ pairs, pair.1 ≠ []) (spelled : ∀ pair ∈ pairs, pair.2.IsSpelled) :
    loadYaml runtime t =
      if .mergeSign ∈ pairs.map Prod.snd then .ofProblem .malformedYaml
      else ⟨.ok (.ofList (pairs.map fun pair => (pair.1, pair.2.text))), []⟩ := by
  have read := read_of_composed composed shallow
  have tagged : ∀ pair ∈ pairs, pair.2.tag = if pair.2 = .mergeSign then .merge else .str :=
    fun pair mem => (spelled pair mem).tag_eq
  by_cases sign : .mergeSign ∈ pairs.map Prod.snd
  · have either : ∀ pair ∈ pairs, pair.2.tag = .str ∨ pair.2.tag = .merge := by
      intro pair mem
      rw [tagged pair mem]
      split
      · exact .inr rfl
      · exact .inl rfl
    obtain ⟨pair, mem, same⟩ := List.mem_map.1 sign
    have merge : pair.2.tag = .merge := by rw [tagged pair mem, if_pos same]
    rw [if_pos sign]
    exact loadYaml_of_malformed
      (read.trans (Document.data?_of_isFlat_merge flat either ⟨pair, mem, merge⟩))
  · have texts : ∀ pair ∈ pairs, pair.2.tag = .str := by
      intro pair mem
      have other : pair.2 ≠ .mergeSign := fun same => sign (List.mem_map.2 ⟨pair, mem, same⟩)
      rw [tagged pair mem, if_neg other]
    have named : ∀ pair ∈ pairs.map fun pair => (pair.1, pair.2.text), pair.1 ≠ [] :=
      List.forall_mem_map.2 filled
    have data := read.trans (Document.data?_of_isFlat flat texts)
    have put := foldl_putEntry_textEntries (pairs.map fun pair => (pair.1, pair.2.text)) Table.empty
    rw [List.foldl_map] at put
    have done := (congrArg (readData runtime ∘ some ∘ .map) put).trans (readData_textEntries named)
    rw [if_neg sign]
    exact loadYaml_of_reading data done

/-- Where the tokens of a file are those of a mapping, it is loaded as its scalars are written. -/
theorem loadYaml_of_documentTokens {t : Text} {flow marked : Bool}
    {entries : List (Scalar × Scalar)} {n : Nat} {fault : Option Yaml.Fault}
    (tokens : TokenStream.ofText t = ⟨documentTokens flow marked entries n, fault⟩)
    (filled : ∀ entry ∈ entries, entry.1.text ≠ [] ∧ entry.1 ≠ .mergeSign) :
    loadYaml runtime t =
      if .mergeSign ∈ entries.map Prod.snd then .ofProblem .malformedYaml
      else ⟨.ok (.ofList (entries.map fun entry => (entry.1.text, entry.2.text))), []⟩ := by
  have spelled : ∀ entry ∈ entries, entry.1.IsSpelled ∧ entry.2.IsSpelled := by
    intro entry mem
    have delivered := Yaml.delivers_documentTokens flow marked n fault mem
    rw [← tokens] at delivered
    exact ⟨delivered.1.isSpelled, delivered.2.isSpelled⟩
  have composed : Document.ofText t = .ok ⟨Yaml.mappingGraph entries, some 0⟩ := by
    rw [Document.ofText, tokens]
    exact Document.ofStream_documentTokens flow marked entries n fault
  have flat := Document.isFlat_mappingGraph entries fun entry mem => by
    rw [(spelled entry mem).1.tag_eq, if_neg (filled entry mem).2]
  have shallow : (TokenStream.ofText t).depth ≤ runtime.nesting := by
    rw [tokens]
    exact Nat.le_trans (Yaml.depth_documentTokens_le flow marked entries n fault) runtime.nests
  have loaded := loadYaml_of_isFlat composed shallow flat
    (List.forall_mem_map.2 fun entry mem => (filled entry mem).1)
    (List.forall_mem_map.2 fun entry mem => (spelled entry mem).2)
  rwa [List.map_map, List.map_map] at loaded

/-- Scalars without tags are properties as they are written. Of all plain scalars only the merge
sign is no text; the others might as well be quoted. So a mapping of such scalars is loaded as it
stands, unless the merge sign is one of its values, and in any file that can be loaded the last
entry of a name gives it the text of its scalar. -/
theorem load_keeps_spelling {files : Files} {path : Path} {t : Text}
    (holds : HoldsYaml files path t) :
    (∀ v, Token.scalar true v ∈ (TokenStream.ofText t).tokens →
      IsPlain v ∧ (v ≠ ("<<" : Text) → Tag.ofPlain v = .str)) ∧
    Document.ofStream (TokenStream.ofText t).quoted = Document.ofText t ∧
    (∀ flow marked entries n fault,
      TokenStream.ofText t = ⟨documentTokens flow marked entries n, fault⟩ →
      (∀ entry ∈ entries, entry.1.text ≠ [] ∧ entry.1 ≠ .mergeSign) →
      load files path =
        if .mergeSign ∈ entries.map Prod.snd then .ofProblem .malformedYaml
        else ⟨.ok (.ofList (entries.map fun entry => (entry.1.text, entry.2.text))), []⟩) ∧
    (∀ document k scalar properties, Document.ofText t = .ok document → k ≠ [] →
      document.HasEntry k scalar → (TokenStream.ofText t).Delivers scalar →
      (load files path).result = .ok properties →
      scalar ≠ .mergeSign ∧ properties.get? k = some scalar.text) := by
  rw [load_of_holdsYaml holds]
  refine ⟨fun v delivered => ?_, Document.ofStream_quoted _, ?_, ?_⟩
  · have plain := TokenStream.isPlain_of_mem_ofText delivered
    exact ⟨plain, plain.ofPlain_eq_str⟩
  · intro flow marked entries n fault tokens filled
    exact loadYaml_of_documentTokens tokens filled
  · intro document k scalar properties composed filled has delivered loaded
    exact get?_of_hasEntry composed filled has delivered.isSpelled loaded

/-! ## Some files -/

/-- A file of ASCII text. -/
def asciiFile (t : Text) : Files := .ofContents fun _ => .ok (t.map fun c => UInt8.ofNat c.value)

/-- Scalars that could be truth values and a number. -/
def switchText : Text := "on: yes\nsize: 1.10\n"

def switchEntries : List (Scalar × Scalar) :=
  [(⟨true, "on"⟩, ⟨true, "yes"⟩), (⟨true, "size"⟩, ⟨true, "1.10"⟩)]

theorem tokens_switchText :
    TokenStream.ofText switchText = ⟨documentTokens false false switchEntries 0, none⟩ := by
  have tokens : (TokenStream.ofText switchText).tokens =
      documentTokens false false switchEntries 0 := by decide +kernel
  have fault : (TokenStream.ofText switchText).fault = none := by decide +kernel
  exact TokenStream.eq_of_parts tokens fault

/-- An entry after a mapping that is merged in, which has the same name. -/
def overrideText : Text := "<<: {on: no, off: ~}\non: yes\n"

def overrideDocument : Document where
  graph := #[⟨.map, .mapping [(1, 2), (7, 8)]⟩, ⟨.merge, .scalar "<<"⟩,
    ⟨.map, .mapping [(3, 4), (5, 6)]⟩, ⟨.str, .scalar "on"⟩, ⟨.str, .scalar "no"⟩,
    ⟨.str, .scalar "off"⟩, ⟨.str, .scalar "~"⟩, ⟨.str, .scalar "on"⟩, ⟨.str, .scalar "yes"⟩]
  root := some 0

theorem ofText_overrideText : Document.ofText overrideText = .ok overrideDocument := by
  have parts : (Document.ofText overrideText).toOption.map (fun document =>
      (document.graph, document.root)) = some (overrideDocument.graph, overrideDocument.root) := by
    decide +kernel
  cases composed : Document.ofText overrideText with
  | error fault =>
    rw [composed] at parts
    cases parts
  | ok document =>
    rw [composed] at parts
    obtain ⟨graph, root⟩ := document
    cases parts
    rfl

theorem hasEntry_overrideDocument : overrideDocument.HasEntry "on" ⟨true, "yes"⟩ :=
  ⟨0, [(1, 2)], (7, 8), [], ⟨rfl, rfl, rfl⟩, ⟨⟨rfl, rfl⟩, rfl, rfl⟩, nofun⟩

theorem load_keeps_spelling_switch :
    load (asciiFile switchText) (.ofText "a.yaml") =
      ⟨.ok (.ofList [("on", "yes"), ("size", "1.10")]), []⟩ ∧
    ∃ properties, (load (asciiFile overrideText) (.ofText "a.yaml")).result = .ok properties ∧
      properties.get? "on" = some "yes" := by
  have language : Language.ofType? (Path.ofText "a.yaml").fileType = some .yaml :=
    if_pos (by decide +kernel)
  have nameable : (Path.ofText "a.yaml").isNameable = true := by decide
  constructor
  · have holds : HoldsYaml (asciiFile switchText) (.ofText "a.yaml") switchText :=
      holdsYaml_of_encode nameable language rfl (by decide) rfl
    exact (load_keeps_spelling holds).2.2.1 false false switchEntries 0 none
      tokens_switchText (by decide)
  · have holds : HoldsYaml (asciiFile overrideText) (.ofText "a.yaml") overrideText :=
      holdsYaml_of_encode nameable language rfl (by decide) rfl
    have delivered : (TokenStream.ofText overrideText).Delivers ⟨true, "yes"⟩ :=
      .inr (by decide +kernel)
    have done :
        (load (asciiFile overrideText) (.ofText "a.yaml")).result.toOption.isSome = true := by
      decide +kernel
    cases loaded : (load (asciiFile overrideText) (.ofText "a.yaml")).result with
    | error fault =>
      rw [loaded] at done
      cases done
    | ok properties =>
      have kept := (load_keeps_spelling holds).2.2.2 overrideDocument "on" ⟨true, "yes"⟩ properties
        ofText_overrideText (by decide) hasEntry_overrideDocument delivered loaded
      exact ⟨properties, rfl, kept.2⟩

/-- A plain scalar that is the merge sign. -/
def signText : Text := "a: <<\n"

/-- The merge sign is delivered as any plain scalar, but the file is not loaded. -/
theorem load_signText :
    HoldsYaml (asciiFile signText) (.ofText "a.yaml") signText ∧
    (TokenStream.ofText signText).tokens =
      documentTokens false false [(⟨true, "a"⟩, ⟨true, "<<"⟩)] 0 ∧
    ¬∃ properties, (load (asciiFile signText) (.ofText "a.yaml")).result = .ok properties := by
  have failed : (load (asciiFile signText) (.ofText "a.yaml")).result.toOption.isNone = true := by
    decide +kernel
  refine ⟨holdsYaml_of_encode (by decide) (if_pos (by decide +kernel)) rfl (by decide) rfl,
    by decide +kernel, ?_⟩
  rintro ⟨properties, loaded⟩
  rw [loaded] at failed
  cases failed

end PropertyToolkit.PropertyFile
