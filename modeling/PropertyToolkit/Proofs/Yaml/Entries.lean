import Mathlib.Data.List.Forall2
import PropertyToolkit.Proofs.Yaml.Merging
import PropertyToolkit.Proofs.Yaml.PlainScalar
import PropertyToolkit.Proofs.Yaml.Typed
import PropertyToolkit.Substitution.Source
import PropertyToolkit.Yaml.Data

/-!
The entries of a document's root. A text is read as it stands, wherever it was met before; of
several entries for a name the last one counts, and merged entries come before those of the mapping.
So the last entry of the root for a name gives its value. A mapping of texts to plain scalars is
read whole, unless a scalar is the merge sign.
-/

set_option autoImplicit false

namespace PropertyToolkit.Yaml

/-! ## Shapes -/

/-- A shape that a node may have: a scalar that is read as a text is read as its own text. -/
structure Fits (graph : Graph) (id : NodeId) (shape : Shape NodeId) : Prop where
  unmerged : graph.tagOf id ≠ .merge
  text : ∀ t, graph.contentOf id = .scalar t → graph.tagOf id = .str → shape = .scalar (.text t)
  same : ∀ t, graph.contentOf id = .scalar t → ∀ s, shape = .scalar (.text s) → s = t

namespace Reader

/-- What is known of nodes fits the graph that was read. -/
structure Sound (graph : Graph) (reader : Reader) : Prop where
  grows : graph.Grows reader.graph
  known : ∀ entry ∈ reader.known, Fits graph entry.1 entry.2

variable {graph : Graph} {reader : Reader} {runtime : Runtime}

theorem Sound.settle (sound : reader.Sound graph) {id : NodeId} {shape : Shape NodeId}
    (fits : Fits graph id shape) : (reader.settle id shape).Sound graph :=
  ⟨sound.grows, List.forall_mem_cons.2 ⟨fits, sound.known⟩⟩

theorem Sound.putOff (sound : reader.Sound graph) (waiting : List NodeId) :
    Sound graph { reader with waiting } := ⟨sound.grows, sound.known⟩

theorem scalarText_of_scalar {id : NodeId} {t : Text} (room : Nat)
    (content : graph.contentOf id = .scalar t) : graph.scalarText (room + 1) id = .ok t := by
  unfold Graph.scalarText
  rw [content]

/-- The text of a node that is a scalar is its own. -/
theorem Sound.eq_of_scalarText (sound : reader.Sound graph) {id : NodeId} {room : Nat}
    {found t : Text} (read : reader.graph.scalarText (room + 1) id = .ok found)
    (content : graph.contentOf id = .scalar t) : found = t := by
  rw [scalarText_of_scalar room (sound.grows.texts id t content)] at read
  cases read
  rfl

/-- A collection is no text, whatever its tag was before a merge. -/
theorem Sound.fits_collection (sound : reader.Sound graph) {id : NodeId} {shape : Shape NodeId}
    (kind : reader.graph.tagOf id ∉ [Tag.str, .merge])
    (collection : ∀ value, shape ≠ .scalar value) : Fits graph id shape := by
  have same := (sound.grows.tags id).resolve_right fun both => kind (by rw [both.2]; decide)
  rw [same] at kind
  refine ⟨fun merge => ?_, fun t _ text => ?_, fun t _ s same => absurd same (collection _)⟩
  · exact kind (by rw [merge]; decide)
  · exact absurd (by rw [text]; decide) kind

theorem Sound.fits_scalarValue (sound : reader.Sound graph) {id : NodeId} {room : Nat}
    {own : Bool} {found : Text} {value : Value} (unmerged : reader.graph.tagOf id ≠ .merge)
    (read : reader.graph.scalarText (room + 1) id = .ok found)
    (given : scalarValue (reader.graph.tagOf id) own found = .ok value) :
    Fits graph id (.scalar value) := by
  refine ⟨fun merge => ?_, fun t content text => ?_, fun t content s word => ?_⟩
  · rw [sound.grows.tagOf_eq (by rw [merge]; exact nofun)] at unmerged
    exact unmerged merge
  · rw [sound.grows.tagOf_eq (by rw [text]; exact nofun), text,
      sound.eq_of_scalarText read content] at given
    cases given
    rfl
  · cases word
    exact (eq_of_scalarValue_text given).trans (sound.eq_of_scalarText read content)

theorem shapeOf_fits (sound : reader.Sound graph) (id : NodeId) :
    Yields (fun result => Fits graph id result.1 ∧ result.2.Sound graph)
      (reader.shapeOf runtime id) := by
  unfold shapeOf
  split
  · next found =>
    have here := List.find?_some found
    have fits := sound.known _ (List.mem_of_find?_eq_some found)
    rw [decide_eq_true_iff] at here
    rw [here] at fits
    exact ⟨fits, sound⟩
  · dsimp only
    have putOff : ∀ shape : Shape NodeId, reader.graph.tagOf id ∉ [Tag.str, .merge] →
        (∀ value, shape ≠ .scalar value) →
        Fits graph id shape ∧
          Sound graph { reader.settle id shape with waiting := reader.waiting ++ [id] } := by
      intro shape kind collection
      have fits := sound.fits_collection kind collection
      exact ⟨fits, (sound.settle fits).putOff _⟩
    split
    · next kind => exact putOff .list (by rw [kind]; decide) nofun
    · next kind => exact putOff .list (by rw [kind]; decide) nofun
    · next kind => exact putOff .list (by rw [kind]; decide) nofun
    · next kind => exact putOff .map (by rw [kind]; decide) nofun
    · next kind => exact putOff (.set id) (by rw [kind]; decide) nofun
    · trivial
    · trivial
    · trivial
    · next unmerged _ _ =>
      refine (yields_self _).bind fun found read => (yields_self _).bind fun value given => ?_
      have fits := sound.fits_scalarValue unmerged read given
      exact ⟨fits, sound.settle fits⟩

/-- A text is read as it stands, whether it is known already or not. -/
theorem shapeOf_text (sound : reader.Sound graph) {id : NodeId} {t : Text}
    (text : graph.tagOf id = .str) (content : graph.contentOf id = .scalar t) :
    ∃ known, reader.shapeOf runtime id = .ok (.scalar (.text t), { reader with known }) ∧
      Sound graph { reader with known } := by
  have fits : Fits graph id (.scalar (.text t)) := by
    refine ⟨fun merge => ?_, fun s other _ => ?_, fun s other r same => ?_⟩
    · rw [text] at merge
      cases merge
    · rw [content] at other
      cases other
      rfl
    · rw [content] at other
      cases other
      cases same
      rfl
  unfold shapeOf
  split
  · next shape found =>
    have here := List.find?_some found
    have known := sound.known _ (List.mem_of_find?_eq_some found)
    rw [decide_eq_true_iff] at here
    rw [here] at known
    have same : shape = .scalar (.text t) := known.text t content text
    exact ⟨reader.known, by rw [same], sound⟩
  · have tag : reader.graph.tagOf id = .str :=
      (sound.grows.tagOf_eq (by rw [text]; exact nofun)).trans text
    refine ⟨(id, .scalar (.text t)) :: reader.known, ?_, sound.settle fits⟩
    dsimp only
    rw [tag]
    dsimp only
    rw [scalarText_of_scalar _ (sound.grows.texts id t content)]
    rfl

/-- The merge sign has no value. -/
theorem shapeOf_merge (sound : reader.Sound graph) {id : NodeId} (merge : graph.tagOf id = .merge) :
    reader.shapeOf runtime id = .error .malformed := by
  unfold shapeOf
  split
  · next shape found =>
    have here := List.find?_some found
    have known := sound.known _ (List.mem_of_find?_eq_some found)
    rw [decide_eq_true_iff] at here
    rw [here] at known
    exact absurd merge known.unmerged
  · rw [sound.grows.tagOf_eq (by rw [merge]; exact nofun), merge]

/-! ## Entries -/

open Substitution.Source (eq_of_same_text)

section

variable {σ : Type}

/-- The entries for a name; a mapping that is read has one at most. -/
def named (k : Text) (read : List (Value × Shape σ)) : List (Value × Shape σ) :=
  read.filter fun entry => entry.1.same (.text k)

variable {k : Text} {entry : Value × Shape σ} {read : List (Value × Shape σ)}

theorem named_cons_of_same (here : entry.1.same (.text k) = true) :
    named k (entry :: read) = entry :: named k read := List.filter_cons_of_pos here

theorem named_cons_of_not_same (apart : ¬entry.1.same (.text k) = true) :
    named k (entry :: read) = named k read := List.filter_cons_of_neg apart

theorem named_putEntry_text (k : Text) (shape : Shape σ) (read : List (Value × Shape σ)) :
    named k (putEntry (.text k) shape read) = (.text k, shape) :: (named k read).tail := by
  have own : (Value.text k).same (.text k) = true := by simp [Value.same]
  induction read with
  | nil => exact named_cons_of_same own
  | cons entry rest ih =>
    unfold putEntry
    by_cases here : entry.1.same (.text k) = true
    · rw [if_pos here, eq_of_same_text here, named_cons_of_same own, named_cons_of_same here,
        List.tail_cons]
    · rw [if_neg here, named_cons_of_not_same here, named_cons_of_not_same here, ih]

theorem named_putEntry_of_not_same {k : Text} {name : Value} (other : ¬name.same (.text k) = true)
    (shape : Shape σ) (read : List (Value × Shape σ)) :
    named k (putEntry name shape read) = named k read := by
  induction read with
  | nil => exact named_cons_of_not_same other
  | cons entry rest ih =>
    unfold putEntry
    by_cases here : entry.1.same name = true
    · have apart : ¬entry.1.same (.text k) = true := by
        intro named
        rw [eq_of_same_text named] at here
        cases name <;> simp_all [Value.same]
      have apartToo : ¬(entry.1, shape).1.same (.text k) = true := apart
      rw [if_pos here, named_cons_of_not_same apart, named_cons_of_not_same apartToo]
    · rw [if_neg here]
      unfold named
      rw [List.filter_cons, List.filter_cons]
      exact congrArg (fun rest => if entry.1.same (.text k) = true then entry :: rest else rest) ih

theorem length_named_putEntry (k : Text) (name : Value) (shape : Shape σ)
    (few : (named k read).length ≤ 1) : (named k (putEntry name shape read)).length ≤ 1 := by
  by_cases here : name.same (.text k) = true
  · rw [eq_of_same_text here, named_putEntry_text, List.length_cons, List.length_tail]
    omega
  · rwa [named_putEntry_of_not_same here]

variable {τ : Type} (f : σ → τ)

theorem named_map_fill (k : Text) (read : List (Value × Shape σ)) :
    named k (read.map fun entry => (entry.1, entry.2.fill f)) =
      (named k read).map fun entry => (entry.1, entry.2.fill f) := by
  unfold named
  rw [List.filter_map]
  rfl

theorem map_fill_putEntry (key : Value) (shape : Shape σ) (read : List (Value × Shape σ)) :
    (putEntry key shape read).map (fun entry => (entry.1, entry.2.fill f)) =
      putEntry key (shape.fill f) (read.map fun entry => (entry.1, entry.2.fill f)) := by
  induction read with
  | nil => rfl
  | cons entry rest ih =>
    rw [List.map_cons, putEntry, putEntry]
    split
    · rfl
    · rw [List.map_cons, ih]

end

theorem readEntries_append (entries others : Entries) (read : List (Value × Shape NodeId))
    (reader : Reader) :
    readEntries runtime (entries ++ others) read reader =
      readEntries runtime entries read reader >>= fun result =>
        readEntries runtime others result.1 result.2 := by
  induction entries generalizing read reader with
  | nil => rfl
  | cons entry rest ih =>
    rw [List.cons_append, readEntries, readEntries]
    cases reader.shapeOf runtime entry.1 with
    | error fault => rfl
    | ok key =>
      obtain ⟨shape, reader⟩ := key
      cases shape with
      | list | map | set => rfl
      | scalar name =>
        change (reader.shapeOf runtime entry.2 >>= fun value =>
          readEntries runtime (rest ++ others) (putEntry name value.1 read) value.2) =
          (reader.shapeOf runtime entry.2 >>= fun value =>
            readEntries runtime rest (putEntry name value.1 read) value.2) >>= _
        cases reader.shapeOf runtime entry.2 with
        | error fault => rfl
        | ok value => exact ih _ _

/-- A node is a text with no other tag. -/
def IsText (graph : Graph) (id : NodeId) (t : Text) : Prop :=
  graph.tagOf id = .str ∧ graph.contentOf id = .scalar t

theorem IsText.ne_merge {graph : Graph} {id : NodeId} {t : Text} (text : IsText graph id t) :
    graph.tagOf id ≠ .merge := by
  rw [text.1]
  exact nofun

/-- An entry of texts is put as it stands. -/
theorem readEntries_text (sound : reader.Sound graph) {key value : NodeId} {k v : Text}
    (name : IsText graph key k) (text : IsText graph value v) (rest : Entries)
    (read : List (Value × Shape NodeId)) :
    ∃ known, readEntries runtime ((key, value) :: rest) read reader =
        readEntries runtime rest (putEntry (.text k) (.scalar (.text v)) read)
          { reader with known } ∧
      Sound graph { reader with known } := by
  obtain ⟨known, keyShape, sound⟩ := shapeOf_text sound name.1 name.2
  obtain ⟨later, valueShape, sound⟩ := shapeOf_text sound text.1 text.2
  refine ⟨later, ?_, sound⟩
  rw [readEntries, keyShape]
  change ({ reader with known }.shapeOf runtime value >>= fun result =>
    readEntries runtime rest (putEntry (.text k) result.1 read) result.2) = _
  rw [valueShape]
  rfl

/-- One entry puts a scalar that its key may have. -/
theorem readEntries_single (sound : reader.Sound graph) (entry : NodeId × NodeId)
    (read : List (Value × Shape NodeId)) :
    Yields (fun result => ∃ name shape, result.1 = putEntry name shape read ∧
        Fits graph entry.1 (.scalar name) ∧ result.2.Sound graph)
      (readEntries runtime [entry] read reader) := by
  refine (shapeOf_fits sound entry.1).bind fun key fits => ?_
  obtain ⟨keyShape, reader⟩ := key
  cases keyShape with
  | list | map | set => trivial
  | scalar name =>
    exact (shapeOf_fits fits.2 entry.2).bind fun value kept =>
      ⟨name, value.1, rfl, fits.1, kept.2⟩

variable {read : List (Value × Shape NodeId)} {k : Text}

theorem readEntries_few (sound : reader.Sound graph) (few : (named k read).length ≤ 1)
    (entries : Entries) :
    Yields (fun result => (named k result.1).length ≤ 1 ∧ result.2.Sound graph)
      (readEntries runtime entries read reader) := by
  induction entries generalizing read reader with
  | nil => exact ⟨few, sound⟩
  | cons entry rest ih =>
    rw [← List.singleton_append, readEntries_append]
    refine (readEntries_single sound entry read).bind fun result put => ?_
    obtain ⟨name, shape, same, -, kept⟩ := put
    exact ih kept (same ▸ length_named_putEntry k name shape few)

/-- Entries with other keys leave the value of a name. -/
theorem readEntries_others (sound : reader.Sound graph) {entries : Entries}
    (others : ∀ entry ∈ entries, graph.tagOf entry.1 = .merge ∨
      ∃ t, graph.contentOf entry.1 = .scalar t ∧ t ≠ k) :
    Yields (fun result => named k result.1 = named k read)
      (readEntries runtime entries read reader) := by
  induction entries generalizing read reader with
  | nil => rfl
  | cons entry rest ih =>
    obtain ⟨first, later⟩ := List.forall_mem_cons.1 others
    rw [← List.singleton_append, readEntries_append]
    refine (readEntries_single sound entry read).bind fun result put => ?_
    obtain ⟨name, shape, same, fits, kept⟩ := put
    refine (ih kept later).imp fun _ unchanged => unchanged.trans ?_
    rw [same]
    refine named_putEntry_of_not_same (fun here => ?_) shape read
    rcases first with merge | ⟨t, content, apart⟩
    · exact fits.unmerged merge
    · exact apart (fits.same t content k (by rw [eq_of_same_text here])).symm

/-- The last entry for a name gives its value. -/
theorem readEntries_last (sound : reader.Sound graph) (few : (named k read).length ≤ 1) {v : Text}
    {key value : NodeId} (name : IsText graph key k) (text : IsText graph value v)
    (before : Entries) {after : Entries}
    (others : ∀ entry ∈ after, graph.tagOf entry.1 = .merge ∨
      ∃ t, graph.contentOf entry.1 = .scalar t ∧ t ≠ k) :
    Yields (fun result => named k result.1 = [(.text k, .scalar (.text v))])
      (readEntries runtime (before ++ (key, value) :: after) read reader) := by
  rw [readEntries_append]
  refine (readEntries_few sound few before).bind fun result kept => ?_
  obtain ⟨known, same, sound⟩ := readEntries_text kept.2 name text after result.1
  rw [same]
  refine (readEntries_others sound others).imp fun _ unchanged => unchanged.trans ?_
  have none : (named k result.1).tail = [] := by
    rw [← List.length_eq_zero_iff, List.length_tail]
    omega
  rw [named_putEntry_text, none]

/-- An entry with the merge sign for its value cannot be read. -/
theorem readEntries_sign (sound : reader.Sound graph) (few : (named k read).length ≤ 1)
    {key value : NodeId} (sign : graph.tagOf value = .merge) (before after : Entries) :
    Yields (fun _ => False)
      (readEntries runtime (before ++ (key, value) :: after) read reader) := by
  rw [readEntries_append]
  refine (readEntries_few sound few before).bind fun result kept => ?_
  rw [readEntries]
  refine (shapeOf_fits kept.2 key).bind fun keyShape fits => ?_
  obtain ⟨shape, reader⟩ := keyShape
  cases shape with
  | list | map | set => trivial
  | scalar name =>
    change Yields _ (reader.shapeOf runtime value >>= fun result =>
      readEntries runtime after _ result.2)
    rw [shapeOf_merge fits.2 sign]
    trivial

/-- The nodes of an entry of a text and a scalar without a tag. -/
structure IsEntry (graph : Graph) (entry : NodeId × NodeId) (pair : Text × Scalar) : Prop where
  name : IsText graph entry.1 pair.1
  tag : graph.tagOf entry.2 = pair.2.tag
  content : graph.contentOf entry.2 = .scalar pair.2.text

theorem readEntries_texts (sound : reader.Sound graph) {entries : Entries}
    {pairs : List (Text × Scalar)} (given : List.Forall₂ (IsEntry graph) entries pairs)
    (texts : ∀ pair ∈ pairs, pair.2.tag = .str) (read : List (Value × Shape NodeId)) :
    ∃ known, readEntries runtime entries read reader =
      .ok (pairs.foldl (fun read pair => putEntry (.text pair.1) (.scalar (.text pair.2.text)) read)
        read,
        { reader with known }) := by
  induction given generalizing read reader with
  | nil => exact ⟨reader.known, rfl⟩
  | @cons entry pair rest pairs first _ ih =>
    obtain ⟨text, later⟩ := List.forall_mem_cons.1 texts
    obtain ⟨known, same, sound⟩ :=
      readEntries_text sound first.name ⟨first.tag.trans text, first.content⟩ rest read
    obtain ⟨knownToo, done⟩ :=
      ih sound later (putEntry (.text pair.1) (.scalar (.text pair.2.text)) read)
    exact ⟨knownToo, same.trans done⟩

/-- The merge sign for a value is an error. -/
theorem readEntries_merge (sound : reader.Sound graph) {entries : Entries}
    {pairs : List (Text × Scalar)} (given : List.Forall₂ (IsEntry graph) entries pairs)
    (either : ∀ pair ∈ pairs, pair.2.tag = .str ∨ pair.2.tag = .merge)
    (merge : ∃ pair ∈ pairs, pair.2.tag = .merge) (read : List (Value × Shape NodeId)) :
    readEntries runtime entries read reader = .error .malformed := by
  induction given generalizing read reader with
  | nil =>
    obtain ⟨_, mem, _⟩ := merge
    cases mem
  | @cons entry pair rest pairs first _ ih =>
    obtain ⟨this, later⟩ := List.forall_mem_cons.1 either
    rcases this with text | sign
    · obtain ⟨known, same, sound⟩ :=
        readEntries_text sound first.name ⟨first.tag.trans text, first.content⟩ rest read
      refine same.trans (ih sound later ?_ _)
      obtain ⟨other, mem, sign⟩ := merge
      rcases List.mem_cons.1 mem with rfl | mem
      · rw [text] at sign
        cases sign
      · exact ⟨other, mem, sign⟩
    · obtain ⟨known, keyShape, sound⟩ := shapeOf_text sound first.name.1 first.name.2
      rw [readEntries, keyShape]
      change ({ reader with known }.shapeOf runtime entry.2 >>= fun result =>
        readEntries runtime rest (putEntry (.text pair.1) result.1 read) result.2) = _
      rw [shapeOf_merge sound (first.tag.trans sign)]
      rfl

end Reader

/-! ## Documents -/

/-- The root is a mapping with these entries, and no tag makes anything else of it. -/
structure Document.HasRoot (document : Document) (root : NodeId) (entries : Entries) : Prop where
  found : document.root = some root
  tag : document.graph.tagOf root = .map
  content : document.graph.contentOf root = .mapping entries

namespace Document

open Reader

variable {runtime : Runtime} {document : Document} {root : NodeId} {entries : Entries}

theorem data?_of_hasRoot (rooted : document.HasRoot root entries) :
    document.data? runtime = (do
      let graph ← document.graph.merge runtime.merging root
      let read ← readEntries runtime (graph.entriesOf root) [] ⟨graph, [(root, .map)], [], []⟩
      let reader ← readWaiting runtime (document.graph.size + 1) read.2
      return some (.map (read.1.map fun entry => (entry.1, entry.2.fill reader.itemsOf)))) := by
  have shape : shapeOf runtime (.start document.graph) root =
      .ok (.map, ⟨document.graph, [(root, .map)], [], [root]⟩) := by
    unfold shapeOf
    dsimp only [Reader.start, List.find?_nil]
    rw [rooted.tag]
    rfl
  unfold data?
  rw [rooted.found]
  dsimp only
  rw [shape]
  change (readParts runtime root ⟨document.graph, [(root, .map)], [], []⟩ >>= fun read => _) = _
  unfold readParts
  dsimp only
  rw [rooted.tag, rooted.content]
  dsimp only [readMapping]
  rw [bind_assoc]

theorem sound_of_grows (rooted : document.HasRoot root entries) {graph : Graph}
    (grows : document.graph.Grows graph) :
    Sound document.graph ⟨graph, [(root, .map)], [], []⟩ where
  grows := grows
  known := by
    refine List.forall_mem_singleton.2 ⟨?_, fun t content => ?_, fun t content => ?_⟩
    · rw [rooted.tag]
      exact nofun
    · rw [rooted.content] at content
      cases content
    · rw [rooted.content] at content
      cases content

/-- The last entry of the root for a name has a scalar without a tag for its value. -/
def HasEntry (document : Document) (k : Text) (scalar : Scalar) : Prop :=
  ∃ root before entry after, document.HasRoot root (before ++ entry :: after) ∧
    IsEntry document.graph entry (k, scalar) ∧
    ∀ other ∈ after, ∃ t, document.graph.contentOf other.1 = .scalar t ∧ t ≠ k

/-- The root is a mapping of texts to scalars without tags. -/
def IsFlat (document : Document) (pairs : List (Text × Scalar)) : Prop :=
  ∃ root entries, document.HasRoot root entries ∧
    List.Forall₂ (IsEntry document.graph) entries pairs

/-- The own entries of a mapping come last, also after a merge. -/
theorem exists_entries_of_grows {graph : Graph} (grows : document.graph.Grows graph)
    {before after : Entries} {entry : NodeId × NodeId}
    (rooted : document.HasRoot root (before ++ entry :: after))
    (kept : document.graph.tagOf entry.1 ≠ .merge) :
    ∃ first last, graph.entriesOf root = first ++ entry :: last ∧
      ∀ other ∈ last, document.graph.tagOf other.1 = .merge ∨ other ∈ after := by
  have own : document.graph.own root =
      (before.filter fun other => document.graph.tagOf other.1 ≠ .merge) ++
        entry :: after.filter fun other => document.graph.tagOf other.1 ≠ .merge := by
    rw [Graph.own, Graph.entriesOf, rooted.content, List.filter_append,
      List.filter_cons_of_pos (by simpa using kept)]
  obtain ⟨front, whole⟩ := grows.own root
  rw [own, ← List.append_assoc, Graph.own] at whole
  obtain ⟨first, rest, same, -, tail⟩ := List.filter_eq_append_iff.1 whole.symm
  obtain ⟨between, last, rfl, -, -, ending⟩ := List.filter_eq_cons_iff.1 tail
  refine ⟨first ++ between, last, by rw [same, List.append_assoc], fun other mem => ?_⟩
  by_cases merge : document.graph.tagOf other.1 = .merge
  · exact .inl merge
  · have still : graph.tagOf other.1 ≠ .merge := by
      rcases grows.tags other.1 with same | ⟨-, text⟩
      · rwa [same]
      · rw [text]
        exact nofun
    have listed : other ∈ last.filter fun other => graph.tagOf other.1 ≠ .merge :=
      List.mem_filter.2 ⟨mem, by simpa using still⟩
    rw [ending] at listed
    exact .inr (List.mem_filter.1 listed).1

/-- What the reading of the root's entries gives, after any merge and whatever the sets hold, is
what the data are. -/
theorem yields_data? (rooted : document.HasRoot root entries)
    {holds : List (Value × Shape (List Value)) → Prop}
    (read : ∀ graph, document.graph.Grows graph →
      Yields (fun result => ∀ items : NodeId → List Value,
          holds (result.1.map fun entry => (entry.1, entry.2.fill items)))
        (readEntries runtime (graph.entriesOf root) [] ⟨graph, [(root, .map)], [], []⟩)) :
    Yields (fun data? => ∃ read, data? = some (.map read) ∧ holds read)
      (document.data? runtime) := by
  rw [data?_of_hasRoot rooted]
  have any : document.graph.TagsIn fun _ => True := fun _ _ => trivial
  have merges := Graph.merge_steps Graph.steps_grows trivial ⟨_, rooted.content⟩ any runtime.merging
  refine (merges.widen fun _ _ => trivial).bind fun graph grows => ?_
  exact (read graph grows.1).bind fun result put =>
    (yields_any _).bind fun reader _ => ⟨_, rfl, put reader.itemsOf⟩

theorem data?_of_hasEntry {k : Text} {scalar : Scalar} (has : document.HasEntry k scalar)
    (text : scalar.tag = .str) :
    Yields (fun data? => ∃ read, data? = some (.map read) ∧
      named k read = [(.text k, .scalar (.text scalar.text))]) (document.data? runtime) := by
  obtain ⟨root, before, entry, after, rooted, given, others⟩ := has
  refine yields_data? rooted fun graph grows => ?_
  obtain ⟨first, last, same, later⟩ := exists_entries_of_grows grows rooted given.name.ne_merge
  rw [same]
  have none : (named k ([] : List (Value × Shape NodeId))).length ≤ 1 := Nat.zero_le 1
  refine (readEntries_last (sound_of_grows rooted grows) none given.name
    ⟨given.tag.trans text, given.content⟩ first
    fun other mem => (later other mem).imp_right (others other)).imp fun result only items => ?_
  rw [named_map_fill, only]
  rfl

/-- There are no data where the merge sign stands for a value. -/
theorem data?_of_hasEntry_merge {k : Text} {scalar : Scalar} (has : document.HasEntry k scalar)
    (sign : scalar.tag = .merge) : Yields (fun _ => False) (document.data? runtime) := by
  obtain ⟨root, before, entry, after, rooted, given, others⟩ := has
  have unread : Yields (fun data? => ∃ read, data? = some (.map read) ∧ False)
      (document.data? runtime) := by
    refine yields_data? rooted fun graph grows => ?_
    obtain ⟨first, last, same, -⟩ := exists_entries_of_grows grows rooted given.name.ne_merge
    have none : (named k ([] : List (Value × Shape NodeId))).length ≤ 1 := Nat.zero_le 1
    rw [same]
    exact (readEntries_sign (sound_of_grows rooted grows) none (given.tag.trans sign) first
      last).imp fun _ impossible => impossible.elim
  exact unread.imp fun _ data => data.choose_spec.2

theorem merge_of_isFlat {pairs : List (Text × Scalar)} (rooted : document.HasRoot root entries)
    (given : List.Forall₂ (IsEntry document.graph) entries pairs) :
    document.graph.merge runtime.merging root = .ok document.graph ∧
      document.graph.entriesOf root = entries := by
  have same : document.graph.entriesOf root = entries := by
    rw [Graph.entriesOf, rooted.content]
  refine ⟨Graph.merge_of_texts ?_ runtime.merging, same⟩
  rw [same]
  clear same rooted
  induction given with
  | nil => exact nofun
  | cons first _ ih => exact List.forall_mem_cons.2 ⟨first.name.1, ih⟩

/-- Texts are no sets, so nothing is put into them. -/
theorem map_fill_texts {σ τ : Type} (f : σ → τ) (pairs : List (Text × Scalar)) :
    (pairs.foldl (fun read pair => putEntry (.text pair.1) (.scalar (.text pair.2.text)) read)
        []).map (fun entry => (entry.1, entry.2.fill f)) =
      pairs.foldl (fun read pair => putEntry (.text pair.1) (.scalar (.text pair.2.text)) read)
        [] :=
  (List.foldl_hom _ fun read pair =>
    (map_fill_putEntry f (.text pair.1) (.scalar (.text pair.2.text)) read).symm).symm

theorem data?_of_isFlat {pairs : List (Text × Scalar)} (flat : document.IsFlat pairs)
    (texts : ∀ pair ∈ pairs, pair.2.tag = .str) :
    document.data? runtime = .ok (some (.map (pairs.foldl
      (fun read pair => putEntry (.text pair.1) (.scalar (.text pair.2.text)) read) []))) := by
  obtain ⟨root, entries, rooted, given⟩ := flat
  obtain ⟨merged, same⟩ := merge_of_isFlat rooted given
  have sound := sound_of_grows rooted (Graph.Grows.refl _)
  obtain ⟨known, read⟩ := readEntries_texts sound given texts []
  rw [data?_of_hasRoot rooted, merged]
  dsimp only [bind, Except.bind]
  rw [same, read]
  exact congrArg (fun read => Except.ok (some (Data.map read))) (map_fill_texts _ pairs)

theorem data?_of_isFlat_merge {pairs : List (Text × Scalar)} (flat : document.IsFlat pairs)
    (either : ∀ pair ∈ pairs, pair.2.tag = .str ∨ pair.2.tag = .merge)
    (merge : ∃ pair ∈ pairs, pair.2.tag = .merge) :
    document.data? runtime = .error .malformed := by
  obtain ⟨root, entries, rooted, given⟩ := flat
  obtain ⟨merged, same⟩ := merge_of_isFlat rooted given
  have sound := sound_of_grows rooted (Graph.Grows.refl _)
  rw [data?_of_hasRoot rooted, merged]
  dsimp only [bind, Except.bind]
  rw [same, readEntries_merge sound given either merge []]

end Document
end PropertyToolkit.Yaml
