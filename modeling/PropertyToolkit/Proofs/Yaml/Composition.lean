import PropertyToolkit.Proofs.Yaml.Lexing
import PropertyToolkit.Yaml.Composition

/-!
What a document takes from its tokens. Each tag of a node is spelled by a token, or a scalar has it
by its text, or it is the one that a node of its kind has on its own. The tags that would turn plain
scalars into something else have to be spelled. A document takes all tokens up to the end of the
text; one that cannot be composed is malformed, or the fault that ended the tokens is met.
-/

set_option autoImplicit false

namespace PropertyToolkit.Yaml

/-! ## Tags -/

/-- No plain scalar gets one of the tags that are left out. -/
theorem Tag.ofPlain_not_mem_converted (t : Text) : ofPlain t ∉ converted := by
  unfold ofPlain
  split
  · next resolver found =>
    have kept := List.mem_filter.1 (List.mem_of_find?_eq_some found)
    exact of_decide_eq_true kept.2
  · decide

namespace TokenStream

/-- A tag of the stream, whatever its handle stands for. -/
def Names (stream : TokenStream) (name : Text) : Prop :=
  ∃ handle suffix start, Token.tag handle suffix ∈ stream.tokens ∧ name = start ++ suffix

/-- Some token spells a tag. -/
def Spells (stream : TokenStream) (tag : Tag) : Prop :=
  ∃ name, stream.Names name ∧ Tag.ofName name = tag

/-- The tags that a document of the stream may have. -/
inductive Gives (stream : TokenStream) : Tag → Prop where
  | text : Gives stream .str
  | sequence : Gives stream .seq
  | mapping : Gives stream .map
  | spelled {tag : Tag} (spelled : stream.Spells tag) : Gives stream tag
  | resolved {plain : Bool} {t : Text} (written : Token.scalar plain t ∈ stream.tokens) :
    Gives stream (Tag.ofPlain t)

theorem Gives.spells {stream : TokenStream} {tag : Tag} (gives : stream.Gives tag)
    (converted : tag ∈ Tag.converted) : stream.Spells tag := by
  cases gives with
  | text | sequence | mapping => simp [Tag.converted] at converted
  | spelled spelled => exact spelled
  | @resolved plain t written => exact absurd converted (Tag.ofPlain_not_mem_converted t)

/-- The faults that a document of the stream may have. -/
def EndsIn (stream : TokenStream) (fault : Fault) : Prop :=
  fault = .malformed ∨ stream.fault = some fault

end TokenStream

/-- All nodes have tags of some kind. -/
def Graph.TagsIn (graph : Graph) (given : Tag → Prop) : Prop := ∀ node ∈ graph, given node.tag

namespace Graph.TagsIn

variable {graph : Graph} {given : Tag → Prop}

theorem push (tags : graph.TagsIn given) {node : Node} (new : given node.tag) :
    TagsIn (graph.push node) given := by
  intro other mem
  rcases Array.mem_push.1 mem with before | rfl
  · exact tags other before
  · exact new

theorem modify (tags : graph.TagsIn given) (id : NodeId) (f : Node → Node)
    (kept : ∀ node, given node.tag → given (f node).tag) : TagsIn (graph.modify id f) given := by
  intro node mem
  obtain ⟨place, inside, rfl⟩ := Array.mem_iff_getElem.1 mem
  rw [Array.size_modify] at inside
  have before := tags _ (Array.getElem_mem inside)
  rw [Array.getElem_modify]
  split
  · exact kept _ before
  · exact before

end Graph.TagsIn

/-- On its way through a stream, with nodes that its tokens account for. -/
structure Composer.Of (stream : TokenStream) (s : Composer) : Prop where
  unread : s.stream.tokens <:+ stream.tokens
  fault : s.stream.fault = stream.fault
  tags : s.graph.TagsIn stream.Gives

/-! ## Steps -/

namespace Compose

variable {α β : Type} {stream : TokenStream}

/-- On its way through the stream it goes on so, and what it gives meets a condition. -/
def Keeps (stream : TokenStream) (holds : α → Prop) (x : Compose α) : Prop :=
  ∀ s : Composer, s.Of stream →
    Meets stream.EndsIn (fun result => holds result.1 ∧ result.2.Of stream) (x.run s)

/-- It goes on through the stream, whatever it gives. -/
abbrev Passes (stream : TokenStream) (x : Compose α) : Prop := Keeps stream (fun _ => True) x

theorem keeps_pure {holds : α → Prop} {a : α} (meets : holds a) :
    Keeps stream holds (pure a) := fun _ kept => ⟨meets, kept⟩

theorem Keeps.bind {holds : α → Prop} {next : β → Prop} {x : Compose α} {f : α → Compose β}
    (first : Keeps stream holds x) (after : ∀ a, holds a → Keeps stream next (f a)) :
    Keeps stream next (x >>= f) := fun s kept =>
  (first s kept).bind fun result meets => after result.1 meets.1 result.2 meets.2

/-- What is given may still be changed. -/
theorem Keeps.pass {holds : α → Prop} {x : Compose α} (kept : Keeps stream holds x) (f : α → β) :
    Passes stream (x >>= fun a => pure (f a)) := kept.bind fun _ _ => keeps_pure trivial

theorem keeps_throw (holds : α → Prop) : Keeps stream holds (throw .malformed : Compose α) :=
  fun _ _ => .inl rfl

theorem keeps_get : Keeps stream (Composer.Of stream) (get : Compose Composer) :=
  fun _ kept => ⟨kept, kept⟩

theorem keeps_set {s : Composer} (kept : s.Of stream) :
    Passes stream (set s : Compose PUnit) := fun _ _ => ⟨trivial, kept⟩

theorem keeps_modify {f : Composer → Composer} (kept : ∀ s, s.Of stream → (f s).Of stream) :
    Passes stream (modify f : Compose PUnit) := fun s before => ⟨trivial, kept s before⟩

theorem keeps_peek : Keeps stream (· ∈ stream.tokens) peek := by
  rintro ⟨⟨tokens, fault⟩, graph, anchors, handles⟩ kept
  cases tokens with
  | cons token rest => exact ⟨kept.unread.subset (List.mem_cons_self ..), kept⟩
  | nil =>
    cases fault with
    | none => exact .inl rfl
    | some fault => exact .inr kept.fault.symm

theorem keeps_skip : Passes stream skip :=
  keeps_modify fun _ kept =>
    ⟨(List.tail_suffix _).trans kept.unread, kept.fault, kept.tags⟩

theorem keeps_accept (token : Token) : Passes stream (accept token) :=
  keeps_peek.bind fun next _ => by
    split
    · exact keeps_skip.pass _
    · exact keeps_pure trivial

theorem keeps_expect (token : Token) : Passes stream (expect token) :=
  (keeps_accept token).bind fun found _ => by
    cases found with
    | true => exact keeps_pure trivial
    | false => exact keeps_throw _

theorem keeps_looksAt (tokens : List Token) : Passes stream (looksAt tokens) :=
  keeps_peek.pass _

theorem keeps_add (anchor : Option Text) {node : Node} (given : stream.Gives node.tag) :
    Passes stream (add anchor node) :=
  keeps_get.bind fun s kept => by
    have grown : Graph.TagsIn (s.graph.push node) stream.Gives := kept.tags.push given
    cases anchor with
    | none =>
      have kept : Composer.Of stream { s with graph := s.graph.push node } :=
        ⟨kept.unread, kept.fault, grown⟩
      exact (keeps_set kept).pass _
    | some name =>
      have kept : Composer.Of stream
          { s with graph := s.graph.push node, anchors := s.anchors.put name s.graph.size } :=
        ⟨kept.unread, kept.fault, grown⟩
      dsimp only
      split
      · exact (keeps_throw fun _ => True).pass _
      · exact (keeps_set kept).pass _

theorem keeps_fill (id : NodeId) (content : Content) : Passes stream (fill id content) :=
  keeps_modify fun _ kept => ⟨kept.unread, kept.fault,
    kept.tags.modify id (fun node => { node with content }) fun _ given => given⟩

theorem gives_ofPlain_nil : stream.Gives (Tag.ofPlain []) := .text

theorem keeps_emptyScalar : Passes stream emptyScalar := keeps_add none gives_ofPlain_nil

/-! ## Nodes -/

theorem keeps_tagName (handle : Option Text) (suffix : Text) :
    Keeps stream (fun name => ∃ start, name = start ++ suffix) (tagName handle suffix) := by
  cases handle with
  | none => exact keeps_pure ⟨[], rfl⟩
  | some handle =>
    exact keeps_get.bind fun s _ => by
      split
      · exact keeps_throw _
      · next start _ => exact keeps_pure ⟨start, rfl⟩

theorem keeps_anchor? : Passes stream anchor? :=
  keeps_peek.bind fun token _ => by
    split
    · exact keeps_skip.pass _
    · exact keeps_pure trivial

theorem keeps_tag? :
    Keeps stream (fun tag => ∀ handle suffix, tag = some (handle, suffix) →
      Token.tag handle suffix ∈ stream.tokens) tag? :=
  keeps_peek.bind fun token listed => by
    split
    · next handle suffix =>
      refine keeps_skip.bind fun _ _ => keeps_pure ?_
      rintro _ _ ⟨⟩
      exact listed
    · exact keeps_pure nofun

/-- The tag, if there is one, is one of the stream. -/
def Properties.Of (stream : TokenStream) (p : Properties) : Prop :=
  ∀ name, p.tag = some name → stream.Names name

theorem Properties.of_untagged (anchor : Option Text) : Properties.Of stream ⟨anchor, none⟩ :=
  nofun

theorem keeps_properties : Keeps stream (Properties.Of stream) properties :=
  keeps_anchor?.bind fun first _ => keeps_tag?.bind fun tag listed => by
    cases tag with
    | none =>
      have untagged : ∀ anchor, Keeps stream (Properties.Of stream) (pure ⟨anchor, none⟩) :=
        fun anchor => keeps_pure (Properties.of_untagged anchor)
      dsimp only
      split
      · exact keeps_anchor?.bind fun anchor _ => untagged anchor
      · exact untagged first
    | some tag =>
      have named : ∀ anchor, Keeps stream (Properties.Of stream) (do
          return ⟨anchor, some (← tagName tag.1 tag.2)⟩) := by
        intro anchor
        refine (keeps_tagName tag.1 tag.2).bind fun name spelled => keeps_pure ?_
        obtain ⟨start, rfl⟩ := spelled
        rintro _ ⟨⟩
        exact ⟨tag.1, tag.2, start, listed _ _ rfl, rfl⟩
      dsimp only
      split
      · exact keeps_anchor?.bind fun anchor _ => named anchor
      · exact named first

theorem Properties.Of.scalarTag {p : Properties} (kept : p.Of stream) (plain : Bool) {t : Text}
    (resolved : stream.Gives (Tag.ofPlain t)) : stream.Gives (p.scalarTag plain t) := by
  unfold Properties.scalarTag
  split
  · split
    · exact resolved
    · exact .text
  · next name tagged =>
    split
    · exact resolved
    · exact .spelled ⟨name, kept name tagged, rfl⟩

theorem Properties.Of.collectionTag {p : Properties} (kept : p.Of stream) {otherwise : Tag}
    (given : stream.Gives otherwise) : stream.Gives (p.collectionTag otherwise) := by
  unfold Properties.collectionTag
  split
  · exact given
  · next name tagged =>
    split
    · exact given
    · exact .spelled ⟨name, kept name tagged, rfl⟩

theorem keeps_collection {p : Properties} (kept : p.Of stream) {otherwise : Tag}
    (given : stream.Gives otherwise) {items : Compose Content} (below : Passes stream items) :
    Passes stream (collection p otherwise items) :=
  (keeps_add p.anchor (kept.collectionTag given)).bind fun id _ =>
    below.bind fun content _ => (keeps_fill id content).pass _

theorem Keeps.map {holds : α → Prop} {x : Compose α} (kept : Keeps stream holds x) (f : α → β) :
    Passes stream (f <$> x) := by
  rw [map_eq_pure_bind]
  exact kept.pass _

/-- All that is composed with some fuel goes on through the stream. -/
structure KeepsAt (stream : TokenStream) (fuel : Nat) : Prop where
  node : ∀ place, Passes stream (node fuel place)
  nodeUnless : ∀ ends place, Passes stream (nodeUnless fuel ends place)
  blockSequence : Passes stream (blockSequence fuel)
  openSequence : Passes stream (openSequence fuel)
  blockMapping : Passes stream (blockMapping fuel)
  flowSequence : ∀ first, Passes stream (flowSequence fuel first)
  flowMapping : ∀ first, Passes stream (flowMapping fuel first)

section

variable {fuel : Nat} (below : KeepsAt stream fuel)
include below

theorem keeps_node (place : Place) : Passes stream (node (fuel + 1) place) := by
  unfold node
  refine keeps_peek.bind fun token _ => ?_
  split
  · refine keeps_skip.bind fun _ _ => keeps_get.bind fun s _ => ?_
    split
    · exact keeps_throw _
    · exact keeps_pure trivial
  · refine keeps_properties.bind fun p kept => keeps_peek.bind fun next listed => ?_
    split
    · exact keeps_collection kept .sequence (below.openSequence.map _)
    · exact keeps_skip.bind fun _ _ => keeps_add p.anchor (kept.scalarTag _ (.resolved listed))
    · exact keeps_skip.bind fun _ _ =>
        keeps_collection kept .sequence ((below.flowSequence true).map _)
    · exact keeps_skip.bind fun _ _ =>
        keeps_collection kept .mapping ((below.flowMapping true).map _)
    · exact keeps_skip.bind fun _ _ => keeps_collection kept .sequence (below.blockSequence.map _)
    · exact keeps_skip.bind fun _ _ => keeps_collection kept .sequence (below.blockSequence.map _)
    · exact keeps_skip.bind fun _ _ => keeps_collection kept .mapping (below.blockMapping.map _)
    · exact keeps_skip.bind fun _ _ => keeps_collection kept .mapping (below.blockMapping.map _)
    · split
      · exact keeps_throw _
      · exact keeps_add p.anchor (kept.scalarTag _ gives_ofPlain_nil)

theorem keeps_nodeUnless (ends : List Token) (place : Place) :
    Passes stream (nodeUnless (fuel + 1) ends place) := by
  unfold nodeUnless
  refine (keeps_looksAt ends).bind fun found _ => ?_
  split
  · exact keeps_emptyScalar
  · exact below.node place

theorem keeps_blockSequence : Passes stream (blockSequence (fuel + 1)) := by
  unfold blockSequence
  refine (keeps_accept .blockEntry).bind fun found _ => ?_
  split
  · exact (below.nodeUnless _ _).bind fun _ _ => below.blockSequence.pass _
  · exact (keeps_expect .blockEnd).pass _

theorem keeps_openSequence : Passes stream (openSequence (fuel + 1)) := by
  unfold openSequence
  refine (keeps_accept .blockEntry).bind fun found _ => ?_
  split
  · exact (below.nodeUnless _ _).bind fun _ _ => below.openSequence.pass _
  · exact keeps_pure trivial

/-- An entry whose key is marked; its value may not be written. -/
theorem keeps_entry {holds : α → Prop} (ends after : List Token) (place : Place)
    {rest : NodeId → NodeId → Compose α} (kept : ∀ key value, Keeps stream holds (rest key value)) :
    Keeps stream holds (do
      let key ← Compose.nodeUnless fuel ends place
      let value ←
        if ← accept .value then Compose.nodeUnless fuel after place else emptyScalar
      rest key value) := by
  refine (below.nodeUnless ends place).bind fun key _ => ?_
  refine (keeps_accept .value).bind fun found _ => ?_
  split
  · exact (below.nodeUnless after place).bind fun value _ => kept key value
  · exact keeps_emptyScalar.bind fun value _ => kept key value

theorem keeps_blockMapping : Passes stream (blockMapping (fuel + 1)) := by
  unfold blockMapping
  refine keeps_peek.bind fun token _ => ?_
  split
  · exact keeps_skip.bind fun _ _ => keeps_entry below _ _ _ fun _ _ => below.blockMapping.pass _
  · exact (keeps_expect .blockEnd).pass _

omit below in
/-- What comes after the first part of a bracket, once its comma is read. -/
theorem keeps_parted {holds : α → Prop} (first : Bool) {rest : Compose α}
    (kept : Keeps stream holds rest) :
    Keeps stream holds (do
      if !first then expect .flowEntry
      rest) := by
  cases first with
  | true => exact kept
  | false => exact (keeps_expect .flowEntry).bind fun _ _ => kept

theorem keeps_flowSequence (first : Bool) : Passes stream (flowSequence (fuel + 1) first) := by
  unfold flowSequence
  refine (keeps_accept .flowSequenceEnd).bind fun found _ => ?_
  split
  · exact keeps_pure trivial
  · refine keeps_parted first (keeps_peek.bind fun token _ => ?_)
    split
    · refine keeps_skip.bind fun _ _ => Keeps.bind (keeps_collection (Properties.of_untagged none)
        .mapping (keeps_entry below _ _ _ fun _ _ => keeps_pure trivial)) fun _ _ => ?_
      exact (below.flowSequence false).pass _
    · exact keeps_skip.pass _
    · exact (below.node .flow).bind fun _ _ => (below.flowSequence false).pass _

theorem keeps_flowMapping (first : Bool) : Passes stream (flowMapping (fuel + 1) first) := by
  unfold flowMapping
  refine (keeps_accept .flowMappingEnd).bind fun found _ => ?_
  split
  · exact keeps_pure trivial
  · refine keeps_parted first (keeps_peek.bind fun token _ => ?_)
    split
    · exact keeps_skip.bind fun _ _ => keeps_entry below _ _ _ fun _ _ =>
        (below.flowMapping false).pass _
    · exact keeps_skip.pass _
    · exact (below.node .flow).bind fun _ _ => keeps_emptyScalar.bind fun _ _ =>
        (below.flowMapping false).pass _

end

/-- Whatever is composed goes on through the stream, with any fuel. -/
theorem keepsAt (stream : TokenStream) (fuel : Nat) : KeepsAt stream fuel := by
  induction fuel with
  | zero =>
    exact ⟨fun _ => keeps_throw _, fun _ _ => keeps_throw _, keeps_throw _, keeps_throw _,
      keeps_throw _, fun _ => keeps_throw _, fun _ => keeps_throw _⟩
  | succ fuel below =>
    exact ⟨keeps_node below, keeps_nodeUnless below, keeps_blockSequence below,
      keeps_openSequence below, keeps_blockMapping below, keeps_flowSequence below,
      keeps_flowMapping below⟩

/-! ## Documents -/

theorem keeps_directives (fuel : Nat) (versioned : Bool) (handles : Table Text Text) :
    Passes stream (directives fuel versioned handles) := by
  induction fuel generalizing versioned handles with
  | zero => exact keeps_throw _
  | succ fuel ih =>
    refine keeps_peek.bind fun token _ => ?_
    split
    · refine keeps_skip.bind fun _ _ => ?_
      split
      · exact (keeps_throw fun _ => True).bind fun _ _ => ih _ _
      · exact ih _ _
    · refine keeps_skip.bind fun _ _ => ?_
      split
      · exact (keeps_throw fun _ => True).bind fun _ _ => ih _ _
      · exact ih _ _
    · exact keeps_skip.bind fun _ _ => ih _ _
    · exact keeps_pure trivial

theorem keeps_skipDocumentEnds (fuel : Nat) : Passes stream (skipDocumentEnds fuel) := by
  induction fuel with
  | zero => exact keeps_pure trivial
  | succ fuel ih =>
    refine (keeps_accept .documentEnd).bind fun found _ => ?_
    split
    · exact ih
    · exact keeps_pure trivial

/-- Where no further document starts, the text has ended. -/
theorem keeps_documentStart? (fuel : Nat) :
    Keeps stream (fun found => found = false → Token.streamEnd ∈ stream.tokens)
      (documentStart? fuel) :=
  (keeps_skipDocumentEnds fuel).bind fun _ _ => keeps_peek.bind fun token listed => by
    split
    · exact keeps_pure fun _ => listed
    · refine (keeps_directives fuel false Table.empty).bind fun handles _ => ?_
      have kept : ∀ s : Composer, s.Of stream →
          Composer.Of stream { s with handles := defaultHandles.update handles } :=
        fun _ kept => ⟨kept.unread, kept.fault, kept.tags⟩
      refine (keeps_modify kept).bind fun _ _ => ?_
      exact (keeps_expect .documentStart).bind fun _ _ => keeps_pure nofun

theorem keeps_documentContent (fuel : Nat) : Passes stream (documentContent fuel) :=
  keeps_peek.bind fun token _ => by
    split
    · exact keeps_emptyScalar
    · exact (keepsAt stream fuel).node .block

theorem Keeps.some {x : Compose α} (kept : Passes stream x) :
    Keeps stream (· ≠ none) (some <$> x) := by
  rw [map_eq_pure_bind]
  exact kept.bind fun a _ => keeps_pure (Option.some_ne_none a)

/-- A document is complete only when its text has ended. -/
theorem keeps_single (fuel : Nat) :
    Keeps stream (fun _ => Token.streamEnd ∈ stream.tokens) (single fuel) := by
  have ended : ∀ root : Option NodeId, (root = none → Token.streamEnd ∈ stream.tokens) →
      Keeps stream (fun _ => Token.streamEnd ∈ stream.tokens) (do
        if root = none then return none
        let _ ← accept .documentEnd
        if ← documentStart? fuel then throw .malformed else return root) := by
    intro root absent
    split
    · next rootless => exact keeps_pure (absent rootless)
    · refine (keeps_accept .documentEnd).bind fun _ _ => ?_
      refine (keeps_documentStart? fuel).bind fun more last => ?_
      split
      · exact keeps_throw _
      · next alone => exact keeps_pure (last (Bool.eq_false_iff.2 alone))
  refine keeps_peek.bind fun token _ => ?_
  dsimp only
  split
  · refine (keeps_documentStart? fuel).bind fun found last => ?_
    split
    · exact (Keeps.some (keeps_documentContent fuel)).bind fun root here =>
        ended root fun rootless => absurd rootless here
    · next empty => exact ended none fun _ => last (Bool.eq_false_iff.2 empty)
  · exact (Keeps.some ((keepsAt stream fuel).node .block)).bind fun root here =>
      ended root fun rootless => absurd rootless here

end Compose

/-- What the tokens of a stream say of its document. -/
structure Document.Of (stream : TokenStream) (document : Document) : Prop where
  ended : Token.streamEnd ∈ stream.tokens
  tags : document.graph.TagsIn stream.Gives

theorem Document.ofStream_meets (stream : TokenStream) :
    Meets stream.EndsIn (Document.Of stream) (Document.ofStream stream) := by
  have start : Composer.Of stream ⟨stream, #[], Table.empty, Compose.defaultHandles⟩ :=
    ⟨List.suffix_rfl, rfl, fun _ mem => absurd mem (Array.not_mem_empty _)⟩
  have kept := Compose.keeps_single (4 * stream.tokens.length + 8) _ start
  unfold Document.ofStream
  dsimp only
  split
  · next fault failed =>
    rw [failed] at kept
    exact kept
  · next root composer composed =>
    rw [composed] at kept
    exact ⟨kept.1, kept.2.tags⟩

end PropertyToolkit.Yaml
