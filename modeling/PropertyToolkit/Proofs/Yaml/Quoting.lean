import PropertyToolkit.Yaml.Composition

/-!
A plain scalar whose text has no tag of its own might as well be quoted: the document stays the
same, or fails for the same reason. So it does not matter how the scalar is spelled.
-/

set_option autoImplicit false

namespace PropertyToolkit.Yaml

/-- Quotes a plain scalar, unless its text has a meaning of its own. -/
def Token.quoted : Token → Token
  | .scalar plain t => .scalar (plain && Tag.ofPlain t ≠ .str) t
  | token => token

def TokenStream.quoted (stream : TokenStream) : TokenStream :=
  { stream with tokens := stream.tokens.map Token.quoted }

def Composer.quoted (s : Composer) : Composer := { s with stream := s.stream.quoted }

/-- What quoting leaves out of account is the same before and after it. -/
theorem Token.apply_quoted {α : Type} {f : Token → α}
    (same : ∀ t, Tag.ofPlain t = .str → f (.scalar false t) = f (.scalar true t)) (token : Token) :
    f token.quoted = f token := by
  cases token with
  | scalar plain t =>
    cases plain with
    | false => rfl
    | true =>
      by_cases text : Tag.ofPlain t = .str
      · simp only [quoted, text, ne_eq, not_true_eq_false, decide_false, Bool.and_false]
        exact same t text
      · simp only [quoted, ne_eq, text, not_false_eq_true, decide_true, Bool.and_true]
  | _ => rfl

def Token.isScalar : Token → Bool
  | .scalar .. => true
  | _ => false

namespace Compose

variable {α β : Type}

/-- It takes the same way whether scalars are quoted or not. -/
def Blind (x : Compose α) : Prop :=
  ∀ s : Composer, x.run s.quoted = (x.run s).map fun result => (result.1, result.2.quoted)

theorem blind_pure (a : α) : Blind (pure a) := fun _ => rfl

theorem blind_throw (fault : Fault) : Blind (throw fault : Compose α) := fun _ => rfl

theorem Blind.bind {x : Compose α} {f : α → Compose β} (first : Blind x)
    (after : ∀ a, Blind (f a)) : Blind (x >>= f) := by
  intro s
  rw [StateT.run_bind, StateT.run_bind, first s]
  cases x.run s with
  | error fault => rfl
  | ok result => exact after result.1 result.2

theorem Blind.map {x : Compose α} (blind : Blind x) (f : α → β) : Blind (f <$> x) := by
  rw [map_eq_pure_bind]
  exact blind.bind fun _ => blind_pure _

theorem blind_modify {f : Composer → Composer} (same : ∀ s, f s.quoted = (f s).quoted) :
    Blind (modify f : Compose PUnit) := by
  intro s
  change Except.ok (PUnit.unit, f s.quoted) = Except.ok (PUnit.unit, (f s).quoted)
  rw [same]

theorem blind_get {f : Composer → Compose β} (same : ∀ s : Composer, f s.quoted = f s)
    (after : ∀ s, Blind (f s)) : Blind (get >>= f) := by
  intro s
  change (f s.quoted).run s.quoted = ((f s).run s).map _
  rw [same]
  exact after s s

theorem blind_peek {f : Token → Compose β}
    (same : ∀ t, Tag.ofPlain t = .str → f (.scalar false t) = f (.scalar true t))
    (after : ∀ token, Blind (f token)) : Blind (peek >>= f) := by
  rintro ⟨⟨tokens, fault⟩, graph, anchors, handles⟩
  cases tokens with
  | nil => rfl
  | cons token rest =>
    change (f token.quoted).run _ = ((f token).run _).map _
    rw [Token.apply_quoted same]
    exact after token ⟨⟨token :: rest, fault⟩, graph, anchors, handles⟩

theorem blind_skip : Blind skip :=
  blind_modify fun s => by
    simp only [Composer.quoted, TokenStream.quoted, List.map_tail]

theorem blind_accept {token : Token} (other : token.isScalar = false) : Blind (accept token) := by
  refine blind_peek (fun t _ => ?_) fun next => ?_
  · cases token with
    | scalar plain t => cases other
    | _ => rfl
  · split
    · exact blind_skip.bind fun _ => blind_pure _
    · exact blind_pure _

theorem blind_expect {token : Token} (other : token.isScalar = false) : Blind (expect token) :=
  (blind_accept other).bind fun found => by
    cases found with
    | true => exact blind_pure _
    | false => exact blind_throw _

theorem blind_looksAt {tokens : List Token} (other : ∀ token ∈ tokens, token.isScalar = false) :
    Blind (looksAt tokens) := by
  have absent : ∀ plain t, tokens.contains (.scalar plain t) = false := by
    intro plain t
    rw [← Bool.not_eq_true, List.contains_iff_mem]
    intro mem
    cases other _ mem
  refine blind_peek (fun t _ => ?_) fun next => blind_pure _
  rw [absent, absent]

/-- A node that is added, as long as its anchor is new. -/
theorem run_add (anchor : Option Text) (node : Node) (s : Composer) :
    (add anchor node).run s =
      match anchor with
      | none => .ok (s.graph.size, { s with graph := s.graph.push node })
      | some name =>
        if s.anchors.contains name then .error .malformed
        else .ok (s.graph.size,
          { s with graph := s.graph.push node, anchors := s.anchors.put name s.graph.size }) := by
  cases anchor with
  | none => rfl
  | some name =>
    unfold add
    rw [StateT.run_bind, StateT.run_get, pure_bind]
    dsimp only
    split
    · rfl
    · rfl

theorem blind_add (anchor : Option Text) (node : Node) : Blind (add anchor node) := by
  intro s
  rw [run_add, run_add]
  cases anchor with
  | none => rfl
  | some name =>
    by_cases taken : s.anchors.contains name
    · have still : s.quoted.anchors.contains name := taken
      simp only [taken, still, if_true]
      rfl
    · have still : ¬s.quoted.anchors.contains name := taken
      simp only [taken, still]
      rfl

theorem blind_fill (id : NodeId) (content : Content) : Blind (fill id content) :=
  blind_modify fun _ => rfl

theorem blind_emptyScalar : Blind emptyScalar := blind_add none _

theorem blind_tagName (handle : Option Text) (suffix : Text) : Blind (tagName handle suffix) := by
  cases handle with
  | none => exact blind_pure _
  | some handle =>
    refine blind_get (fun _ => rfl) fun s => ?_
    split
    · exact blind_throw _
    · exact blind_pure _

theorem blind_anchor? : Blind anchor? := by
  refine blind_peek (fun _ _ => rfl) fun token => ?_
  split
  · exact blind_skip.bind fun _ => blind_pure _
  · exact blind_pure _

theorem blind_tag? : Blind tag? := by
  refine blind_peek (fun _ _ => rfl) fun token => ?_
  split
  · exact blind_skip.bind fun _ => blind_pure _
  · exact blind_pure _

theorem blind_properties : Blind properties := by
  refine blind_anchor?.bind fun first => blind_tag?.bind fun tag => ?_
  cases tag with
  | none =>
    dsimp only
    split
    · exact blind_anchor?.bind fun _ => blind_pure _
    · exact blind_pure _
  | some name =>
    have named (anchor : Option Text) :
        Blind (do return (⟨anchor, some (← tagName name.1 name.2)⟩ : Properties)) :=
      (blind_tagName _ _).bind fun _ => blind_pure _
    dsimp only
    split
    · exact blind_anchor?.bind named
    · exact named first

theorem blind_collection (p : Properties) (otherwise : Tag) {items : Compose Content}
    (below : Blind items) : Blind (collection p otherwise items) :=
  (blind_add _ _).bind fun _ => below.bind fun _ => (blind_fill _ _).bind fun _ => blind_pure _

/-- The tag of a scalar that is quoted stays the same. -/
theorem Properties.scalarTag_quoted (p : Properties) {t : Text} (text : Tag.ofPlain t = .str) :
    p.scalarTag false t = p.scalarTag true t := by
  unfold scalarTag
  split
  · simp [text]
  · rfl

/-- All that is composed with some fuel is blind to quotes. -/
structure BlindAt (fuel : Nat) : Prop where
  node : ∀ place, Blind (node fuel place)
  nodeUnless : ∀ ends place, (∀ token ∈ ends, token.isScalar = false) →
    Blind (nodeUnless fuel ends place)
  blockSequence : Blind (blockSequence fuel)
  openSequence : Blind (openSequence fuel)
  blockMapping : Blind (blockMapping fuel)
  flowSequence : ∀ first, Blind (flowSequence fuel first)
  flowMapping : ∀ first, Blind (flowMapping fuel first)

section

variable {fuel : Nat} (below : BlindAt fuel)
include below

theorem blind_node (place : Place) : Blind (node (fuel + 1) place) := by
  unfold node
  refine blind_peek (fun _ _ => rfl) fun token => ?_
  split
  · refine blind_skip.bind fun _ => blind_get (fun _ => rfl) fun s => ?_
    split
    · exact blind_throw _
    · exact blind_pure _
  · refine blind_properties.bind fun p => blind_peek (fun t text => ?_) fun next => ?_
    · simp only [p.scalarTag_quoted text]
    · split
      · exact blind_collection _ _ (below.openSequence.map _)
      · exact blind_skip.bind fun _ => blind_add _ _
      · exact blind_skip.bind fun _ => blind_collection _ _ ((below.flowSequence true).map _)
      · exact blind_skip.bind fun _ => blind_collection _ _ ((below.flowMapping true).map _)
      · exact blind_skip.bind fun _ => blind_collection _ _ (below.blockSequence.map _)
      · exact blind_skip.bind fun _ => blind_collection _ _ (below.blockSequence.map _)
      · exact blind_skip.bind fun _ => blind_collection _ _ (below.blockMapping.map _)
      · exact blind_skip.bind fun _ => blind_collection _ _ (below.blockMapping.map _)
      · split
        · exact blind_throw _
        · exact blind_add _ _

theorem blind_nodeUnless (ends : List Token) (place : Place)
    (other : ∀ token ∈ ends, token.isScalar = false) :
    Blind (nodeUnless (fuel + 1) ends place) := by
  unfold nodeUnless
  refine (blind_looksAt other).bind fun found => ?_
  split
  · exact blind_emptyScalar
  · exact below.node place

theorem blind_blockSequence : Blind (blockSequence (fuel + 1)) := by
  unfold blockSequence
  refine (blind_accept rfl).bind fun found => ?_
  split
  · exact (below.nodeUnless _ _ (by decide)).bind fun _ =>
      below.blockSequence.bind fun _ => blind_pure _
  · exact (blind_expect rfl).bind fun _ => blind_pure _

theorem blind_openSequence : Blind (openSequence (fuel + 1)) := by
  unfold openSequence
  refine (blind_accept rfl).bind fun found => ?_
  split
  · exact (below.nodeUnless _ _ (by decide)).bind fun _ =>
      below.openSequence.bind fun _ => blind_pure _
  · exact blind_pure _

/-- An entry whose key is marked; its value may not be written. -/
theorem blind_entry {ends after : List Token} (place : Place) {rest : NodeId → NodeId → Compose α}
    (other : ∀ token ∈ ends, token.isScalar = false)
    (otherToo : ∀ token ∈ after, token.isScalar = false)
    (blind : ∀ key value, Blind (rest key value)) :
    Blind (do
      let key ← Compose.nodeUnless fuel ends place
      let value ←
        if ← accept .value then Compose.nodeUnless fuel after place else emptyScalar
      rest key value) := by
  refine (below.nodeUnless ends place other).bind fun key => ?_
  refine (blind_accept rfl).bind fun found => ?_
  split
  · exact (below.nodeUnless after place otherToo).bind fun value => blind key value
  · exact blind_emptyScalar.bind fun value => blind key value

theorem blind_blockMapping : Blind (blockMapping (fuel + 1)) := by
  unfold blockMapping
  refine blind_peek (fun _ _ => rfl) fun token => ?_
  split
  · exact blind_skip.bind fun _ => blind_entry below _ (by decide) (by decide) fun _ _ =>
      below.blockMapping.bind fun _ => blind_pure _
  · exact (blind_expect rfl).bind fun _ => blind_pure _

omit below in
/-- What comes after the first part of a bracket, once its comma is read. -/
theorem blind_parted (first : Bool) {rest : Compose α} (blind : Blind rest) :
    Blind (do
      if !first then expect .flowEntry
      rest) := by
  cases first with
  | true => exact blind
  | false => exact (blind_expect rfl).bind fun _ => blind

theorem blind_flowSequence (first : Bool) : Blind (flowSequence (fuel + 1) first) := by
  unfold flowSequence
  refine (blind_accept rfl).bind fun found => ?_
  split
  · exact blind_pure _
  · refine blind_parted first (blind_peek (fun _ _ => rfl) fun token => ?_)
    split
    · refine blind_skip.bind fun _ => Blind.bind (blind_collection _ _
        (blind_entry below _ (by decide) (by decide) fun _ _ => blind_pure _)) fun _ => ?_
      exact (below.flowSequence false).bind fun _ => blind_pure _
    · exact blind_skip.bind fun _ => blind_pure _
    · exact (below.node .flow).bind fun _ =>
        (below.flowSequence false).bind fun _ => blind_pure _

theorem blind_flowMapping (first : Bool) : Blind (flowMapping (fuel + 1) first) := by
  unfold flowMapping
  refine (blind_accept rfl).bind fun found => ?_
  split
  · exact blind_pure _
  · refine blind_parted first (blind_peek (fun _ _ => rfl) fun token => ?_)
    split
    · exact blind_skip.bind fun _ => blind_entry below _ (by decide) (by decide) fun _ _ =>
        (below.flowMapping false).bind fun _ => blind_pure _
    · exact blind_skip.bind fun _ => blind_pure _
    · exact (below.node .flow).bind fun _ => blind_emptyScalar.bind fun _ =>
        (below.flowMapping false).bind fun _ => blind_pure _

end

theorem blindAt (fuel : Nat) : BlindAt fuel := by
  induction fuel with
  | zero =>
    exact ⟨fun _ => blind_throw _, fun _ _ _ => blind_throw _, blind_throw _, blind_throw _,
      blind_throw _, fun _ => blind_throw _, fun _ => blind_throw _⟩
  | succ fuel below =>
    exact ⟨blind_node below, blind_nodeUnless below, blind_blockSequence below,
      blind_openSequence below, blind_blockMapping below, blind_flowSequence below,
      blind_flowMapping below⟩

/-! ## Documents -/

theorem blind_directives (fuel : Nat) (versioned : Bool) (handles : Table Text Text) :
    Blind (directives fuel versioned handles) := by
  induction fuel generalizing versioned handles with
  | zero => exact blind_throw _
  | succ fuel ih =>
    refine blind_peek (fun _ _ => rfl) fun token => ?_
    split
    · refine blind_skip.bind fun _ => ?_
      split
      · exact (blind_throw _).bind fun _ => ih _ _
      · exact ih _ _
    · refine blind_skip.bind fun _ => ?_
      split
      · exact (blind_throw _).bind fun _ => ih _ _
      · exact ih _ _
    · exact blind_skip.bind fun _ => ih _ _
    · exact blind_pure _

theorem blind_skipDocumentEnds (fuel : Nat) : Blind (skipDocumentEnds fuel) := by
  induction fuel with
  | zero => exact blind_pure _
  | succ fuel ih =>
    refine (blind_accept rfl).bind fun found => ?_
    split
    · exact ih
    · exact blind_pure _

theorem blind_documentStart? (fuel : Nat) : Blind (documentStart? fuel) := by
  refine (blind_skipDocumentEnds fuel).bind fun _ => blind_peek (fun _ _ => rfl) fun token => ?_
  split
  · exact blind_pure _
  · refine (blind_directives fuel false Table.empty).bind fun handles => ?_
    have placed : Blind (modify fun s => { s with handles := defaultHandles.update handles }) :=
      blind_modify fun _ => rfl
    exact placed.bind fun _ => (blind_expect rfl).bind fun _ => blind_pure _

theorem blind_documentContent (fuel : Nat) : Blind (documentContent fuel) := by
  refine blind_peek (fun _ _ => rfl) fun token => ?_
  split
  · exact blind_emptyScalar
  · exact (blindAt fuel).node .block

theorem blind_single (fuel : Nat) : Blind (single fuel) := by
  have ended : ∀ root : Option NodeId, Blind (do
      if root = none then return none
      let _ ← accept .documentEnd
      if ← documentStart? fuel then throw .malformed else return root) := by
    intro root
    split
    · exact blind_pure _
    · refine (blind_accept rfl).bind fun _ => (blind_documentStart? fuel).bind fun more => ?_
      split
      · exact blind_throw _
      · exact blind_pure _
  refine blind_peek (fun _ _ => rfl) fun token => ?_
  dsimp only
  split
  · refine (blind_documentStart? fuel).bind fun found => ?_
    split
    · exact ((blind_documentContent fuel).map some).bind fun root => ended root
    · exact ended none
  · exact (((blindAt fuel).node .block).map some).bind fun root => ended root

end Compose

/-- Quoting the plain scalars of a stream changes nothing of its document. -/
theorem Document.ofStream_quoted (stream : TokenStream) :
    ofStream stream.quoted = ofStream stream := by
  have long : stream.quoted.tokens.length = stream.tokens.length := List.length_map _
  have blind : (Compose.single (4 * stream.tokens.length + 8)).run
      ⟨stream.quoted, #[], Table.empty, Compose.defaultHandles⟩ = _ :=
    Compose.blind_single _ ⟨stream, #[], Table.empty, Compose.defaultHandles⟩
  unfold ofStream
  rw [long]
  dsimp only
  rw [blind]
  cases (Compose.single (4 * stream.tokens.length + 8)).run
    ⟨stream, #[], Table.empty, Compose.defaultHandles⟩ <;> rfl

end PropertyToolkit.Yaml
