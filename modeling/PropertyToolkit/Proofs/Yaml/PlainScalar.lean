import PropertyToolkit.Proofs.Text.Regex
import PropertyToolkit.Proofs.Yaml.Lexing
import PropertyToolkit.Yaml.Graph

/-!
How plain scalars are spelled. The sign that starts a tag, an anchor or an alias starts no plain
scalar, and a line break ends none. So of the texts that have a tag of their own only the merge sign
is ever read as a plain scalar.
-/

set_option autoImplicit false

namespace PropertyToolkit.Yaml

/-! ## The text of a plain scalar -/

/-- A text, or the lack of one, as it may be read from where a given code point comes next. -/
structure IsReadFrom (first : Option CodePoint) (t : Text) : Prop where
  first : t ≠ [] → t.head? = first
  last : ∀ c ∈ t.getLast?, isBreak c = false

theorem isReadFrom_nil (first : Option CodePoint) : IsReadFrom first [] :=
  ⟨fun filled => absurd rfl filled, nofun⟩

theorem isBreak_of_mem_plainRun {flow : Bool} {t : Text} {c : CodePoint}
    (mem : c ∈ plainRun flow t) : isBreak c = false := by
  induction t with
  | nil => cases mem
  | cons first rest ih =>
    unfold plainRun at mem
    split at mem
    · cases mem
    · next solid =>
      split at mem
      · cases mem
      · split at mem
        · cases mem
        · rcases List.mem_cons.1 mem with rfl | later
          · rw [Bool.not_eq_true, isBoundary, Bool.or_eq_false_iff] at solid
            exact solid.2
          · exact ih later

theorem head?_plainRun (flow : Bool) (t : Text) :
    plainRun flow t = [] ∨ (plainRun flow t).head? = t.head? := by
  cases t with
  | nil => exact .inl rfl
  | cons first rest =>
    unfold plainRun
    split
    · exact .inl rfl
    · split
      · exact .inl rfl
      · split
        · exact .inl rfl
        · exact .inr rfl

/-- A run of code points goes on with what was read, or begins it. -/
theorem IsReadFrom.append {first : Option CodePoint} {read spaces : Text} {flow : Bool}
    {cursor : Cursor} (before : IsReadFrom first read)
    (fresh : read = [] → spaces = [] ∧ cursor.head? = first)
    (filled : plainRun flow cursor.rest ≠ []) :
    IsReadFrom first (read ++ (spaces ++ plainRun flow cursor.rest)) := by
  have begun := (head?_plainRun flow cursor.rest).resolve_left filled
  constructor
  · intro _
    cases read with
    | nil =>
      obtain ⟨rfl, here⟩ := fresh rfl
      exact begun.trans here
    | cons c rest => exact before.first (List.cons_ne_nil c rest)
  · intro c ending
    rw [← List.append_assoc, List.getLast?_append, List.getLast?_eq_some_getLast filled] at ending
    cases ending
    exact isBreak_of_mem_plainRun (List.getLast_mem filled)

theorem isReadFrom_plainWords {first : Option CodePoint} (flow : Bool) (indent : Int) (fuel : Nat)
    {cursor : Cursor} {read spaces : Text} (broken : Bool) (before : IsReadFrom first read)
    (fresh : read = [] → spaces = [] ∧ cursor.head? = first) :
    IsReadFrom first (plainWords flow indent fuel cursor read spaces broken).1 := by
  induction fuel generalizing cursor read spaces broken with
  | zero => exact before
  | succ fuel ih =>
    unfold plainWords
    dsimp only
    split
    · exact before
    · split
      · exact before
      · next filled =>
        have longer := before.append fresh filled
        split
        · exact longer
        · refine ih _ longer fun empty => ?_
          exact absurd (List.append_eq_nil_iff.1 (List.append_eq_nil_iff.1 empty).2).2 filled

theorem isReadFrom_plainScalar (flow : Bool) (indent : Int) (cursor : Cursor) :
    IsReadFrom cursor.head? (plainScalar flow indent cursor).1 :=
  isReadFrom_plainWords flow indent _ _ (isReadFrom_nil _) fun _ => ⟨rfl, rfl⟩

/-- The code points that start a tag, an anchor and an alias. -/
def nodeSigns : Text := "!&*"

/-- A text that may stand as a plain scalar. -/
structure IsPlain (t : Text) : Prop where
  first : ∀ c ∈ t.head?, c ∉ nodeSigns
  last : ∀ c ∈ t.getLast?, isBreak c = false

/-- The last code point of a plain scalar is part of its form. -/
theorem IsPlain.matches_of_applies {t : Text} (plain : IsPlain t) {resolver : Resolver}
    (applies : resolver.applies t = true) : resolver.form.Matches t := by
  rw [Resolver.applies, Bool.and_eq_true, Bool.or_eq_true, Bool.and_eq_true,
    decide_eq_true_iff] at applies
  rcases applies.2 with whole | ⟨broken, -⟩
  · exact (Regex.accepts_iff _ _).1 whole
  · cases plain.last _ broken

/-- The only plain scalar that is no text is the merge sign. -/
theorem IsPlain.ofPlain_eq_str {t : Text} (plain : IsPlain t) (unmerged : t ≠ ("<<" : Text)) :
    Tag.ofPlain t = .str := by
  have unsigned : ∀ c ∈ nodeSigns, ¬(Regex.word [c]).Matches t := by
    intro c signed matched
    rw [Regex.matches_word_iff] at matched
    subst matched
    exact plain.first c rfl signed
  have idle : ∀ resolver ∈ Tag.resolvers, ¬resolver.applies t = true := by
    intro resolver listed applies
    have matched := plain.matches_of_applies applies
    have left : Tag.resolvers = [Resolver.merge, Resolver.nodeSign] := rfl
    rw [left, List.mem_cons, List.mem_singleton] at listed
    rcases listed with rfl | rfl
    · exact unmerged ((Regex.matches_word_iff _).1 matched)
    · obtain ⟨sign, listed, matched⟩ := (Regex.matches_firstOf_iff _).1 matched
      obtain ⟨word, among, rfl⟩ := List.mem_map.1 listed
      have single : ∀ word ∈ (["!", "&", "*"] : List Text), ∃ c ∈ nodeSigns, word = [c] := by decide
      obtain ⟨c, signed, rfl⟩ := single word among
      exact unsigned c signed matched
  rw [Tag.ofPlain, List.find?_eq_none.2 idle]

/-- A scalar without a tag, as it is written: plain, or quoted in some way. -/
structure Scalar where
  plain : Bool
  text : Text
deriving DecidableEq

namespace Scalar

def mergeSign : Scalar := ⟨true, "<<"⟩

def tag (scalar : Scalar) : Tag := if scalar.plain then Tag.ofPlain scalar.text else .str

/-- It may be written so. -/
def IsSpelled (scalar : Scalar) : Prop := scalar.plain = true → IsPlain scalar.text

theorem IsSpelled.tag_eq {scalar : Scalar} (spelled : scalar.IsSpelled) :
    scalar.tag = if scalar = mergeSign then .merge else .str := by
  obtain ⟨plain, text⟩ := scalar
  cases plain with
  | false => rfl
  | true =>
    split
    · next sign =>
      cases sign
      rfl
    · next other => exact (spelled rfl).ofPlain_eq_str fun same => other (congrArg _ same)

end Scalar

/-! ## Tokens -/

/-- A token that is a plain scalar only if its text may stand as one. -/
def Token.IsSpelled : Token → Prop
  | .scalar true t => IsPlain t
  | _ => True

/-- A reading that may fail in any way; what it gives meets a condition. -/
abbrev Yields {α : Type} (holds : α → Prop) (x : Except Fault α) : Prop :=
  Meets (fun _ => True) holds x

theorem yields_any {α : Type} (x : Except Fault α) : Yields (fun _ => True) x := by
  cases x <;> trivial

theorem yields_self {α : Type} (x : Except Fault α) : Yields (fun a => x = .ok a) x := by
  cases x with
  | error fault => trivial
  | ok a => rfl

theorem yields_error {α : Type} (holds : α → Prop) (fault : Fault) :
    Yields holds (.error fault : Except Fault α) := trivial

theorem yields_ite {α : Type} {holds : α → Prop} {p : Prop} [Decidable p] {x y : Except Fault α}
    (first : p → Yields holds x) (second : Yields holds y) :
    Yields holds (if p then x else y) := by
  split
  · next true => exact first true
  · exact second

namespace Cursor

/-- The token that is read is spelled well. -/
abbrev ReadsSpelled (x : Except Fault (Token × Cursor)) : Prop :=
  Yields (fun read => read.1.IsSpelled) x

theorem readsSpelled_expect (cursor : Cursor) (p : Option CodePoint → Bool)
    (after : Cursor → Cursor) {token : Token} (spelled : token.IsSpelled) :
    ReadsSpelled (do
      let cursor ← cursor.expect p
      return (token, after cursor)) :=
  (yields_any _).bind fun _ _ => spelled

theorem readsSpelled_map {α : Type} (x : Except Fault (α × Cursor)) {token : α → Token}
    (spelled : ∀ a, (token a).IsSpelled) :
    ReadsSpelled (x.map fun read => (token read.1, read.2)) := by
  cases x with
  | error fault => trivial
  | ok read => exact spelled read.1

theorem readsSpelled_tag (cursor : Cursor) : ReadsSpelled cursor.tag := by
  have last : ∀ read : Token × Cursor, read.1.IsSpelled → ReadsSpelled (do
      let cursor ← read.2.expect isGap
      return (read.1, cursor)) := fun read spelled => readsSpelled_expect _ _ id spelled
  unfold tag
  dsimp only
  split
  · refine (yields_any _).bind fun read _ => ?_
    split
    · exact last _ trivial
    · trivial
  · split
    · exact last _ trivial
    · split
      · exact (yields_any _).bind fun handle _ => (yields_any _).bind fun _ _ => last _ trivial
      · exact (yields_any _).bind fun _ _ => last _ trivial

theorem readsSpelled_version (cursor : Cursor) : ReadsSpelled cursor.version := by
  refine (yields_any _).bind fun major _ => yields_ite (fun _ => ?_) (yields_error _ _)
  exact (yields_any _).bind fun minor _ =>
    readsSpelled_expect _ _ id trivial

theorem readsSpelled_tagDirective (cursor : Cursor) : ReadsSpelled cursor.tagDirective :=
  (yields_any _).bind fun _ _ => (yields_any _).bind fun _ _ => (yields_any _).bind fun _ _ =>
    readsSpelled_expect _ _ id trivial

theorem readsSpelled_directive (cursor : Cursor) : ReadsSpelled cursor.directive := by
  have last : ∀ read : Token × Cursor, read.1.IsSpelled → ReadsSpelled (do
      let cursor ← read.2.skipSpaces.skipComment.expect isLineEnd
      return (read.1, cursor.takeBreak.2)) := fun read spelled =>
    readsSpelled_expect _ _ (fun cursor => cursor.takeBreak.2) spelled
  refine (yields_any _).bind fun name _ => (yields_any _).bind fun gap _ => ?_
  dsimp only
  split
  · exact (readsSpelled_version gap).bind last
  · split
    · exact (readsSpelled_tagDirective gap).bind last
    · exact last _ trivial

end Cursor

namespace Lexer

variable {lexer : Lexer}

def IsSpelled (lexer : Lexer) : Prop := ∀ token ∈ lexer.tokens, token.IsSpelled

/-- What is given has tokens that are spelled well. -/
abbrev Spells (x : Lex) : Prop := Yields IsSpelled x

/-- A step that reads nothing: the tokens and the cursor stay. -/
def SameTokens (lexer after : Lexer) : Prop :=
  after.tokens = lexer.tokens ∧ after.cursor = lexer.cursor

/-- Whether a key may start does not matter. -/
theorem IsSpelled.allowing (spelled : lexer.IsSpelled) (allowed : Bool) :
    IsSpelled { lexer with keyAllowed := allowed } := spelled

theorem IsSpelled.emit (spelled : lexer.IsSpelled) {token : Token} (new : token.IsSpelled) :
    (lexer.emit token).IsSpelled := by
  intro other mem
  rcases Array.mem_push.1 mem with before | rfl
  · exact spelled other before
  · exact new

theorem IsSpelled.insert (spelled : lexer.IsSpelled) (position : Nat) {token : Token}
    (new : token.IsSpelled) :
    ∀ other ∈ lexer.tokens.insertIdxIfInBounds position token, other.IsSpelled := by
  intro other mem
  unfold Array.insertIdxIfInBounds at mem
  split at mem
  · rcases Array.mem_insertIdx.1 mem with rfl | before
    · exact new
    · exact spelled other before
  · exact spelled other mem

theorem IsSpelled.openBlock (spelled : lexer.IsSpelled) (column position : Nat) (token : Token)
    (new : token.IsSpelled) : (lexer.openBlock column position token).IsSpelled := by
  unfold Lexer.openBlock
  split
  · exact spelled.insert position new
  · exact spelled

theorem IsSpelled.closeBlocks (spelled : lexer.IsSpelled) (column : Int) :
    (lexer.closeBlocks column).IsSpelled := by
  unfold Lexer.closeBlocks
  split
  · intro other mem
    rcases Array.mem_append.1 mem with before | closed
    · exact spelled other before
    · rw [(Array.mem_replicate.1 closed).2]
      trivial
  · exact spelled

theorem tokens_skipToToken (fuel : Nat) (lexer : Lexer) :
    (skipToToken fuel lexer).tokens = lexer.tokens := by
  induction fuel generalizing lexer with
  | zero => rfl
  | succ fuel ih =>
    unfold skipToToken
    dsimp only
    split
    · exact ih _
    · rfl

theorem dropPlace_same (lexer : Lexer) : Yields lexer.SameTokens lexer.dropPlace := by
  unfold dropPlace
  split
  · trivial
  · exact ⟨rfl, rfl⟩

theorem keepPlace_same (lexer : Lexer) : Yields lexer.SameTokens lexer.keepPlace := by
  unfold keepPlace
  split
  · exact (dropPlace_same lexer).bind fun after same => same
  · exact ⟨rfl, rfl⟩

theorem IsSpelled.of_same (spelled : lexer.IsSpelled) {after : Lexer}
    (same : lexer.SameTokens after) : after.IsSpelled := by
  intro token mem
  rw [same.1] at mem
  exact spelled token mem

theorem IsSpelled.dropPlace (spelled : lexer.IsSpelled) : Spells lexer.dropPlace :=
  (dropPlace_same lexer).imp fun _ same => spelled.of_same same

theorem IsSpelled.openHere (spelled : lexer.IsSpelled) (token : Token) (new : token.IsSpelled) :
    Spells (lexer.openHere token) := by
  unfold Lexer.openHere
  split
  · split
    · exact spelled.openBlock _ _ token new
    · trivial
  · exact spelled

/-! ## The whole of a text -/

theorem IsSpelled.streamEnd (spelled : lexer.IsSpelled) : Spells lexer.streamEnd :=
  (spelled.closeBlocks (-1)).dropPlace.bind fun _ kept => kept.emit trivial

theorem IsSpelled.directive (spelled : lexer.IsSpelled) : Spells lexer.directive :=
  (spelled.closeBlocks (-1)).dropPlace.bind fun _ kept =>
    (Cursor.readsSpelled_directive _).bind fun _ new => kept.emit new

theorem IsSpelled.documentMarker (spelled : lexer.IsSpelled) {token : Token}
    (new : token.IsSpelled) : Spells (lexer.documentMarker token) :=
  (spelled.closeBlocks (-1)).dropPlace.bind fun _ kept => kept.emit new

theorem IsSpelled.keepPlace (spelled : lexer.IsSpelled) : Spells lexer.keepPlace :=
  (keepPlace_same lexer).imp fun _ same => spelled.of_same same

theorem IsSpelled.openBracket (spelled : lexer.IsSpelled) {token : Token}
    (new : token.IsSpelled) : Spells (lexer.openBracket token) :=
  spelled.keepPlace.bind fun _ kept => kept.emit new

theorem IsSpelled.closeBracket (spelled : lexer.IsSpelled) {token : Token}
    (new : token.IsSpelled) : Spells (lexer.closeBracket token) :=
  spelled.dropPlace.bind fun _ kept => kept.emit new

theorem IsSpelled.flowEntry (spelled : lexer.IsSpelled) : Spells lexer.flowEntry :=
  (spelled.allowing true).dropPlace.bind fun _ kept => kept.emit trivial

theorem IsSpelled.blockEntry (spelled : lexer.IsSpelled) : Spells lexer.blockEntry :=
  (spelled.openHere .blockSequenceStart trivial).bind fun _ opened =>
    (opened.allowing true).dropPlace.bind fun _ kept => kept.emit trivial

theorem IsSpelled.key (spelled : lexer.IsSpelled) : Spells lexer.key :=
  (spelled.openHere .blockMappingStart trivial).bind fun _ opened =>
    (opened.allowing _).dropPlace.bind fun _ kept => kept.emit trivial

theorem IsSpelled.value (spelled : lexer.IsSpelled) : Spells lexer.value := by
  unfold Lexer.value
  split
  · next depth place _ =>
    have marked : IsSpelled
        { lexer with
          places := lexer.places.filter fun place => place.1 ≠ lexer.depth
          tokens := lexer.tokens.insertIdxIfInBounds place.tokens .key
          keyAllowed := false } := spelled.insert place.tokens trivial
    dsimp only
    split
    · exact (marked.openBlock _ _ .blockMappingStart trivial).emit trivial
    · exact marked.emit trivial
  · exact (spelled.openHere .blockMappingStart trivial).bind fun _ opened =>
      (opened.allowing _).dropPlace.bind fun _ kept => kept.emit trivial

theorem IsSpelled.keyable (spelled : lexer.IsSpelled)
    {read : Cursor → Except Fault (Token × Cursor)}
    (reads : ∀ cursor, Cursor.ReadsSpelled (read cursor)) : Spells (lexer.keyable read) :=
  spelled.keepPlace.bind fun lexer kept => (reads lexer.cursor).bind fun _ new => kept.emit new

theorem not_mem_nodeSigns_of_startsPlain {c : CodePoint} (starts : lexer.startsPlain c = true) :
    c ∉ nodeSigns := by
  intro signed
  have indicators : ∀ sign ∈ nodeSigns,
      ("-?:,[]\x7b\x7d#&*!|>'\"%@\x60" : Text).contains sign = true ∧
        sign ≠ '-' ∧ sign ≠ '?' ∧ sign ≠ ':' := by decide
  obtain ⟨listed, dash, query, colon⟩ := indicators c signed
  rw [startsPlain, listed] at starts
  simp [dash, query, colon] at starts

/-- Where a plain scalar may start, one is read. -/
theorem IsSpelled.plain (spelled : lexer.IsSpelled) {c : CodePoint}
    (here : lexer.cursor.head? = some c) (starts : lexer.startsPlain c = true) :
    Spells lexer.plain := by
  refine (keepPlace_same lexer).bind fun after same => ?_
  have read := isReadFrom_plainScalar (0 < after.depth) (after.indent + 1) after.cursor
  have plain : IsPlain (plainScalar (0 < after.depth) (after.indent + 1) after.cursor).1 := by
    refine ⟨fun first mem => ?_, read.last⟩
    have filled := List.ne_nil_of_mem (List.mem_of_mem_head? mem)
    have begun := mem.symm.trans (read.first filled)
    rw [same.2, here] at begun
    cases begun
    exact not_mem_nodeSigns_of_startsPlain starts
  exact (spelled.of_same same).emit plain

theorem IsSpelled.block (spelled : lexer.IsSpelled) (folded : Bool) :
    Spells (lexer.block folded) :=
  (spelled.allowing true).dropPlace.bind fun _ kept =>
    (yields_any _).bind fun _ _ => kept.emit trivial

theorem IsSpelled.quoted (spelled : lexer.IsSpelled) (double : Bool) :
    Spells (lexer.quoted double) :=
  spelled.keyable fun _ => Cursor.readsSpelled_map _ fun _ => trivial

theorem IsSpelled.readToken (spelled : lexer.IsSpelled) {c : CodePoint}
    (here : lexer.cursor.head? = some c) : Spells (lexer.readToken c) := by
  have named : ∀ (cursor : Cursor) (token : Text → Token), (∀ name, (token name).IsSpelled) →
      Cursor.ReadsSpelled (cursor.next.anchorName.map fun read => (token read.1, read.2)) :=
    fun _ _ other => Cursor.readsSpelled_map _ other
  unfold Lexer.readToken
  -- One case for each test, in the order of the tests.
  repeat' refine yields_ite (fun _ => ?_) ?_
  · exact spelled.directive
  · exact spelled.documentMarker trivial
  · exact spelled.documentMarker trivial
  · exact spelled.openBracket trivial
  · exact spelled.openBracket trivial
  · exact spelled.closeBracket trivial
  · exact spelled.closeBracket trivial
  · exact spelled.flowEntry
  · exact spelled.blockEntry
  · exact spelled.key
  · exact spelled.value
  · exact spelled.keyable fun cursor => named cursor .alias fun _ => trivial
  · exact spelled.keyable fun cursor => named cursor .anchor fun _ => trivial
  · exact spelled.keyable Cursor.readsSpelled_tag
  · exact spelled.block _
  · exact spelled.block _
  · exact spelled.quoted _
  · exact spelled.quoted _
  · next starts => exact spelled.plain here starts
  · trivial

theorem IsSpelled.step (spelled : lexer.IsSpelled) : Spells lexer.step := by
  have skipped : (skipToToken (lexer.cursor.rest.length + 1) lexer).IsSpelled := by
    unfold IsSpelled
    rwa [tokens_skipToToken]
  have fresh : Spells (skipToToken (lexer.cursor.rest.length + 1) lexer).dropStale := by
    unfold dropStale
    dsimp only
    split
    · trivial
    · exact skipped
  refine fresh.bind fun after kept => ?_
  have closed := kept.closeBlocks after.cursor.column
  dsimp only
  split
  · exact closed.streamEnd
  · next here => exact closed.readToken here

theorem isSpelled_of_mem_settled (spelled : lexer.IsSpelled) {token : Token}
    (mem : token ∈ lexer.settled) : token.IsSpelled :=
  spelled token (Array.mem_toList_iff.1 (List.mem_of_mem_take mem))

theorem isSpelled_of_mem_run {fuel : Nat} (spelled : lexer.IsSpelled) {token : Token}
    (mem : token ∈ (run fuel lexer).tokens) : token.IsSpelled := by
  induction fuel generalizing lexer with
  | zero => exact isSpelled_of_mem_settled spelled mem
  | succ fuel ih =>
    have next := spelled.step
    unfold run at mem
    split at mem
    · exact isSpelled_of_mem_settled spelled mem
    · next after stepped =>
      rw [stepped] at next
      split at mem
      · exact next token (Array.mem_toList_iff.1 mem)
      · exact ih next mem

end Lexer

/-- A plain scalar begins with no sign of a tag, an anchor or an alias, and ends with no line
break. -/
theorem TokenStream.isPlain_of_mem_ofText {t v : Text}
    (mem : .scalar true v ∈ (ofText t).tokens) : IsPlain v := by
  unfold ofText at mem
  split at mem
  · exact Lexer.isSpelled_of_mem_run (fun _ none => absurd none (Array.not_mem_empty _)) mem
  · cases mem

end PropertyToolkit.Yaml
