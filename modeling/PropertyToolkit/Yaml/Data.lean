import PropertyToolkit.Runtime
import PropertyToolkit.Yaml.Composition
import PropertyToolkit.Yaml.Depth
import PropertyToolkit.Yaml.Merge
import PropertyToolkit.Yaml.Typed

/-!
The data of a YAML document. All of its nodes are checked, those of the root first and then those
below, level by level; of a collection below the root only the kind is kept, and the items if it is
a set. A node that is reached twice is looked at once.
-/

set_option autoImplicit false

namespace PropertyToolkit.Yaml

/-- What a node is, seen from above. -/
inductive Shape (σ : Type) where
  | scalar (value : Value)
  | list
  | map
  /-- A set, with what is known of its items. -/
  | set (items : σ)

/-- The data of a document, with the shapes of what stands in a mapping. -/
inductive Data where
  | scalar (value : Value)
  /-- A collection that is no mapping. -/
  | collection
  | map (entries : List (Value × Shape (List Value)))

namespace Graph

/-- The text of a scalar. A mapping with an entry for the default value stands for that value;
`room` is how many texts may be looked for, one for the sake of the other. -/
def scalarText (graph : Graph) : (room : Nat) → NodeId → Except Fault Text
  | 0, _ => .error .tooDeep
  | room + 1, id =>
    match graph.contentOf id with
    | .scalar t => .ok t
    | .sequence _ => .error .malformed
    | .mapping entries =>
      match entries.find? fun entry => graph.tagOf entry.1 = .defaultValue with
      | none => .error .malformed
      | some (_, value) => graph.scalarText room value

/-- The text is that of the node itself. -/
def isScalar (graph : Graph) (id : NodeId) : Bool :=
  match graph.contentOf id with
  | .scalar _ => true
  | _ => false

end Graph

/-- The nodes that have a shape already, the items of the sets that have been read, and the
collections whose parts are still to be looked at, in the order in which they were met. -/
structure Reader where
  graph : Graph
  known : List (NodeId × Shape NodeId)
  items : List (NodeId × List Value)
  waiting : List NodeId

namespace Reader

/-- A reader at the start of a document. -/
def start (graph : Graph) : Reader := ⟨graph, [], [], []⟩

/-- Gives a node its shape. -/
def settle (reader : Reader) (id : NodeId) (shape : Shape NodeId) : Reader :=
  { reader with known := (id, shape) :: reader.known }

/-- The items of a set; it is empty until it is read. -/
def itemsOf (reader : Reader) (id : NodeId) : List Value :=
  ((reader.items.find? fun entry => entry.1 = id).map Prod.snd).getD []

variable (runtime : Runtime)

/-- The shape of a node. The parts of a collection are put off. -/
def shapeOf (reader : Reader) (id : NodeId) : Except Fault (Shape NodeId × Reader) :=
  match reader.known.find? fun entry => entry.1 = id with
  | some (_, shape) => .ok (shape, reader)
  | none =>
    let putOff (shape : Shape NodeId) : Shape NodeId × Reader :=
      (shape, { reader.settle id shape with waiting := reader.waiting ++ [id] })
    match reader.graph.tagOf id with
    | .seq | .omap | .pairs => .ok (putOff .list)
    | .map => .ok (putOff .map)
    | .set => .ok (putOff (.set id))
    | .merge | .defaultValue | .unknown => .error .malformed
    | tag => do
      let t ← reader.graph.scalarText (runtime.defaults + 1) id
      let value ← scalarValue tag (reader.graph.isScalar id) t
      return (.scalar value, reader.settle id (.scalar value))

/-- Looks at the items of a sequence in turn. -/
def readItems : List NodeId → Reader → Except Fault Reader
  | [], reader => .ok reader
  | id :: rest, reader => do
    let (_, reader) ← reader.shapeOf runtime id
    readItems rest reader

/-- Looks at the items of a sequence in turn, each of which is a mapping with one entry. -/
def readPairs : List NodeId → Reader → Except Fault Reader
  | [], reader => .ok reader
  | id :: rest, reader =>
    match reader.graph.contentOf id with
    | .mapping [(key, value)] => do
      let (_, reader) ← reader.shapeOf runtime key
      let (_, reader) ← reader.shapeOf runtime value
      readPairs rest reader
    | _ => .error .malformed

/-- Puts a shape in the place of an equal key, or at the end. -/
def putEntry {σ : Type} (key : Value) (shape : Shape σ) :
    List (Value × Shape σ) → List (Value × Shape σ)
  | [] => [(key, shape)]
  | entry :: rest =>
    if entry.1.same key then (entry.1, shape) :: rest else entry :: putEntry key shape rest

/-- Reads the entries of a mapping in turn. A collection cannot be a key. -/
def readEntries : Entries → List (Value × Shape NodeId) → Reader →
    Except Fault (List (Value × Shape NodeId) × Reader)
  | [], read, reader => .ok (read, reader)
  | (key, value) :: rest, read, reader => do
    let (keyShape, reader) ← reader.shapeOf runtime key
    match keyShape with
    | .scalar name => do
      let (shape, reader) ← reader.shapeOf runtime value
      readEntries rest (putEntry name shape read) reader
    | .list | .map | .set _ => .error .malformed

/-- Carries out the merges of a mapping and reads its entries. -/
def readMapping (id : NodeId) (reader : Reader) :
    Except Fault (List (Value × Shape NodeId) × Reader) := do
  let graph ← reader.graph.merge runtime.merging id
  readEntries runtime (graph.entriesOf id) [] { reader with graph }

/-- Reads the parts of a collection; a tag has to fit the node that it stands at. A set is written
as a mapping whose keys are its items. -/
def readParts (id : NodeId) (reader : Reader) :
    Except Fault (List (Value × Shape NodeId) × Reader) := do
  match reader.graph.tagOf id, reader.graph.contentOf id with
  | .seq, .sequence items => return ([], ← readItems runtime items reader)
  | .omap, .sequence items | .pairs, .sequence items =>
    return ([], ← readPairs runtime items reader)
  | .map, .mapping _ => readMapping runtime id reader
  | .set, .mapping _ => do
    let (entries, reader) ← readMapping runtime id reader
    return (entries, { reader with items := (id, entries.map Prod.fst) :: reader.items })
  | _, _ => throw .malformed

/-- Reads the parts of the collections that wait. Every node waits at most once, so the number of
nodes is fuel enough. -/
def readWaiting : (fuel : Nat) → Reader → Except Fault Reader
  | 0, reader => .ok reader
  | fuel + 1, reader =>
    match reader.waiting with
    | [] => .ok reader
    | id :: waiting =>
      match readParts runtime id { reader with waiting } with
      | .error fault => .error fault
      | .ok (_, reader) => readWaiting fuel reader

end Reader

/-- Puts in what is known of a set. -/
def Shape.fill {σ τ : Type} (f : σ → τ) : Shape σ → Shape τ
  | scalar value => scalar value
  | list => list
  | map => map
  | set items => set (f items)

/-- The data of a document; none if it has no root. The items of sets are put in last. -/
def Document.data? (runtime : Runtime) (document : Document) : Except Fault (Option Data) := do
  match document.root with
  | none => return none
  | some root => do
    let (shape, reader) ← (Reader.start document.graph).shapeOf runtime root
    match shape with
    | .scalar value => return some (.scalar value)
    | .list | .set _ => do
      let _ ← Reader.readWaiting runtime (document.graph.size + 1) reader
      return some .collection
    | .map => do
      let (entries, reader) ← Reader.readParts runtime root { reader with waiting := [] }
      let reader ← Reader.readWaiting runtime (document.graph.size + 1) reader
      return some (.map (entries.map fun entry => (entry.1, entry.2.fill reader.itemsOf)))

/-- The data of a YAML text. -/
def read (runtime : Runtime) (t : Text) : Except Fault (Option Data) := do
  let document ← Document.ofStream ((TokenStream.ofText t).within runtime.nesting)
  document.data? runtime

end PropertyToolkit.Yaml
