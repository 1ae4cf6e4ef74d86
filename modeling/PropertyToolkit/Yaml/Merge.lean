import PropertyToolkit.Yaml.Fault
import PropertyToolkit.Yaml.Graph

/-!
Merge keys. An entry whose key is tagged so gives its mapping the entries of another mapping, or of
several; they come first, and of several mappings the last one comes first of all. Merging changes
the nodes of the graph. Every merge takes a merge entry away before it looks at another node, so
their number bounds how often one merge waits for another, and the fuel covers the entries that each
of them can come to.
-/

set_option autoImplicit false

namespace PropertyToolkit.Yaml

namespace Graph

/-- How many entries of the graph are merges. -/
def mergeCount (graph : Graph) : Nat :=
  graph.foldl (fun count node =>
    match node.content with
    | .mapping entries => count + entries.countP fun entry => graph.tagOf entry.1 = .merge
    | _ => count) 0

/-- How many entries and items the nodes of the graph have. -/
def width (graph : Graph) : Nat :=
  graph.foldl (fun count node =>
    match node.content with
    | .mapping entries => count + entries.length
    | .sequence items => count + items.length
    | .scalar _ => count) 0

mutual

/-- Merges into a mapping from position `index` on, where `merged` are the entries found so far.
Below it there is room for `room` merges that wait for each other. -/
def mergeFrom (id : NodeId) (room : Nat) :
    (fuel index : Nat) → Entries → Graph → Except Fault (Entries × Graph)
  | 0, _, _, _ => .error .malformed
  | fuel + 1, index, merged, graph =>
    match (graph.entriesOf id)[index]? with
    | none => .ok (merged, graph)
    | some (key, value) =>
      match graph.tagOf key with
      | .merge => do
        let graph := graph.setEntries id ((graph.entriesOf id).eraseIdx index)
        match graph.contentOf value with
        | .mapping _ => do
          let graph ← mergeInto room fuel value graph
          mergeFrom id room fuel index (merged ++ graph.entriesOf value) graph
        | .sequence items => do
          let (several, graph) ← mergeEach room fuel items graph
          mergeFrom id room fuel index (merged ++ several) graph
        | .scalar _ => .error .malformed
      | .defaultValue => mergeFrom id room fuel (index + 1) merged (graph.setText key)
      | _ => mergeFrom id room fuel (index + 1) merged graph
termination_by structural fuel => fuel

/-- Carries out the merges of a mapping. -/
def mergeInto (room fuel : Nat) (id : NodeId) (graph : Graph) : Except Fault Graph :=
  match fuel, room with
  | 0, _ => .error .malformed
  | _ + 1, 0 => .error .tooDeep
  | fuel + 1, room + 1 => do
    let (merged, graph) ← mergeFrom id room fuel 0 [] graph
    return if merged = [] then graph else graph.setEntries id (merged ++ graph.entriesOf id)
termination_by structural fuel

/-- The entries of several mappings, those of the last one first. -/
def mergeEach (room : Nat) : (fuel : Nat) → List NodeId → Graph → Except Fault (Entries × Graph)
  | 0, _, _ => .error .malformed
  | _ + 1, [], graph => .ok ([], graph)
  | fuel + 1, id :: rest, graph =>
    match graph.contentOf id with
    | .mapping _ => do
      let graph ← mergeInto room fuel id graph
      let entries := graph.entriesOf id
      let (others, graph) ← mergeEach room fuel rest graph
      return (others ++ entries, graph)
    | _ => .error .malformed
termination_by structural fuel => fuel

end

/-- Carries out the merges of a mapping, and of the mappings that it takes entries from. No more
than `most` merges may wait for each other. -/
def merge (most : Nat) (id : NodeId) (graph : Graph) : Except Fault Graph :=
  mergeInto (most + 1) ((graph.width + 2).pow (graph.mergeCount + 2)) id graph

end Graph

end PropertyToolkit.Yaml
