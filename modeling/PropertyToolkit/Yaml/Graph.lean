import PropertyToolkit.Yaml.Tag

/-!
The graph of a YAML document. Its nodes are scalars, sequences and mappings, each with a tag; they
refer to each other by position, because aliases share them and may even close a circle.
-/

set_option autoImplicit false

namespace PropertyToolkit.Yaml

/-- A position among the nodes of a graph. -/
abbrev NodeId := Nat

abbrev Entries := List (NodeId × NodeId)

inductive Content where
  | scalar (t : Text)
  | sequence (items : List NodeId)
  | mapping (entries : Entries)
deriving DecidableEq

structure Node where
  tag : Tag
  content : Content
deriving DecidableEq

/-- The nodes of a document. -/
abbrev Graph := Array Node

namespace Graph

def tagOf (graph : Graph) (id : NodeId) : Tag := (graph[id]?.map Node.tag).getD .unknown

def contentOf (graph : Graph) (id : NodeId) : Content :=
  (graph[id]?.map Node.content).getD (.scalar [])

/-- The entries of a mapping; other nodes have none. -/
def entriesOf (graph : Graph) (id : NodeId) : Entries :=
  match graph.contentOf id with
  | .mapping entries => entries
  | _ => []

def setEntries (graph : Graph) (id : NodeId) (entries : Entries) : Graph :=
  graph.modify id fun node => { node with content := .mapping entries }

/-- Makes a text of a key that is tagged as the default value. -/
def setText (graph : Graph) (id : NodeId) : Graph :=
  graph.modify id fun node => { node with tag := .str }

end Graph

end PropertyToolkit.Yaml
