import PropertyToolkit.Proofs.Yaml.Depth
import PropertyToolkit.Proofs.Yaml.Merging
import PropertyToolkit.Proofs.Yaml.Typed
import PropertyToolkit.Yaml.Data

/-!
What the values of a document take from its nodes. A fault of a value is that of a text that does
not fit the tag of its node, an integer stands only where its tag does, and looking for a value goes
too deep only where some node has the tag of a merge key or of a default value.
-/

set_option autoImplicit false

namespace PropertyToolkit.Yaml

variable {given : Tag → Prop}

/-! ## Values -/

/-- A value that is an integer has the tag of one. Integers are the only values that can be too long
to be written. -/
def Tagged (given : Tag → Prop) (value : Value) : Prop := ∀ n, value = .int n → given .int

/-- A shape whose value is tagged, or a set of whose items something is known. -/
def Shape.Tagged {σ : Type} (given : Tag → Prop) (items : σ → Prop) : Shape σ → Prop
  | scalar value => Yaml.Tagged given value
  | set known => items known
  | list | map => True

namespace Reader

/-- On its way through a graph whose nodes have tags of some kind. -/
structure Of (given : Tag → Prop) (reader : Reader) : Prop where
  tags : reader.graph.TagsIn given
  known : ∀ entry ∈ reader.known, entry.2.Tagged given fun _ => True
  items : ∀ entry ∈ reader.items, ∀ item ∈ entry.2, Tagged given item

variable {reader : Reader}

theorem Of.settle (kept : reader.Of given) (id : NodeId) {shape : Shape NodeId}
    (tagged : shape.Tagged given fun _ => True) : (reader.settle id shape).Of given :=
  ⟨kept.tags, List.forall_mem_cons.2 ⟨tagged, kept.known⟩, kept.items⟩

theorem Of.putOff (kept : reader.Of given) (waiting : List NodeId) :
    Of given { reader with waiting } := ⟨kept.tags, kept.known, kept.items⟩

theorem Of.itemsOf (kept : reader.Of given) (id : NodeId) :
    ∀ item ∈ reader.itemsOf id, Tagged given item := by
  unfold Reader.itemsOf
  cases found : reader.items.find? fun entry => entry.1 = id with
  | none => exact nofun
  | some entry => exact kept.items entry (List.mem_of_find?_eq_some found)

variable (runtime : Runtime)

/-- Both the name and the value of an entry are tagged. -/
def EntryTagged {σ : Type} (given : Tag → Prop) (items : σ → Prop) (entry : Value × Shape σ) :
    Prop := Tagged given entry.1 ∧ entry.2.Tagged given items

variable (text : given .str)
include text

end Reader

/-- The items of a set are tagged. -/
abbrev ItemsTagged (given : Tag → Prop) (items : List Value) : Prop :=
  ∀ item ∈ items, Tagged given item

/-- All names and values of a mapping are tagged, and so are the items of the sets. -/
def Data.Tagged (given : Tag → Prop) : Data → Prop
  | .map entries => ∀ entry ∈ entries, Reader.EntryTagged given (ItemsTagged given) entry
  | .scalar _ | .collection => True

theorem Shape.Tagged.fill {σ τ : Type} {shape : Shape σ} {items : τ → Prop}
    (tagged : shape.Tagged given fun _ => True) {f : σ → τ} (filled : ∀ known, items (f known)) :
    (shape.fill f).Tagged given items := by
  cases shape with
  | scalar value => exact tagged
  | set known => exact filled known
  | list | map => trivial

end PropertyToolkit.Yaml
