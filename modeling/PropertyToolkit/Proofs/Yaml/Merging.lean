import PropertyToolkit.Proofs.Yaml.Composition
import PropertyToolkit.Yaml.Merge

/-!
What merges make of a graph. They change it in three ways only: an entry that asks for a merge is
taken out of its mapping, entries are put before those that a mapping has, and a key that stands for
the default value becomes a text. Whatever relates each such change relates the graph before a merge
to the one after it. So scalars stay as they are, and a mapping keeps its own entries, after which
no others come. A merge waits for another one only where a key asks for it.
-/

set_option autoImplicit false

namespace PropertyToolkit.Yaml.Graph

def IsMapping (graph : Graph) (id : NodeId) : Prop :=
  ∃ entries, graph.contentOf id = .mapping entries

/-- A relation that the changes of a merge keep to, one after the other. -/
structure Steps (related : Graph → Graph → Prop) : Prop where
  refl : ∀ graph, related graph graph
  trans : ∀ {first second third}, related first second → related second third →
    related first third
  takeOut : ∀ {graph : Graph} {id : NodeId} {index : Nat} {key value : NodeId},
    (graph.entriesOf id)[index]? = some (key, value) → graph.tagOf key = .merge →
    related graph (graph.setEntries id ((graph.entriesOf id).eraseIdx index))
  putBefore : ∀ {graph : Graph} {id : NodeId} (entries : Entries), graph.IsMapping id →
    related graph (graph.setEntries id (entries ++ graph.entriesOf id))
  makeText : ∀ {graph : Graph} {key : NodeId}, graph.tagOf key = .defaultValue →
    related graph (graph.setText key)

/-! ## Nodes after a change -/

theorem tagOf_setEntries (graph : Graph) (id : NodeId) (entries : Entries) (other : NodeId) :
    (graph.setEntries id entries).tagOf other = graph.tagOf other := by
  unfold tagOf setEntries
  rw [Array.getElem?_modify]
  split
  · cases graph[other]? <;> rfl
  · rfl

theorem contentOf_setEntries (graph : Graph) (id : NodeId) (entries : Entries) (other : NodeId) :
    (graph.setEntries id entries).contentOf other =
      if id = other ∧ other < graph.size then .mapping entries else graph.contentOf other := by
  unfold contentOf setEntries
  rw [Array.getElem?_modify]
  by_cases here : id = other
  · by_cases inside : other < graph.size
    · simp [here, inside]
    · simp [here, inside]
  · simp [here]

theorem tagOf_setText (graph : Graph) (key other : NodeId) :
    (graph.setText key).tagOf other =
      if key = other ∧ other < graph.size then .str else graph.tagOf other := by
  unfold tagOf setText
  rw [Array.getElem?_modify]
  by_cases here : key = other
  · by_cases inside : other < graph.size
    · simp [here, inside]
    · simp [here, inside]
  · simp [here]

theorem contentOf_setText (graph : Graph) (key other : NodeId) :
    (graph.setText key).contentOf other = graph.contentOf other := by
  unfold contentOf setText
  rw [Array.getElem?_modify]
  split
  · cases graph[other]? <;> rfl
  · rfl

theorem IsMapping.lt_size {graph : Graph} {id : NodeId} (mapping : graph.IsMapping id) :
    id < graph.size := by
  obtain ⟨entries, content⟩ := mapping
  refine Nat.lt_of_not_le fun outside => ?_
  rw [contentOf, Array.getElem?_eq_none outside] at content
  cases content

/-- A node that has an entry is a mapping. -/
theorem isMapping_of_entry {graph : Graph} {id : NodeId} {index : Nat} {entry : NodeId × NodeId}
    (here : (graph.entriesOf id)[index]? = some entry) : graph.IsMapping id := by
  unfold entriesOf at here
  split at here
  · next entries content => exact ⟨entries, content⟩
  · cases here

theorem entriesOf_setEntries {graph : Graph} {id : NodeId} (mapping : graph.IsMapping id)
    (entries : Entries) (other : NodeId) :
    (graph.setEntries id entries).entriesOf other =
      if id = other then entries else graph.entriesOf other := by
  unfold entriesOf
  rw [contentOf_setEntries]
  by_cases here : id = other
  · rw [if_pos ⟨here, here ▸ mapping.lt_size⟩, if_pos here]
  · rw [if_neg fun both => here both.1, if_neg here]

/-! ## Merges in steps -/

theorem IsMapping.setEntries {graph : Graph} {other : NodeId} (mapping : graph.IsMapping other)
    (id : NodeId) (entries : Entries) : (graph.setEntries id entries).IsMapping other := by
  unfold IsMapping
  rw [contentOf_setEntries]
  split
  · exact ⟨entries, rfl⟩
  · exact mapping

variable {given : Tag → Prop}

theorem TagsIn.setEntries {graph : Graph} (tags : graph.TagsIn given) (id : NodeId)
    (entries : Entries) : (graph.setEntries id entries).TagsIn given :=
  tags.modify id _ fun _ same => same

/-- A node that is there has a tag of the kind. -/
theorem TagsIn.tagOf {graph : Graph} (tags : graph.TagsIn given) {id : NodeId}
    (known : graph.tagOf id ≠ .unknown) : given (graph.tagOf id) := by
  unfold Graph.tagOf at known ⊢
  cases found : graph[id]? with
  | none =>
    rw [found] at known
    exact absurd rfl known
  | some node => exact tags node (Array.mem_of_getElem? found)

/-- A mapping stays a mapping, and no tags of another kind come in. -/
structure Keeps (given : Tag → Prop) (before after : Graph) : Prop where
  mappings : ∀ id, before.IsMapping id → after.IsMapping id
  tags : before.TagsIn given → after.TagsIn given

theorem steps_keeps (text : given .str) : Steps (Keeps given) where
  refl _ := ⟨fun _ mapping => mapping, fun tags => tags⟩
  trans one two :=
    ⟨fun id mapping => two.mappings id (one.mappings id mapping),
      fun tags => two.tags (one.tags tags)⟩
  takeOut _ _ := ⟨fun _ mapping => mapping.setEntries _ _, fun tags => tags.setEntries _ _⟩
  putBefore _ _ := ⟨fun _ mapping => mapping.setEntries _ _, fun tags => tags.setEntries _ _⟩
  makeText _ := by
    refine ⟨fun id mapping => ?_, fun tags => tags.modify _ _ fun _ _ => text⟩
    unfold IsMapping
    rwa [contentOf_setText]

theorem Steps.and {first second : Graph → Graph → Prop} (steps : Steps first)
    (stepsToo : Steps second) :
    Steps fun before after => first before after ∧ second before after where
  refl graph := ⟨steps.refl graph, stepsToo.refl graph⟩
  trans one two := ⟨steps.trans one.1 two.1, stepsToo.trans one.2 two.2⟩
  takeOut here merge := ⟨steps.takeOut here merge, stepsToo.takeOut here merge⟩
  putBefore entries mapping := ⟨steps.putBefore entries mapping, stepsToo.putBefore entries mapping⟩
  makeText tagged := ⟨steps.makeText tagged, stepsToo.makeText tagged⟩

/-- A merge that is too deep waits for others, which some key has asked for. -/
def MergeFault (given : Tag → Prop) (fault : Fault) : Prop :=
  fault = .malformed ∨ given .merge ∧ fault = .tooDeep

variable {related : Graph → Graph → Prop}

/-- All merges with some fuel relate the graph that they start from to the one they end with. -/
structure MergesAt (given : Tag → Prop) (related : Graph → Graph → Prop) (fuel : Nat) : Prop where
  mergeFrom : ∀ id room index merged graph, IsMapping graph id → graph.TagsIn given →
    Meets (MergeFault given) (fun result => related graph result.2)
      (Graph.mergeFrom id room fuel index merged graph)
  mergeInto : ∀ room id graph, IsMapping graph id → graph.TagsIn given →
    (room = 0 → given .merge) →
    Meets (MergeFault given) (related graph) (Graph.mergeInto room fuel id graph)
  mergeEach : ∀ room ids graph, graph.TagsIn given → given .merge →
    Meets (MergeFault given) (fun result => related graph result.2)
      (Graph.mergeEach room fuel ids graph)

section

variable (steps : Steps related)
  (keeps : ∀ {before after}, related before after → Keeps given before after)
  {fuel : Nat} (below : MergesAt given related fuel)
include steps keeps below

theorem mergeFrom_steps (id : NodeId) (room index : Nat) (merged : Entries) (graph : Graph)
    (mapping : graph.IsMapping id) (tags : graph.TagsIn given) :
    Meets (MergeFault given) (fun result => related graph result.2)
      (Graph.mergeFrom id room (fuel + 1) index merged graph) := by
  -- What a merge reaches from here it goes on from.
  have onward : ∀ {after : Graph} (next : Nat) (entries : Entries), related graph after →
      Meets (MergeFault given) (fun result => related graph result.2)
        (Graph.mergeFrom id room fuel next entries after) := by
    intro after next entries reached
    have kept := keeps reached
    refine (below.mergeFrom id room next entries after (kept.mappings id mapping)
      (kept.tags tags)).imp fun _ last => ?_
    exact steps.trans reached last
  unfold Graph.mergeFrom
  split
  · exact steps.refl graph
  · next key value here =>
    split
    · next merge =>
      have taken := steps.takeOut here merge
      have left := (keeps taken).tags tags
      have asked : given .merge := merge ▸ tags.tagOf (by rw [merge]; exact nofun)
      dsimp only
      split
      · next entries content =>
        refine (below.mergeInto room value _ ⟨entries, content⟩ left fun _ => asked).bind
          fun after further => ?_
        exact onward index _ (steps.trans taken further)
      · next items _ =>
        refine (below.mergeEach room items _ left asked).bind fun after further => ?_
        exact onward index _ (steps.trans taken further)
      · exact .inl rfl
    · next tagged => exact onward (index + 1) merged (steps.makeText tagged)
    · exact onward (index + 1) merged (steps.refl graph)

theorem mergeInto_steps (room : Nat) (id : NodeId) (graph : Graph) (mapping : graph.IsMapping id)
    (tags : graph.TagsIn given) (asked : room = 0 → given .merge) :
    Meets (MergeFault given) (related graph) (Graph.mergeInto room (fuel + 1) id graph) := by
  cases room with
  | zero =>
    have deep : MergeFault given .tooDeep := .inr ⟨asked rfl, rfl⟩
    exact deep
  | succ room =>
    unfold Graph.mergeInto
    refine (below.mergeFrom id room 0 [] graph mapping tags).bind fun result reached => ?_
    dsimp only
    split
    · exact reached
    · exact steps.trans reached (steps.putBefore _ ((keeps reached).mappings id mapping))

theorem mergeEach_steps (room : Nat) (ids : List NodeId) (graph : Graph)
    (tags : graph.TagsIn given) (asked : given .merge) :
    Meets (MergeFault given) (fun result => related graph result.2)
      (Graph.mergeEach room (fuel + 1) ids graph) := by
  cases ids with
  | nil =>
    unfold Graph.mergeEach
    exact steps.refl graph
  | cons id rest =>
    unfold Graph.mergeEach
    dsimp only
    split
    · next entries content =>
      refine (below.mergeInto room id graph ⟨entries, content⟩ tags fun _ => asked).bind
        fun after reached => ?_
      refine (below.mergeEach room rest after ((keeps reached).tags tags) asked).bind
        fun result last => ?_
      exact steps.trans reached last
    · exact .inl rfl

end

theorem mergesAt (steps : Steps related)
    (keeps : ∀ {before after}, related before after → Keeps given before after) (fuel : Nat) :
    MergesAt given related fuel := by
  induction fuel with
  | zero =>
    have ended : MergeFault given .malformed := .inl rfl
    exact ⟨fun _ _ _ _ _ _ _ => ended, fun _ _ _ _ _ _ => ended, fun _ _ _ _ _ => ended⟩
  | succ fuel below =>
    exact ⟨mergeFrom_steps steps keeps below, mergeInto_steps steps keeps below,
      mergeEach_steps steps keeps below⟩

/-- A merge goes in steps. -/
theorem merge_steps (steps : Steps related) (text : given .str) {graph : Graph} {id : NodeId}
    (mapping : graph.IsMapping id) (tags : graph.TagsIn given) (most : Nat) :
    Meets (MergeFault given) (fun after => related graph after ∧ after.TagsIn given)
      (graph.merge most id) := by
  have both := mergesAt (steps.and (steps_keeps text)) (fun both => both.2)
    ((graph.width + 2).pow (graph.mergeCount + 2))
  refine (both.mergeInto (most + 1) id graph mapping tags nofun).imp fun _ reached => ?_
  exact ⟨reached.1, reached.2.tags tags⟩

/-! ## What merges leave -/

/-- The entries of a mapping that ask for no merge. -/
def own (graph : Graph) (id : NodeId) : Entries :=
  (graph.entriesOf id).filter fun entry => graph.tagOf entry.1 ≠ .merge

/-- What a merge leaves as it is: scalars, and the entries that a mapping has of its own, after
which no others come. -/
structure Grows (before after : Graph) : Prop where
  tags : ∀ id, after.tagOf id = before.tagOf id ∨
    before.tagOf id = .defaultValue ∧ after.tagOf id = .str
  texts : ∀ id t, before.contentOf id = .scalar t → after.contentOf id = .scalar t
  own : ∀ id, before.own id <:+ after.own id

theorem Grows.refl (graph : Graph) : Grows graph graph :=
  ⟨fun _ => .inl rfl, fun _ _ same => same, fun _ => List.suffix_rfl⟩

theorem Grows.trans {first second third : Graph} (one : Grows first second)
    (two : Grows second third) : Grows first third where
  tags id := by
    rcases two.tags id with same | ⟨was, is⟩
    · rw [same]
      exact one.tags id
    · rcases one.tags id with before | ⟨_, text⟩
      · exact .inr ⟨before ▸ was, is⟩
      · rw [was] at text
        cases text
  texts id t content := two.texts id t (one.texts id t content)
  own id := (one.own id).trans (two.own id)

theorem Grows.tagOf_eq {before after : Graph} (grows : Grows before after) {id : NodeId}
    (other : before.tagOf id ≠ .defaultValue) : after.tagOf id = before.tagOf id :=
  (grows.tags id).resolve_right fun both => other both.1

theorem not_isMapping_of_scalar {graph : Graph} {id : NodeId} {t : Text}
    (content : graph.contentOf id = .scalar t) : ¬graph.IsMapping id := by
  rintro ⟨entries, same⟩
  rw [content] at same
  cases same

/-- Entries of one mapping are replaced, and its own ones still come last. -/
theorem grows_setEntries {graph : Graph} {id : NodeId} (mapping : graph.IsMapping id)
    {entries : Entries}
    (last : graph.own id <:+ entries.filter fun entry => graph.tagOf entry.1 ≠ .merge) :
    Grows graph (graph.setEntries id entries) where
  tags other := .inl (graph.tagOf_setEntries id entries other)
  texts other t content := by
    rw [contentOf_setEntries, if_neg]
    · exact content
    · rintro ⟨rfl, -⟩
      exact not_isMapping_of_scalar content mapping
  own other := by
    unfold own
    simp only [tagOf_setEntries, entriesOf_setEntries mapping]
    split
    · next same =>
      subst same
      exact last
    · exact List.suffix_rfl

theorem filter_eraseIdx {α : Type} {p : α → Bool} {l : List α} {index : Nat} {x : α}
    (here : l[index]? = some x) (out : p x = false) :
    (l.eraseIdx index).filter p = l.filter p := by
  induction l generalizing index with
  | nil => cases here
  | cons first rest ih =>
    cases index with
    | zero =>
      cases here
      rw [List.eraseIdx_cons_zero, List.filter_cons_of_neg (by rw [out]; exact nofun)]
    | succ index =>
      rw [List.eraseIdx_cons_succ, List.filter_cons, List.filter_cons, ih here]

theorem steps_grows : Steps Grows where
  refl := Grows.refl
  trans := Grows.trans
  takeOut {graph id index key value} here merge := by
    refine grows_setEntries (isMapping_of_entry here) ?_
    rw [filter_eraseIdx here (by simp [merge])]
    exact List.suffix_rfl
  putBefore {graph id} entries mapping := by
    refine grows_setEntries mapping ?_
    rw [List.filter_append]
    exact List.suffix_append _ _
  makeText {graph key} tagged := by
    have tags : ∀ id, (graph.setText key).tagOf id = graph.tagOf id ∨
        graph.tagOf id = .defaultValue ∧ (graph.setText key).tagOf id = .str := by
      intro id
      rw [tagOf_setText]
      split
      · next here => exact .inr ⟨here.1 ▸ tagged, rfl⟩
      · exact .inl rfl
    have merges : ∀ id, (graph.setText key).tagOf id ≠ .merge ↔ graph.tagOf id ≠ .merge := by
      intro id
      rcases tags id with same | ⟨was, is⟩
      · rw [same]
      · rw [was, is]
        exact ⟨nofun, nofun⟩
    refine ⟨tags, fun id t content => ?_, fun id => ?_⟩
    · rwa [contentOf_setText]
    · unfold own entriesOf
      simp only [merges, contentOf_setText]
      exact List.suffix_rfl

/-! ## Mappings without merges -/

/-- A count that never falls comes to at least what any one of the nodes adds. -/
theorem le_foldl_of_mem {add : Nat → Node → Nat} (grows : ∀ count node, count ≤ add count node)
    {nodes : List Node} {node : Node} (mem : node ∈ nodes) {n : Nat}
    (own : ∀ count, n ≤ add count node) (start : Nat) : n ≤ nodes.foldl add start := by
  have kept : ∀ (rest : List Node) (count : Nat), count ≤ rest.foldl add count := by
    intro rest
    induction rest with
    | nil => exact Nat.le_refl
    | cons first rest ih =>
      intro count
      exact Nat.le_trans (grows count first) (ih (add count first))
  induction nodes generalizing start with
  | nil => cases mem
  | cons first rest ih =>
    rcases List.mem_cons.1 mem with rfl | later
    · exact Nat.le_trans (own start) (kept rest _)
    · exact ih later (add start first)

theorem length_entriesOf_le_width (graph : Graph) (id : NodeId) :
    (graph.entriesOf id).length ≤ graph.width := by
  unfold entriesOf
  split
  · next entries content =>
    unfold contentOf at content
    cases found : graph[id]? with
    | none =>
      rw [found] at content
      cases content
    | some node =>
      rw [found] at content
      change node.content = .mapping entries at content
      have mem := Array.mem_toList_iff.2 (Array.mem_of_getElem? found)
      unfold width
      rw [← Array.foldl_toList]
      refine le_foldl_of_mem (fun count other => ?_) mem (fun count => ?_) 0
      · split <;> omega
      · rw [content]
        exact Nat.le_add_left _ _
  · exact Nat.zero_le _

theorem mergeFrom_of_texts {graph : Graph} {id : NodeId}
    (texts : ∀ entry ∈ graph.entriesOf id, graph.tagOf entry.1 = .str) (room fuel index : Nat)
    (enough : (graph.entriesOf id).length < fuel + index) (merged : Entries) :
    Graph.mergeFrom id room (fuel + 1) index merged graph = .ok (merged, graph) := by
  induction fuel generalizing index with
  | zero =>
    have ended : (graph.entriesOf id)[index]? = none := List.getElem?_eq_none (by omega)
    rw [Graph.mergeFrom, ended]
  | succ fuel ih =>
    unfold Graph.mergeFrom
    split
    · rfl
    · next key value here =>
      have text : graph.tagOf key = .str := texts (key, value) (List.mem_of_getElem? here)
      rw [text]
      exact ih (index + 1) (by omega)

theorem merge_of_texts {graph : Graph} {id : NodeId}
    (texts : ∀ entry ∈ graph.entriesOf id, graph.tagOf entry.1 = .str) (most : Nat) :
    graph.merge most id = .ok graph := by
  have wide := graph.length_entriesOf_le_width id
  have square : (graph.width + 2) ^ 2 ≤ (graph.width + 2).pow (graph.mergeCount + 2) :=
    Nat.pow_le_pow_right (by omega) (by omega)
  have room : graph.width + 3 ≤ (graph.width + 2) ^ 2 := by
    rw [Nat.pow_two, Nat.add_mul, Nat.mul_add]
    omega
  obtain ⟨fuel, same⟩ := Nat.exists_eq_add_of_le (Nat.le_trans room square)
  have fueled : (graph.width + 2).pow (graph.mergeCount + 2) = graph.width + 1 + fuel + 1 + 1 := by
    omega
  rw [merge, fueled, mergeInto, mergeFrom_of_texts texts _ _ _ (by omega)]
  rfl

end PropertyToolkit.Yaml.Graph
