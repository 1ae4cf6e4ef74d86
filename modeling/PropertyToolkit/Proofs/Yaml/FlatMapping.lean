import PropertyToolkit.Proofs.Yaml.Depth
import PropertyToolkit.Proofs.Yaml.Entries
import PropertyToolkit.Proofs.Yaml.Quoting

/-!
A document that is one mapping of scalars without tags, as a block or in brackets. Its tokens are
composed to the mapping of its entries, in their order.
-/

set_option autoImplicit false

namespace PropertyToolkit.Yaml

/-! ## The tokens of a mapping -/

namespace Scalar

def token (scalar : Scalar) : Token := .scalar scalar.plain scalar.text

/-- The scalar that stands where nothing is written. -/
def unwritten : Scalar := ⟨true, []⟩

/-- The tokens of a scalar as a value. -/
def valueTokens (scalar : Scalar) : List Token := if scalar = unwritten then [] else [scalar.token]

def node (scalar : Scalar) : Node := ⟨scalar.tag, .scalar scalar.text⟩

end Scalar

/-- An entry of a mapping with its key marked. -/
def entryTokens (entry : Scalar × Scalar) : List Token :=
  .key :: entry.1.token :: .value :: entry.2.valueTokens

/-- The tokens of a block mapping after its start. -/
def blockTokens : List (Scalar × Scalar) → List Token
  | [] => [.blockEnd]
  | entry :: rest => entryTokens entry ++ blockTokens rest

/-- What separates an entry from the one before it. -/
def separator (first : Bool) : List Token := if first then [] else [.flowEntry]

/-- The tokens of a mapping in brackets after the opening one, or after an entry. -/
def flowTokens : (first : Bool) → List (Scalar × Scalar) → List Token
  | _, [] => [.flowMappingEnd]
  | first, entry :: rest => separator first ++ (entryTokens entry ++ flowTokens false rest)

/-- A value that is not written ends at one of these tokens. -/
theorem exists_blockTokens (entries : List (Scalar × Scalar)) (rest : List Token) :
    ∃ next others, blockTokens entries ++ rest = next :: others ∧
      next ∈ [Token.key, .value, .blockEnd] := by
  cases entries with
  | nil => exact ⟨_, _, rfl, by decide⟩
  | cons entry entries => exact ⟨_, _, rfl, by decide⟩

theorem exists_flowTokens (entries : List (Scalar × Scalar)) (rest : List Token) :
    ∃ next others, flowTokens false entries ++ rest = next :: others ∧
      next ∈ [Token.flowEntry, .flowMappingEnd] := by
  cases entries with
  | nil => exact ⟨_, _, rfl, by decide⟩
  | cons entry entries => exact ⟨_, _, rfl, by decide⟩

/-- The nodes of entries, two for each, from a position on. -/
def pairIds : (first : Nat) → List (Scalar × Scalar) → Entries
  | _, [] => []
  | first, _ :: rest => (first, first + 1) :: pairIds (first + 2) rest

def Graph.withEntries (graph : Graph) (entries : List (Scalar × Scalar)) : Graph :=
  entries.foldl (fun graph entry => (graph.push entry.1.node).push entry.2.node) graph

/-- The tokens of a mapping, as a block or in brackets. -/
def mappingTokens (flow : Bool) (entries : List (Scalar × Scalar)) : List Token :=
  if flow then .flowMappingStart :: flowTokens true entries
  else .blockMappingStart :: blockTokens entries

/-- The tokens of a document that is a mapping. Its start may be marked, and its end any number of
times. -/
def documentTokens (flow marked : Bool) (entries : List (Scalar × Scalar)) (ends : Nat) :
    List Token :=
  (if marked then [.documentStart] else []) ++
    (mappingTokens flow entries ++ (List.replicate ends .documentEnd ++ [.streamEnd]))

/-- The graph of a mapping: its node, and then those of its entries. -/
def mappingGraph (entries : List (Scalar × Scalar)) : Graph :=
  (Graph.withEntries #[⟨.map, .mapping []⟩] entries).modify 0 fun node =>
    { node with content := .mapping (pairIds 1 entries) }

theorem TokenStream.eq_of_parts {stream : TokenStream} {tokens : List Token} {fault : Option Fault}
    (first : stream.tokens = tokens) (second : stream.fault = fault) :
    stream = ⟨tokens, fault⟩ := by
  cases first
  cases second
  rfl

/-- A scalar is delivered as a token, unless it is not written at all. -/
def TokenStream.Delivers (stream : TokenStream) (scalar : Scalar) : Prop :=
  scalar = .unwritten ∨ scalar.token ∈ stream.tokens

theorem TokenStream.Delivers.isSpelled {t : Text} {scalar : Scalar}
    (delivered : (ofText t).Delivers scalar) : scalar.IsSpelled := by
  obtain ⟨plain, text⟩ := scalar
  rintro rfl
  rcases delivered with unwritten | written
  · cases unwritten
    exact ⟨nofun, nofun⟩
  · exact isPlain_of_mem_ofText written

theorem entryTokens_subset {entries : List (Scalar × Scalar)} {entry : Scalar × Scalar}
    (mem : entry ∈ entries) :
    entryTokens entry ⊆ blockTokens entries ∧
      ∀ first, entryTokens entry ⊆ flowTokens first entries := by
  induction entries with
  | nil => cases mem
  | cons head rest ih =>
    rcases List.mem_cons.1 mem with rfl | later
    · exact ⟨List.subset_append_left _ _, fun first =>
        List.subset_append_of_subset_right _ (List.subset_append_left _ _)⟩
    · exact ⟨List.subset_append_of_subset_right _ (ih later).1, fun first =>
        List.subset_append_of_subset_right _
          (List.subset_append_of_subset_right _ ((ih later).2 false))⟩

/-- The keys and values of a mapping are delivered by its tokens. -/
theorem delivers_documentTokens (flow marked : Bool) {entries : List (Scalar × Scalar)} (n : Nat)
    (fault : Option Fault) {entry : Scalar × Scalar} (mem : entry ∈ entries) :
    TokenStream.Delivers ⟨documentTokens flow marked entries n, fault⟩ entry.1 ∧
      TokenStream.Delivers ⟨documentTokens flow marked entries n, fault⟩ entry.2 := by
  have inside : entryTokens entry ⊆ documentTokens flow marked entries n := by
    refine List.subset_append_of_subset_right _ (List.subset_append_of_subset_left _ ?_)
    cases flow with
    | true => exact List.subset_cons_of_subset _ ((entryTokens_subset mem).2 true)
    | false => exact List.subset_cons_of_subset _ (entryTokens_subset mem).1
  have key : entry.1.token ∈ entryTokens entry := List.mem_cons_of_mem _ (List.mem_cons_self ..)
  refine ⟨.inr (inside key), ?_⟩
  by_cases unwritten : entry.2 = .unwritten
  · exact .inl unwritten
  · have value : entry.2.token ∈ entry.2.valueTokens := by
      rw [Scalar.valueTokens, if_neg unwritten]
      exact List.mem_singleton_self _
    exact .inr (inside (List.mem_cons_of_mem _ (List.mem_cons_of_mem _
      (List.mem_cons_of_mem _ value))))

/-! ## Depth -/

/-- The tokens of an entry neither open nor close a collection. -/
theorem past_of_mem_entryTokens {entry : Scalar × Scalar} {kind : Enclosure}
    (mapping : kind = .blockMapping ∨ kind = .flowMapping) :
    ∀ token ∈ entryTokens entry, Enclosure.past token [kind] = [kind] := by
  have value : ∀ token ∈ entry.2.valueTokens, Enclosure.past token [kind] = [kind] := by
    intro token mem
    unfold Scalar.valueTokens at mem
    split at mem
    · cases mem
    · cases List.mem_singleton.1 mem
      rfl
  rcases mapping with rfl | rfl
  · exact List.forall_mem_cons.2 ⟨rfl, List.forall_mem_cons.2 ⟨rfl,
      List.forall_mem_cons.2 ⟨rfl, value⟩⟩⟩
  · exact List.forall_mem_cons.2 ⟨rfl, List.forall_mem_cons.2 ⟨rfl,
      List.forall_mem_cons.2 ⟨rfl, value⟩⟩⟩

theorem depthFrom_blockTokens_le (entries : List (Scalar × Scalar)) {rest : List Token}
    (flat : depthFrom [] rest ≤ 1) :
    depthFrom [.blockMapping] (blockTokens entries ++ rest) ≤ 1 := by
  induction entries with
  | nil => exact Nat.max_le_of_le_of_le (Nat.zero_le 1) flat
  | cons entry entries ih =>
    rw [blockTokens, List.append_assoc]
    exact depthFrom_append_le (past_of_mem_entryTokens (.inl rfl)) (Nat.le_refl 1) ih

theorem depthFrom_flowTokens_le (first : Bool) (entries : List (Scalar × Scalar))
    {rest : List Token} (flat : depthFrom [] rest ≤ 1) :
    depthFrom [.flowMapping] (flowTokens first entries ++ rest) ≤ 1 := by
  induction entries generalizing first with
  | nil => exact Nat.max_le_of_le_of_le (Nat.zero_le 1) flat
  | cons entry entries ih =>
    rw [flowTokens, List.append_assoc, List.append_assoc]
    have comma : ∀ token ∈ separator first,
        Enclosure.past token [.flowMapping] = [.flowMapping] := by
      cases first <;> decide
    exact depthFrom_append_le comma (Nat.le_refl 1)
      (depthFrom_append_le (past_of_mem_entryTokens (.inr rfl)) (Nat.le_refl 1) (ih false))

/-- The mapping is the only collection of its document. -/
theorem depth_documentTokens_le (flow marked : Bool) (entries : List (Scalar × Scalar)) (n : Nat)
    (fault : Option Fault) :
    TokenStream.depth ⟨documentTokens flow marked entries n, fault⟩ ≤ 1 := by
  have flat : depthFrom [] (List.replicate n Token.documentEnd ++ [.streamEnd]) ≤ 1 := by
    refine depthFrom_append_le (fun token mem => ?_) (Nat.zero_le 1) (Nat.zero_le 1)
    rw [List.eq_of_mem_replicate mem]
    rfl
  have start : ∀ token ∈ if marked then [Token.documentStart] else [],
      Enclosure.past token [] = [] := by
    cases marked <;> decide
  refine depthFrom_append_le start (Nat.zero_le 1) ?_
  unfold mappingTokens
  cases flow with
  | true => exact Nat.max_le_of_le_of_le (Nat.le_refl 1) (depthFrom_flowTokens_le true entries flat)
  | false => exact Nat.max_le_of_le_of_le (Nat.le_refl 1) (depthFrom_blockTokens_le entries flat)

namespace Compose

variable (fault : Option Fault) (anchors : Table Text NodeId) (handles : Table Text Text)

theorem run_bind_of_ok {α β : Type} {x : Compose α} {f : α → Compose β} {s after : Composer} {a : α}
    (ran : x.run s = .ok (a, after)) : (x >>= f).run s = (f a).run after := by
  rw [StateT.run_bind, ran]
  rfl

theorem run_map_of_ok {α β : Type} {x : Compose α} (f : α → β) {s after : Composer} {a : α}
    (ran : x.run s = .ok (a, after)) : (f <$> x).run s = .ok (f a, after) := by
  rw [map_eq_pure_bind]
  exact run_bind_of_ok ran

/-- A scalar is one node, whatever its spelling. -/
theorem run_node_scalar (fuel : Nat) (place : Place) (scalar : Scalar) (rest : List Token)
    (graph : Graph) :
    (node (fuel + 1) place).run ⟨⟨scalar.token :: rest, fault⟩, graph, anchors, handles⟩ =
      .ok (graph.size, ⟨⟨rest, fault⟩, graph.push scalar.node, anchors, handles⟩) := by
  unfold node
  rfl

theorem run_nodeUnless_scalar (fuel : Nat) {ends : List Token}
    (other : ∀ token ∈ ends, token.isScalar = false) (place : Place) (scalar : Scalar)
    (rest : List Token) (graph : Graph) :
    (nodeUnless (fuel + 2) ends place).run
        ⟨⟨scalar.token :: rest, fault⟩, graph, anchors, handles⟩ =
      .ok (graph.size, ⟨⟨rest, fault⟩, graph.push scalar.node, anchors, handles⟩) := by
  have absent : ends.contains scalar.token = false := by
    rw [← Bool.not_eq_true, List.contains_iff_mem]
    intro mem
    cases other _ mem
  have seen : (looksAt ends).run ⟨⟨scalar.token :: rest, fault⟩, graph, anchors, handles⟩ =
      .ok (false, ⟨⟨scalar.token :: rest, fault⟩, graph, anchors, handles⟩) := by
    rw [← absent]
    rfl
  unfold nodeUnless
  rw [StateT.run_bind, seen]
  exact run_node_scalar fault anchors handles fuel place scalar rest graph

theorem run_nodeUnless_value (fuel : Nat) {ends : List Token}
    (other : ∀ token ∈ ends, token.isScalar = false) (place : Place) (scalar : Scalar)
    {next : Token} (ending : next ∈ ends) (rest : List Token) (graph : Graph) :
    (nodeUnless (fuel + 2) ends place).run
        ⟨⟨scalar.valueTokens ++ next :: rest, fault⟩, graph, anchors, handles⟩ =
      .ok (graph.size, ⟨⟨next :: rest, fault⟩, graph.push scalar.node, anchors, handles⟩) := by
  unfold Scalar.valueTokens
  split
  · next nothing =>
    have seen : (looksAt ends).run ⟨⟨next :: rest, fault⟩, graph, anchors, handles⟩ =
        .ok (true, ⟨⟨next :: rest, fault⟩, graph, anchors, handles⟩) := by
      rw [← List.contains_iff_mem.2 ending]
      rfl
    subst nothing
    unfold nodeUnless
    rw [List.nil_append, StateT.run_bind, seen]
    rfl
  · exact run_nodeUnless_scalar fault anchors handles fuel other place scalar _ graph

/-- An entry is read with two nodes, one after the other. -/
theorem run_entry {α : Type} (fuel : Nat) {ends after : List Token}
    (other : ∀ token ∈ ends, token.isScalar = false)
    (otherToo : ∀ token ∈ after, token.isScalar = false) (place : Place)
    (entry : Scalar × Scalar) {next : Token} (ending : next ∈ after) (rest : List Token)
    (graph : Graph) (more : NodeId → NodeId → Compose α) :
    (do
      let key ← nodeUnless (fuel + 2) ends place
      let value ← if ← accept .value then nodeUnless (fuel + 2) after place else emptyScalar
      more key value).run
        ⟨⟨entry.1.token :: .value :: (entry.2.valueTokens ++ next :: rest), fault⟩, graph, anchors,
          handles⟩ =
      (more graph.size (graph.size + 1)).run
        ⟨⟨next :: rest, fault⟩, (graph.push entry.1.node).push entry.2.node, anchors, handles⟩ := by
  have accepted (tokens : List Token) (graph : Graph) :
      (accept .value).run ⟨⟨.value :: tokens, fault⟩, graph, anchors, handles⟩ =
        .ok (true, ⟨⟨tokens, fault⟩, graph, anchors, handles⟩) := rfl
  refine (run_bind_of_ok (run_nodeUnless_scalar fault anchors handles fuel other ..)).trans ?_
  refine (run_bind_of_ok (accepted ..)).trans ?_
  refine (run_bind_of_ok
    (run_nodeUnless_value fault anchors handles fuel otherToo place _ ending ..)).trans ?_
  rw [Array.size_push]

/-- Each entry of a mapping gets its two nodes behind those that are there. -/
theorem run_blockMapping (entries : List (Scalar × Scalar)) (fuel : Nat)
    (enough : entries.length + 3 ≤ fuel) (rest : List Token) (graph : Graph) :
    (blockMapping fuel).run ⟨⟨blockTokens entries ++ rest, fault⟩, graph, anchors, handles⟩ =
      .ok (pairIds graph.size entries,
        ⟨⟨rest, fault⟩, graph.withEntries entries, anchors, handles⟩) := by
  induction entries generalizing fuel graph with
  | nil =>
    obtain ⟨fuel, rfl⟩ := Nat.exists_eq_add_of_le' enough
    unfold blockMapping
    rfl
  | cons entry entries ih =>
    obtain ⟨fuel, rfl⟩ := Nat.exists_eq_add_of_le' enough
    obtain ⟨next, others, same, ending⟩ := exists_blockTokens entries rest
    have below := ih (fuel + entries.length + 3) (by omega)
      ((graph.push entry.1.node).push entry.2.node)
    rw [same] at below
    have tokens : blockTokens (entry :: entries) ++ rest =
        .key :: entry.1.token :: .value :: (entry.2.valueTokens ++ next :: others) := by
      rw [← same, blockTokens, List.append_assoc]
      rfl
    rw [tokens]
    unfold blockMapping
    refine (run_bind_of_ok (a := .key) rfl).trans ((run_bind_of_ok (a := ()) rfl).trans ?_)
    refine (run_entry fault anchors handles (fuel + entries.length + 1) (by decide) (by decide)
      .entry entry ending others graph _).trans ?_
    refine (run_bind_of_ok below).trans ?_
    rw [Array.size_push, Array.size_push]
    rfl

/-- The separator of an entry is dropped. -/
theorem run_parted {α : Type} (first : Bool) (x : Compose α) (tokens : List Token) (graph : Graph) :
    (do
      if !first then expect .flowEntry
      x).run ⟨⟨separator first ++ tokens, fault⟩, graph, anchors, handles⟩ =
      x.run ⟨⟨tokens, fault⟩, graph, anchors, handles⟩ := by
  cases first <;> rfl

theorem run_flowMapping (entries : List (Scalar × Scalar)) (fuel : Nat)
    (enough : entries.length + 3 ≤ fuel) (first : Bool) (rest : List Token) (graph : Graph) :
    (flowMapping fuel first).run
        ⟨⟨flowTokens first entries ++ rest, fault⟩, graph, anchors, handles⟩ =
      .ok (pairIds graph.size entries,
        ⟨⟨rest, fault⟩, graph.withEntries entries, anchors, handles⟩) := by
  induction entries generalizing fuel first graph with
  | nil =>
    obtain ⟨fuel, rfl⟩ := Nat.exists_eq_add_of_le' enough
    unfold flowMapping
    rfl
  | cons entry entries ih =>
    obtain ⟨fuel, rfl⟩ := Nat.exists_eq_add_of_le' enough
    obtain ⟨next, others, same, ending⟩ := exists_flowTokens entries rest
    have below := ih (fuel + entries.length + 3) (by omega) false
      ((graph.push entry.1.node).push entry.2.node)
    rw [same] at below
    have tokens : flowTokens first (entry :: entries) ++ rest =
        separator first ++ (.key :: entry.1.token :: .value ::
          (entry.2.valueTokens ++ next :: others)) := by
      rw [← same, flowTokens, List.append_assoc, List.append_assoc]
      rfl
    have inside (tokens : List Token) :
        (accept .flowMappingEnd).run
          ⟨⟨separator first ++ .key :: tokens, fault⟩, graph, anchors, handles⟩ =
          .ok (false, ⟨⟨separator first ++ .key :: tokens, fault⟩, graph, anchors, handles⟩) := by
      cases first <;> rfl
    rw [tokens]
    unfold flowMapping
    refine (run_bind_of_ok (inside _)).trans ((run_parted ..).trans ?_)
    refine (run_bind_of_ok (a := .key) rfl).trans ((run_bind_of_ok (a := ()) rfl).trans ?_)
    refine (run_entry fault anchors handles (fuel + entries.length + 1) (by decide) (by decide)
      .flow entry ending others graph _).trans ?_
    refine (run_bind_of_ok below).trans ?_
    rw [Array.size_push, Array.size_push]
    rfl

/-! ## The document -/

theorem run_node_mapping (flow : Bool) (entries : List (Scalar × Scalar)) (fuel : Nat)
    (enough : entries.length + 3 ≤ fuel) (rest : List Token) :
    (node (fuel + 1) .block).run
        ⟨⟨mappingTokens flow entries ++ rest, fault⟩, #[], anchors, handles⟩ =
      .ok (0, ⟨⟨rest, fault⟩, mappingGraph entries, anchors, handles⟩) := by
  have filled {items : Compose Entries} {tokens : List Token}
      (ran : items.run ⟨⟨tokens, fault⟩, #[⟨.map, .mapping []⟩], anchors, handles⟩ =
        .ok (pairIds 1 entries, ⟨⟨rest, fault⟩,
          Graph.withEntries #[⟨.map, .mapping []⟩] entries, anchors, handles⟩)) :
      (collection ⟨none, none⟩ .map (.mapping <$> items)).run
          ⟨⟨tokens, fault⟩, #[], anchors, handles⟩ =
        .ok (0, ⟨⟨rest, fault⟩, mappingGraph entries, anchors, handles⟩) :=
    (run_bind_of_ok (a := 0) rfl).trans ((run_bind_of_ok (run_map_of_ok _ ran)).trans rfl)
  -- Both ways begin with a token that is no property of the node.
  cases flow with
  | true =>
    unfold node
    refine (run_bind_of_ok (a := .flowMappingStart) rfl).trans ?_
    refine (run_bind_of_ok (a := ⟨none, none⟩) rfl).trans ?_
    refine (run_bind_of_ok (a := .flowMappingStart) rfl).trans ?_
    refine (run_bind_of_ok (a := ()) rfl).trans ?_
    exact filled (run_flowMapping fault anchors handles entries fuel enough true rest _)
  | false =>
    unfold node
    refine (run_bind_of_ok (a := .blockMappingStart) rfl).trans ?_
    refine (run_bind_of_ok (a := ⟨none, none⟩) rfl).trans ?_
    refine (run_bind_of_ok (a := .blockMappingStart) rfl).trans ?_
    refine (run_bind_of_ok (a := ()) rfl).trans ?_
    exact filled (run_blockMapping fault anchors handles entries fuel enough rest _)

theorem run_skipDocumentEnds (fuel n : Nat) (enough : n ≤ fuel) (graph : Graph) :
    (skipDocumentEnds fuel).run
        ⟨⟨List.replicate n .documentEnd ++ [.streamEnd], fault⟩, graph, anchors, handles⟩ =
      .ok ((), ⟨⟨[.streamEnd], fault⟩, graph, anchors, handles⟩) := by
  induction n generalizing fuel with
  | zero => cases fuel <;> rfl
  | succ n ih =>
    obtain ⟨fuel, rfl⟩ := Nat.exists_eq_add_of_le' (Nat.le_trans (Nat.le_add_left 1 n) enough)
    exact (run_bind_of_ok (a := true) rfl).trans (ih fuel (by omega))

/-- Nothing but its ends follows the root of a document. -/
theorem run_documentEnd (fuel n : Nat) (enough : n ≤ fuel) (root : NodeId) (graph : Graph) :
    (do
      let _ ← accept .documentEnd
      if ← documentStart? fuel then throw .malformed
      else return some root : Compose (Option NodeId)).run
        ⟨⟨List.replicate n .documentEnd ++ [.streamEnd], fault⟩, graph, anchors, handles⟩ =
      .ok (some root, ⟨⟨[.streamEnd], fault⟩, graph, anchors, handles⟩) := by
  have ended (n : Nat) (enough : n ≤ fuel) :
      (documentStart? fuel).run
          ⟨⟨List.replicate n .documentEnd ++ [.streamEnd], fault⟩, graph, anchors, handles⟩ =
        .ok (false, ⟨⟨[.streamEnd], fault⟩, graph, anchors, handles⟩) := by
    have skipped := run_skipDocumentEnds fault anchors handles fuel n enough graph
    refine (run_bind_of_ok skipped).trans ?_
    rfl
  cases n with
  | zero =>
    refine (run_bind_of_ok (a := false) rfl).trans ?_
    exact (run_bind_of_ok (ended 0 enough)).trans rfl
  | succ n =>
    refine (run_bind_of_ok (a := true) rfl).trans ?_
    exact (run_bind_of_ok (ended n (by omega))).trans rfl

theorem run_single (flow marked : Bool) (entries : List (Scalar × Scalar)) (n fuel : Nat)
    (enough : entries.length + n + 5 ≤ fuel) :
    ∃ handles, (single fuel).run
        ⟨⟨documentTokens flow marked entries n, fault⟩, #[], anchors, defaultHandles⟩ =
      .ok (some 0, ⟨⟨[.streamEnd], fault⟩, mappingGraph entries, anchors, handles⟩) := by
  obtain ⟨fuel, rfl⟩ := Nat.exists_eq_add_of_le' (Nat.le_trans (Nat.le_add_left 1 _) enough)
  have content (handles : Table Text Text) :=
    run_node_mapping fault anchors handles flow entries fuel (by omega)
      (List.replicate n .documentEnd ++ [.streamEnd])
  have ending (handles : Table Text Text) := run_documentEnd fault anchors handles
    (fuel + 1) n (by omega) 0 (mappingGraph entries)
  cases marked with
  | false =>
    refine ⟨defaultHandles, ?_⟩
    have mapping := run_map_of_ok some (content defaultHandles)
    unfold single
    cases flow with
    | true =>
      refine (run_bind_of_ok (a := .flowMappingStart) rfl).trans ?_
      exact (run_bind_of_ok mapping).trans (ending defaultHandles)
    | false =>
      refine (run_bind_of_ok (a := .blockMappingStart) rfl).trans ?_
      exact (run_bind_of_ok mapping).trans (ending defaultHandles)
  | true =>
    refine ⟨defaultHandles.update Table.empty, ?_⟩
    have started : (documentStart? (fuel + 1)).run
        ⟨⟨documentTokens flow true entries n, fault⟩, #[], anchors, defaultHandles⟩ =
        .ok (true, ⟨⟨documentTokens flow false entries n, fault⟩, #[], anchors,
          defaultHandles.update Table.empty⟩) := rfl
    have mapping : (documentContent (fuel + 1)).run
        ⟨⟨documentTokens flow false entries n, fault⟩, #[], anchors,
          defaultHandles.update Table.empty⟩ =
        .ok (0, ⟨⟨List.replicate n .documentEnd ++ [.streamEnd], fault⟩, mappingGraph entries,
          anchors, defaultHandles.update Table.empty⟩) := by
      unfold documentContent
      cases flow with
      | true =>
        refine (run_bind_of_ok (a := .flowMappingStart) rfl).trans ?_
        exact content (defaultHandles.update Table.empty)
      | false =>
        refine (run_bind_of_ok (a := .blockMappingStart) rfl).trans ?_
        exact content (defaultHandles.update Table.empty)
    unfold single
    refine (run_bind_of_ok (a := .documentStart) rfl).trans ?_
    refine (run_bind_of_ok started).trans ?_
    exact (run_bind_of_ok (run_map_of_ok some mapping)).trans (ending _)

end Compose

theorem length_le_length_blockTokens (entries : List (Scalar × Scalar)) :
    entries.length ≤ (blockTokens entries).length := by
  induction entries with
  | nil => exact Nat.zero_le _
  | cons entry rest ih =>
    rw [blockTokens, entryTokens, List.length_append, List.length_cons, List.length_cons]
    omega

theorem length_le_length_flowTokens (first : Bool) (entries : List (Scalar × Scalar)) :
    entries.length ≤ (flowTokens first entries).length := by
  induction entries generalizing first with
  | nil => exact Nat.zero_le _
  | cons entry rest ih =>
    have later := ih false
    rw [flowTokens, entryTokens, List.length_append, List.length_append, List.length_cons,
      List.length_cons]
    omega

theorem length_le_length_documentTokens (flow marked : Bool) (entries : List (Scalar × Scalar))
    (ends : Nat) :
    entries.length + ends + 1 ≤ (documentTokens flow marked entries ends).length := by
  have inside : entries.length ≤ (mappingTokens flow entries).length := by
    cases flow with
    | true => exact Nat.le_succ_of_le (length_le_length_flowTokens true entries)
    | false => exact Nat.le_succ_of_le (length_le_length_blockTokens entries)
  rw [documentTokens, List.length_append, List.length_append, List.length_append,
    List.length_replicate, List.length_singleton]
  omega

theorem Document.ofStream_documentTokens (flow marked : Bool) (entries : List (Scalar × Scalar))
    (n : Nat) (fault : Option Fault) :
    ofStream ⟨documentTokens flow marked entries n, fault⟩ =
      .ok ⟨mappingGraph entries, some 0⟩ := by
  have enough : entries.length + n + 5 ≤ 4 * (documentTokens flow marked entries n).length + 8 := by
    have long := length_le_length_documentTokens flow marked entries n
    omega
  obtain ⟨handles, composed⟩ :=
    Compose.run_single fault Table.empty flow marked entries n _ enough
  unfold ofStream
  dsimp only
  rw [composed]

/-! ## The nodes -/

namespace Graph

theorem tagOf_of_getElem? {graph : Graph} {id : NodeId} {node : Node}
    (found : graph[id]? = some node) : graph.tagOf id = node.tag := by
  rw [tagOf, found]
  rfl

theorem contentOf_of_getElem? {graph : Graph} {id : NodeId} {node : Node}
    (found : graph[id]? = some node) : graph.contentOf id = node.content := by
  rw [contentOf, found]
  rfl

theorem getElem?_withEntries (graph : Graph) (entries : List (Scalar × Scalar)) {id : Nat}
    (inside : id < graph.size) : (graph.withEntries entries)[id]? = graph[id]? := by
  induction entries generalizing graph with
  | nil => rfl
  | cons entry rest ih =>
    have sized : ((graph.push entry.1.node).push entry.2.node).size = graph.size + 1 + 1 := by
      rw [Array.size_push, Array.size_push]
    refine (ih ((graph.push entry.1.node).push entry.2.node) (by omega)).trans ?_
    rw [Array.getElem?_push, Array.getElem?_push, Array.size_push, if_neg (by omega),
      if_neg (by omega)]

end Graph

/-- Every pair of nodes lies past the graph that was given, and holds its entry. -/
theorem forall₂_pairIds (graph : Graph) (entries : List (Scalar × Scalar)) :
    List.Forall₂ (fun ids entry => graph.size ≤ ids.1 ∧ graph.size ≤ ids.2 ∧
        (graph.withEntries entries)[ids.1]? = some entry.1.node ∧
        (graph.withEntries entries)[ids.2]? = some entry.2.node)
      (pairIds graph.size entries) entries := by
  induction entries generalizing graph with
  | nil => exact .nil
  | cons entry rest ih =>
    have sized : ((graph.push entry.1.node).push entry.2.node).size = graph.size + 1 + 1 := by
      rw [Array.size_push, Array.size_push]
    have grown := ih ((graph.push entry.1.node).push entry.2.node)
    have kept (id : Nat) (inside : id < graph.size + 1 + 1) :
        (graph.withEntries (entry :: rest))[id]? =
          ((graph.push entry.1.node).push entry.2.node)[id]? :=
      Graph.getElem?_withEntries _ rest (sized ▸ inside)
    rw [sized] at grown
    refine .cons ⟨Nat.le_refl _, Nat.le_add_right _ 1, ?_, ?_⟩ (grown.imp fun ids other found => ?_)
    · rw [kept graph.size (by omega), Array.getElem?_push, Array.size_push, if_neg (by omega),
        Array.getElem?_push_size]
    · rw [kept (graph.size + 1) (by omega), Array.getElem?_push, Array.size_push, if_pos rfl]
    · have past : graph.size ≤ graph.size + 1 + 1 := Nat.le_add_right _ 2
      exact ⟨Nat.le_trans past found.1, Nat.le_trans past found.2.1, found.2.2⟩

theorem Document.isFlat_mappingGraph (entries : List (Scalar × Scalar))
    (texts : ∀ entry ∈ entries, entry.1.tag = .str) :
    IsFlat ⟨mappingGraph entries, some 0⟩ (entries.map fun entry => (entry.1.text, entry.2)) := by
  have root : (mappingGraph entries)[0]? = some ⟨.map, .mapping (pairIds 1 entries)⟩ := by
    rw [mappingGraph, Array.getElem?_modify, if_pos rfl,
      Graph.getElem?_withEntries _ _ Nat.zero_lt_one]
    rfl
  have other (id : Nat) (past : 1 ≤ id) : (mappingGraph entries)[id]? =
      (Graph.withEntries #[⟨.map, .mapping []⟩] entries)[id]? := by
    rw [mappingGraph, Array.getElem?_modify, if_neg (by omega)]
  refine ⟨0, pairIds 1 entries, ⟨rfl, ?_, ?_⟩, List.forall₂_map_right_iff.2 ?_⟩
  · exact Graph.tagOf_of_getElem? root
  · exact Graph.contentOf_of_getElem? root
  · have nodes := (forall₂_pairIds #[⟨.map, .mapping []⟩] entries).flip
    refine (List.Forall₂.flip (List.forall₂_and_left _ _ |>.2 ⟨texts, nodes⟩)).imp ?_
    rintro ids entry ⟨text, pastKey, pastValue, key, value⟩
    have keyNode := (other _ pastKey).trans key
    have valueNode := (other _ pastValue).trans value
    exact ⟨⟨(Graph.tagOf_of_getElem? keyNode).trans text, Graph.contentOf_of_getElem? keyNode⟩,
      Graph.tagOf_of_getElem? valueNode, Graph.contentOf_of_getElem? valueNode⟩

end PropertyToolkit.Yaml
