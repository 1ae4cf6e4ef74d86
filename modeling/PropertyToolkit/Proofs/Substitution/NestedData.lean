import PropertyToolkit.Proofs.Fallible
import PropertyToolkit.Proofs.Substitution.Journal
import PropertyToolkit.Proofs.Value.Leaves
import PropertyToolkit.Substitution.Properties

/-!
Expanding nested data. Its leaves are expanded one after the other from left to right, each under
its own name, and nothing else of it changes. No leaf of the result has a closing bracket left, so
the result stays as it is wherever it is expanded again.
-/

set_option autoImplicit false

namespace PropertyToolkit.Substitution

open Value

/-- A leaf with its text expanded under its name. -/
def expandLeaf (sources : Sources) (leaf : Option Text × Text) :
    Except Fault (Option Text × Text) :=
  (expand sources leaf.2 leaf.1 []).result.map (leaf.1, ·)

/-- A leaf with what its text expands to under its name. -/
def Expands (sources : Sources) (leaf final : Option Text × Text) : Prop :=
  final.1 = leaf.1 ∧ (expand sources leaf.2 leaf.1 []).result = .ok final.2

section

variable {sources : Sources}

theorem expandLeaf_eq_ok_iff {leaf final : Option Text × Text} :
    expandLeaf sources leaf = .ok final ↔ Expands sources leaf final := by
  rw [expandLeaf, map_eq_ok_iff]
  constructor
  · rintro ⟨t, expanded, rfl⟩
    exact ⟨rfl, expanded⟩
  · rintro ⟨named, expanded⟩
    exact ⟨final.2, expanded, Prod.ext named.symm rfl⟩

theorem expandLeaf_eq_error_iff {leaf : Option Text × Text} {fault : Fault} :
    expandLeaf sources leaf = .error fault ↔
      (expand sources leaf.2 leaf.1 []).result = .error fault := by
  unfold expandLeaf
  cases (expand sources leaf.2 leaf.1 []).result with
  | error other => simp only [Except.map, Except.error.injEq]
  | ok t => exact ⟨nofun, nofun⟩

theorem exists_expandLeaf_eq_ok_iff {leaf : Option Text × Text} :
    (∃ final, expandLeaf sources leaf = .ok final) ↔
      ∃ t, (expand sources leaf.2 leaf.1 []).result = .ok t := by
  unfold expandLeaf
  cases (expand sources leaf.2 leaf.1 []).result with
  | error fault => exact ⟨nofun, nofun⟩
  | ok t => exact ⟨fun _ => ⟨t, rfl⟩, fun _ => ⟨_, rfl⟩⟩

mutual

/-- The leaves of a value are expanded in order, up to the first fault. -/
theorem leaves_substitute (sources : Sources) (key : Option Text) : ∀ v : Value,
    (substitute sources key v).map (leaves key) = (v.leaves key).mapM (expandLeaf sources)
  | .text t => by
    rw [substitute, leaves, List.mapM_cons, List.mapM_nil, expandLeaf]
    cases (expand sources t key []).result <;> rfl
  | .list items => by
    rw [substitute, leaves, ← leaves_substituteItems sources key items]
    cases substituteItems sources key items <;> rfl
  | .map entries => by
    rw [substitute, leaves, ← leaves_substituteEntries sources entries]
    cases substituteEntries sources entries <;> rfl
  | .null | .bool _ | .int _ | .float _ | .bytes _ | .date _ | .dateTime _ => rfl

theorem leaves_substituteItems (sources : Sources) (key : Option Text) : ∀ items : List Value,
    (substituteItems sources key items).map (leavesOfItems key) =
      (leavesOfItems key items).mapM (expandLeaf sources)
  | [] => rfl
  | item :: rest => by
    rw [substituteItems, leavesOfItems, List.mapM_append, ← leaves_substitute sources key item,
      ← leaves_substituteItems sources key rest]
    cases substitute sources key item with
    | error fault => rfl
    | ok final => cases substituteItems sources key rest <;> rfl

theorem leaves_substituteEntries (sources : Sources) : ∀ entries : List (Value × Value),
    (substituteEntries sources entries).map leavesOfEntries =
      (leavesOfEntries entries).mapM (expandLeaf sources)
  | [] => rfl
  | (key, value) :: rest => by
    rw [substituteEntries, leavesOfEntries, List.mapM_append,
      ← leaves_substitute sources key.name? value, ← leaves_substituteEntries sources rest]
    cases substitute sources key.name? value with
    | error fault => rfl
    | ok final => cases substituteEntries sources rest <;> rfl

end

mutual

/-- All but the texts of a value stays as it is. -/
theorem outline_substitute (sources : Sources) (key : Option Text) : ∀ v w : Value,
    substitute sources key v = .ok w → w.outline = v.outline
  | .text t, w, done => by
    rw [substitute, map_eq_ok_iff] at done
    obtain ⟨final, -, rfl⟩ := done
    rfl
  | .list items, w, done => by
    rw [substitute, map_eq_ok_iff] at done
    obtain ⟨finals, done, rfl⟩ := done
    rw [outline, outline, outlines_substituteItems sources key items finals done]
  | .map entries, w, done => by
    rw [substitute, map_eq_ok_iff] at done
    obtain ⟨finals, done, rfl⟩ := done
    rw [outline, outline, outlines_substituteEntries sources entries finals done]
  | .null, _, rfl | .bool _, _, rfl | .int _, _, rfl | .float _, _, rfl | .bytes _, _, rfl
  | .date _, _, rfl | .dateTime _, _, rfl => rfl

theorem outlines_substituteItems (sources : Sources) (key : Option Text) :
    ∀ items finals : List Value,
      substituteItems sources key items = .ok finals → outlines finals = outlines items
  | [], _, rfl => rfl
  | item :: rest, _, done => by
    simp only [substituteItems, bind_eq_ok_iff] at done
    obtain ⟨final, first, others, later, ⟨⟩⟩ := done
    rw [outlines, outlines, outline_substitute sources key item final first,
      outlines_substituteItems sources key rest others later]

theorem outlines_substituteEntries (sources : Sources) :
    ∀ entries finals : List (Value × Value), substituteEntries sources entries = .ok finals →
      outlinesOfEntries finals = outlinesOfEntries entries
  | [], _, rfl => rfl
  | (key, value) :: rest, _, done => by
    simp only [substituteEntries, bind_eq_ok_iff] at done
    obtain ⟨final, first, others, later, ⟨⟩⟩ := done
    rw [outlinesOfEntries, outlinesOfEntries,
      outline_substitute sources key.name? value final first,
      outlines_substituteEntries sources rest others later]

end

theorem substitute_eq_ok_iff {key : Option Text} {v w : Value} :
    substitute sources key v = .ok w ↔
      w.outline = v.outline ∧ List.Forall₂ (Expands sources) (v.leaves key) (w.leaves key) := by
  have each : (v.leaves key).mapM (expandLeaf sources) = .ok (w.leaves key) ↔
      List.Forall₂ (Expands sources) (v.leaves key) (w.leaves key) := by
    simp only [mapM_eq_ok_iff, expandLeaf_eq_ok_iff]
  rw [← each, ← leaves_substitute]
  constructor
  · intro done
    refine ⟨outline_substitute sources key v w done, ?_⟩
    rw [done]
    rfl
  · rintro ⟨shape, leaves⟩
    cases done : substitute sources key v with
    | error fault =>
      rw [done] at leaves
      cases leaves
    | ok final =>
      rw [done, Except.map, Except.ok.injEq] at leaves
      have same := (outline_substitute sources key v final done).trans shape.symm
      rw [eq_of_outline_of_leaves key final w same leaves]

theorem substitute_eq_error_iff {key : Option Text} {v : Value} {fault : Fault} :
    substitute sources key v = .error fault ↔
      ∃ before leaf after, v.leaves key = before ++ leaf :: after ∧
        (∀ earlier ∈ before, ∃ t, (expand sources earlier.2 earlier.1 []).result = .ok t) ∧
        (expand sources leaf.2 leaf.1 []).result = .error fault := by
  have first : (v.leaves key).mapM (expandLeaf sources) = .error fault ↔
      ∃ before leaf after, v.leaves key = before ++ leaf :: after ∧
        (∀ earlier ∈ before, ∃ t, (expand sources earlier.2 earlier.1 []).result = .ok t) ∧
        (expand sources leaf.2 leaf.1 []).result = .error fault := by
    simp only [mapM_eq_error_iff, exists_expandLeaf_eq_ok_iff, expandLeaf_eq_error_iff]
  rw [← first, ← leaves_substitute]
  cases substitute sources key v with
  | error other => simp only [Except.map, Except.error.injEq]
  | ok w => exact ⟨nofun, nofun⟩

theorem settled_of_expands {leaves finals : List (Option Text × Text)}
    (pairs : List.Forall₂ (Expands sources) leaves finals) :
    ∀ final ∈ finals, closer ∉ final.2 := by
  induction pairs with
  | nil => nofun
  | cons here _ ih => exact List.forall_mem_cons.2 ⟨settled_of_result here.2, ih⟩

/-- No text of an expanded value has a closing bracket left. -/
theorem settled_of_substitute {key : Option Text} {v w : Value}
    (done : substitute sources key v = .ok w) :
    ∀ t ∈ (w.leaves key).map Prod.snd, closer ∉ t :=
  List.forall_mem_map.2 (settled_of_expands (substitute_eq_ok_iff.1 done).2)

end

/-- A value without a closing bracket in its texts expands to itself. -/
theorem substitute_settled {w : Value} {key : Option Text}
    (settled : ∀ t ∈ (w.leaves key).map Prod.snd, closer ∉ t) (sources : Sources) :
    substitute sources key w = .ok w := by
  refine substitute_eq_ok_iff.2 ⟨rfl, List.forall₂_same.2 fun leaf mem => ⟨rfl, ?_⟩⟩
  exact result_expand_settled (settled _ (List.mem_map_of_mem mem)) sources leaf.1 []

/-- Nested data keeps its outline when it is expanded, and each of its leaves becomes what it
expands to under its own name. The fault of data that cannot be expanded is the one of the first
leaf from the left that cannot be. Data that was expanded stays as it is under any sources and any
name. -/
theorem substitute_nested (sources : Sources) (key : Option Text) (v : Value) :
    (∀ w, substitute sources key v = .ok w ↔
      w.outline = v.outline ∧ List.Forall₂ (Expands sources) (v.leaves key) (w.leaves key)) ∧
    (∀ fault, substitute sources key v = .error fault ↔
      ∃ before leaf after, v.leaves key = before ++ leaf :: after ∧
        (∀ earlier ∈ before, ∃ t, (expand sources earlier.2 earlier.1 []).result = .ok t) ∧
        (expand sources leaf.2 leaf.1 []).result = .error fault) ∧
    ∀ w, substitute sources key v = .ok w →
      ∀ (others : Sources) (other : Option Text), substitute others other w = .ok w := by
  refine ⟨fun _ => substitute_eq_ok_iff, fun _ => substitute_eq_error_iff, ?_⟩
  intro w done others other
  have settled := settled_of_substitute done
  rw [texts_leaves key other w] at settled
  exact substitute_settled settled others

/-- A directory in another one. -/
def directories : Properties where
  entries := [("base", "/srv"), ("lib", "$\x7bbase\x7d/lib")]
  distinct := by decide

/-- Inner data goes by the name of the entry around it, so a text that expands elsewhere is cyclic
there, and this comes before the fault of the stray bracket on its right. -/
theorem substitute_nested_directories :
    substitute ⟨some (.ofTable directories), none⟩ none
        (.list [.text "$\x7blib\x7d", .int 3]) = .ok (.list [.text "/srv/lib", .int 3]) ∧
      (∀ others other, substitute others other (.list [.text "/srv/lib", .int 3]) =
        .ok (.list [.text "/srv/lib", .int 3])) ∧
      substitute ⟨some (.ofTable directories), none⟩ none
        (.list [.text "$\x7blib\x7d", .map [(.text "base", .list [.text "$\x7blib\x7d"])],
          .text "\x7d"]) = .error (.cyclic "base") := by
  obtain ⟨expands, -, again⟩ := substitute_nested ⟨some (.ofTable directories), none⟩ none
    (.list [.text "$\x7blib\x7d", .int 3])
  have done := (expands (.list [.text "/srv/lib", .int 3])).2
    ⟨rfl, .cons ⟨rfl, result_expand_of_turns 3 (by decide +kernel)⟩ .nil⟩
  refine ⟨done, again _ done, ((substitute_nested _ _ _).2.1 _).2
    ⟨[(none, "$\x7blib\x7d")], (some (Text.ofString "base"), "$\x7blib\x7d"), [(none, "\x7d")],
      rfl, List.forall_mem_singleton.2 ⟨"/srv/lib", ?_⟩, ?_⟩⟩
  · exact result_expand_of_turns 3 (by decide +kernel)
  · exact result_expand_of_turns 2 (by decide +kernel)

end PropertyToolkit.Substitution
