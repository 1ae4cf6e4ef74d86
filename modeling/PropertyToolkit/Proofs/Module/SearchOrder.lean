import Mathlib.Logic.Relation
import PropertyToolkit.Module.TypeSearch

/-!
The order of a type search. A class comes first, then each of its further bases with all that is
above it, then its primary base with all that is above that. A search asks along this order, as far
as the first class that has an answer; a class that is reached on several ways is asked on each.
-/

set_option autoImplicit false

namespace PropertyToolkit.Module

namespace ClassType

mutual

/-- A class and all that is above it, in the order of a search. -/
def lineage : ClassType → List ClassType
  | .mk name home [] => [.mk name home []]
  | .mk name home (primary :: others) =>
    .mk name home (primary :: others) :: (lineages others ++ lineage primary)

/-- Some classes in turn, each with all that is above it. -/
def lineages : List ClassType → List ClassType
  | [] => []
  | c :: rest => lineage c ++ lineages rest

end

theorem lineages_eq_flatMap (classes : List ClassType) :
    lineages classes = classes.flatMap lineage := by
  induction classes with
  | nil => rfl
  | cons c rest ih => rw [lineages, ih, List.flatMap_cons]

/-- The further bases come before the primary one. -/
theorem lineage_eq (c : ClassType) :
    c.lineage = c :: (c.bases.tail.flatMap lineage ++ c.bases.head?.toList.flatMap lineage) := by
  obtain ⟨name, home, bases⟩ := c
  cases bases with
  | nil => rfl
  | cons primary others =>
    rw [lineage, lineages_eq_flatMap]
    simp only [bases, List.tail_cons, List.head?_cons, Option.toList_some, List.flatMap_singleton]

/-- The class at the top of a diamond comes on each of the two ways. -/
example :
    let top : ClassType := .mk "top" "m" []
    let left : ClassType := .mk "left" "m" [top]
    let right : ClassType := .mk "right" "m" [top]
    let bottom : ClassType := .mk "bottom" "m" [left, right]
    bottom.lineage = [bottom, right, top, left, top] := rfl

/-- A class is the other one or above it, along any bases. -/
def Reaches : ClassType → ClassType → Prop := Relation.ReflTransGen fun c base => base ∈ c.bases

theorem mem_lineage_self (c : ClassType) : c ∈ c.lineage := by
  rw [lineage_eq]
  exact List.mem_cons_self ..

/-- A base comes with all that is above it, whether it is the primary one or not. -/
theorem mem_lineage_of_base {c base above : ClassType} (listed : base ∈ c.bases)
    (mem : above ∈ base.lineage) : above ∈ c.lineage := by
  rw [lineage_eq, List.mem_cons, List.mem_append]
  right
  cases bases : c.bases with
  | nil =>
    rw [bases] at listed
    cases listed
  | cons primary others =>
    rw [bases, List.mem_cons] at listed
    rcases listed with first | further
    · right
      rw [← first]
      simpa using mem
    · left
      exact List.mem_flatMap.2 ⟨base, further, mem⟩

mutual

theorem reaches_of_mem_lineage : ∀ (c : ClassType), ∀ above ∈ c.lineage, c.Reaches above
  | .mk name home [], above, mem => by
    rw [lineage, List.mem_singleton] at mem
    rw [mem]
    exact .refl
  | .mk name home (primary :: others), above, mem => by
    rw [lineage, List.mem_cons, List.mem_append] at mem
    rcases mem with self | further | first
    · rw [self]
      exact .refl
    · obtain ⟨base, listed, reaches⟩ := reaches_of_mem_lineages others above further
      exact .head (List.mem_cons_of_mem primary listed) reaches
    · exact .head (List.mem_cons_self ..) (reaches_of_mem_lineage primary above first)

theorem reaches_of_mem_lineages : ∀ (classes : List ClassType), ∀ above ∈ lineages classes,
    ∃ c ∈ classes, c.Reaches above
  | [], above, mem => by cases mem
  | c :: rest, above, mem => by
    rw [lineages, List.mem_append] at mem
    rcases mem with here | later
    · exact ⟨c, List.mem_cons_self .., reaches_of_mem_lineage c above here⟩
    · obtain ⟨other, listed, reaches⟩ := reaches_of_mem_lineages rest above later
      exact ⟨other, List.mem_cons_of_mem c listed, reaches⟩

end

/-- The order of a search holds every class that can be reached, and no other. -/
theorem mem_lineage_iff {c above : ClassType} : above ∈ c.lineage ↔ c.Reaches above := by
  constructor
  · intro mem
    exact reaches_of_mem_lineage c above mem
  · intro reaches
    induction reaches using Relation.ReflTransGen.head_induction_on with
    | refl => exact mem_lineage_self above
    | head listed _ ih => exact mem_lineage_of_base listed ih

end ClassType

namespace Search

variable {ε τ : Type}

theorem orElse_of_miss (asked : List ClassType) (next : Unit → Search ε τ) :
    (Search.mk asked (.ok none)).orElse next = ⟨asked ++ (next ()).asked, (next ()).result⟩ := rfl

/-- A search that has an answer does not go on. -/
theorem orElse_of_ne {first : Search ε τ} (answered : first.result ≠ .ok none)
    (next : Unit → Search ε τ) : first.orElse next = first := by
  unfold orElse
  split
  · next miss => exact absurd miss answered
  · rfl

theorem orElse_assoc (first : Search ε τ) (second third : Unit → Search ε τ) :
    (first.orElse second).orElse third = first.orElse fun _ => (second ()).orElse third := by
  obtain ⟨asked, result⟩ := first
  by_cases miss : result = .ok none
  · subst miss
    simp only [orElse_of_miss]
    by_cases again : (second ()).result = .ok none
    · simp only [orElse, again, List.append_assoc]
    · have answered :
          (Search.mk (asked ++ (second ()).asked) (second ()).result).result ≠ .ok none := again
      rw [orElse_of_ne answered, orElse_of_ne again]
  · have answered : (Search.mk asked result).result ≠ .ok none := miss
    simp only [orElse_of_ne answered]

/-- Asks the classes of a list in turn. -/
def through (load : ClassType → Except ε (Option τ)) : List ClassType → Search ε τ
  | [] => ⟨[], .ok none⟩
  | c :: rest => (Search.mk [c] (load c)).orElse fun _ => through load rest

theorem through_append (load : ClassType → Except ε (Option τ)) (before after : List ClassType) :
    through load (before ++ after) = (through load before).orElse fun _ => through load after := by
  induction before with
  | nil => rfl
  | cons c before ih => rw [List.cons_append, through, ih, through, orElse_assoc]

mutual

/-- A search from a class asks along its lineage. -/
theorem fromClass_eq_through (load : ClassType → Except ε (Option τ)) :
    ∀ c : ClassType, fromClass load c = through load c.lineage
  | .mk name home [] => by
    rw [fromClass, ClassType.lineage, through, through]
    cases load (.mk name home []) with
    | error fault => rfl
    | ok found => cases found <;> rfl
  | .mk name home (primary :: others) => by
    -- The further bases are searched as a list, hence the induction on classes and lists at once.
    rw [fromClass, ClassType.lineage, through, through_append, fromEach_eq_through load others,
      fromClass_eq_through load primary]

theorem fromEach_eq_through (load : ClassType → Except ε (Option τ)) :
    ∀ classes : List ClassType, fromEach load classes = through load (ClassType.lineages classes)
  | [] => rfl
  | c :: rest => by
    rw [fromEach, ClassType.lineages, through_append, fromClass_eq_through load c,
      fromEach_eq_through load rest]

end

/-- How a search goes that asks the classes of a list in turn: as long as nothing is found it goes
on to the next class, and the first other answer ends it. -/
inductive Follows (load : ClassType → Except ε (Option τ)) : List ClassType → Search ε τ → Prop
  | exhausted {order : List ClassType} (misses : ∀ c ∈ order, load c = .ok none) :
    Follows load order ⟨order, .ok none⟩
  | settled (before : List ClassType) {c : ClassType} (after : List ClassType)
    (misses : ∀ d ∈ before, load d = .ok none) (answers : load c ≠ .ok none) :
    Follows load (before ++ c :: after) ⟨before ++ [c], load c⟩

theorem through_follows (load : ClassType → Except ε (Option τ)) (order : List ClassType) :
    Follows load order (through load order) := by
  induction order with
  | nil => exact .exhausted nofun
  | cons c rest ih =>
    rw [through]
    by_cases miss : load c = .ok none
    · rw [miss, orElse_of_miss]
      generalize through load rest = later at ih ⊢
      cases ih with
      | exhausted misses => exact .exhausted (List.forall_mem_cons.2 ⟨miss, misses⟩)
      | settled before after misses answers =>
        exact .settled (c :: before) after (List.forall_mem_cons.2 ⟨miss, misses⟩) answers
    · rw [orElse_of_ne miss]
      exact .settled [] rest nofun miss

theorem Follows.result_eq_none_iff {load : ClassType → Except ε (Option τ)}
    {order : List ClassType} {search : Search ε τ} (follows : Follows load order search) :
    search.result = .ok none ↔ ∀ c ∈ order, load c = .ok none := by
  cases follows with
  | exhausted misses => exact iff_of_true rfl misses
  | @settled before c after misses answers =>
    apply iff_of_false answers
    intro all
    exact answers (all c (List.mem_append_right before (List.mem_cons_self ..)))

theorem Follows.asked_eq_of_miss {load : ClassType → Except ε (Option τ)}
    {order : List ClassType} {search : Search ε τ} (follows : Follows load order search)
    (miss : search.result = .ok none) : search.asked = order := by
  cases follows with
  | exhausted _ => rfl
  | settled before after misses answers => exact absurd miss answers

theorem Follows.exists_of_ne {load : ClassType → Except ε (Option τ)} {order : List ClassType}
    {search : Search ε τ} (follows : Follows load order search)
    (answered : search.result ≠ .ok none) : ∃ c ∈ order, load c = search.result := by
  cases follows with
  | exhausted _ => exact absurd rfl answered
  | @settled before c after _ _ =>
    exact ⟨c, List.mem_append_right before (List.mem_cons_self ..), rfl⟩

/-- The classes that a search from a root may ask, in order; without a root there are none. -/
def order (root : Option ClassType) : List ClassType := root.toList.flatMap ClassType.lineage

theorem fromRoot_eq_through (load : ClassType → Except ε (Option τ)) (root : Option ClassType) :
    fromRoot load root = through load (order root) := by
  cases root with
  | none => rfl
  | some c =>
    rw [fromRoot, fromClass_eq_through]
    simp only [order, Option.toList_some, List.flatMap_singleton]

theorem mem_order_iff {root : Option ClassType} {c : ClassType} :
    c ∈ order root ↔ ∃ start, root = some start ∧ start.Reaches c := by
  cases root with
  | none => simp [order]
  | some start => simp [order, ClassType.mem_lineage_iff]

/-- A search for a name asks the loader along the order from its root, as far as the first class
for which the answer is not that there is nothing, and this answer is the result. It finds nothing
if, and only if, the loader answers so for every class that can be reached, and then it has asked
for all of them. -/
theorem fromRoot_follows (loader : ClassType → Text → Except ε (Option τ)) (name : Text)
    (root : Option ClassType) :
    Follows (loader · name) (order root) (fromRoot (loader · name) root) ∧
      ((fromRoot (loader · name) root).result = .ok none ↔
        ∀ c, (∃ start, root = some start ∧ start.Reaches c) → loader c name = .ok none) ∧
      ((fromRoot (loader · name) root).result = .ok none →
        (fromRoot (loader · name) root).asked = order root) ∧
      fromRoot (loader · name) none = ⟨[], .ok none⟩ := by
  have follows : Follows (loader · name) (order root) (fromRoot (loader · name) root) := by
    rw [fromRoot_eq_through]
    exact through_follows _ _
  have missed : (fromRoot (loader · name) root).result = .ok none ↔
      ∀ c, (∃ start, root = some start ∧ start.Reaches c) → loader c name = .ok none := by
    simp only [follows.result_eq_none_iff, mem_order_iff]
  exact ⟨follows, missed, follows.asked_eq_of_miss, rfl⟩

end Search

end PropertyToolkit.Module
