import PropertyToolkit.Module.Identifier
import PropertyToolkit.Proofs.Module.Visibility
import PropertyToolkit.Proofs.Number.Numeral

/-!
What the names of a modular system say. The two parts of a module id are read as the integers that
they write; a part that is no numeral stands for minus one, and one with too many digits is refused.
A class name and a resource path name one package by the same segments.
-/

set_option autoImplicit false

namespace PropertyToolkit.Module

/-! ## Module ids -/

/-- What a part of a module id stands for. -/
inductive StandsFor : Text → Except Integer.ReadFault Int → Prop
  | numeral (n : Numeral) (short : n.digits.length ≤ Integer.maxDigits) :
    StandsFor n.text (.ok n.value)
  | tooLong (n : Numeral) (long : Integer.maxDigits < n.digits.length) :
    StandsFor n.text (.error (.tooLong n.digits.length))
  | other {t : Text} (unlike : ∀ n : Numeral, n.text ≠ t) : StandsFor t (.ok (-1))

theorem readNumber_text (n : Numeral) :
    readNumber n.text =
      if n.digits.length ≤ Integer.maxDigits then .ok n.value
      else .error (.tooLong n.digits.length) := by
  unfold readNumber
  dsimp only
  rw [if_pos (Numeral.exists_text_eq_iff.1 ⟨n, rfl⟩), n.read_text]

theorem readNumber_of_unlike {t : Text} (unlike : ∀ n : Numeral, n.text ≠ t) :
    readNumber t = .ok (-1) := by
  unfold readNumber
  dsimp only
  rw [if_neg]
  intro spelled
  obtain ⟨n, same⟩ := Numeral.exists_text_eq_iff.2 spelled
  exact unlike n same

theorem readNumber_eq_iff {t : Text} {result : Except Integer.ReadFault Int} :
    readNumber t = result ↔ StandsFor t result := by
  constructor
  · rintro rfl
    by_cases spelled : ∃ n : Numeral, n.text = t
    · obtain ⟨n, rfl⟩ := spelled
      rw [readNumber_text]
      split
      · next short => exact .numeral n short
      · next long => exact .tooLong n (Nat.lt_of_not_le long)
    · have unlike : ∀ n : Numeral, n.text ≠ t := fun n same => spelled ⟨n, same⟩
      rw [readNumber_of_unlike unlike]
      exact .other unlike
  · intro stands
    cases stands with
    | numeral n short => rw [readNumber_text, if_pos short]
    | tooLong n long => rw [readNumber_text, if_neg (Nat.not_le.2 long)]
    | other unlike => exact readNumber_of_unlike unlike

theorem cutFirst?_dot {head : Text} (plain : dot ∉ head) (tail : Text) :
    (head ++ dot :: tail).cutFirst? "." = some (head, tail) :=
  Text.cutFirst?_singleton_append plain tail

theorem cutFirst?_of_plain {id : Text} (plain : dot ∉ id) : id.cutFirst? "." = none :=
  (Text.cutFirst?_singleton_eq_none_iff dot id).2 plain

theorem bundleId_dotted {head : Text} (plain : dot ∉ head) (tail : Text) :
    bundleId (head ++ dot :: tail) = readNumber head := by
  rw [bundleId, cutFirst?_dot plain]

theorem revision_dotted {head : Text} (plain : dot ∉ head) (tail : Text) :
    revision (head ++ dot :: tail) = readNumber tail := by
  rw [revision, cutFirst?_dot plain]

theorem bundleId_plain {id : Text} (plain : dot ∉ id) : bundleId id = readNumber id := by
  rw [bundleId, cutFirst?_of_plain plain]

theorem revision_plain {id : Text} (plain : dot ∉ id) : revision id = .ok (-1) := by
  rw [revision, cutFirst?_of_plain plain]

theorem dot_not_mem_text (n : Numeral) : dot ∉ n.text := by
  have digits : ∀ d, decimal d ≠ dot := by decide
  intro mem
  rcases List.mem_append.1 mem with first | digit
  · obtain ⟨sign, _, same⟩ := List.mem_map.1 first
    revert same
    cases sign <;> decide
  · obtain ⟨d, _, same⟩ := List.mem_map.1 digit
    exact digits d same

theorem readNumber_ofInt {z : Int} (short : Integer.isWritable z = true) :
    readNumber (Text.ofInt z) = .ok z := by
  obtain ⟨n, written, same, limit⟩ := Numeral.exists_text_eq_ofInt z
  rw [← written, readNumber_text, if_pos (limit.2 short), same]

theorem dot_not_mem_ofInt (z : Int) : dot ∉ Text.ofInt z := by
  obtain ⟨n, written, -⟩ := Numeral.exists_text_eq_ofInt z
  rw [← written]
  exact dot_not_mem_text n

/-- The parts of a module id are what stands before and after its first dot, and each is read as
what it stands for. So two integers that can be written are read back from the id of both. -/
theorem moduleId_reads (id : Text) :
    (∀ (head tail : Text) (result : Except Integer.ReadFault Int),
      id = head ++ dot :: tail → dot ∉ head →
      (bundleId id = result ↔ StandsFor head result) ∧
      (revision id = result ↔ StandsFor tail result)) ∧
    (∀ result : Except Integer.ReadFault Int, dot ∉ id →
      (bundleId id = result ↔ StandsFor id result) ∧ revision id = .ok (-1)) ∧
    ∀ b r : Int, id = Text.ofInt b ++ dot :: Text.ofInt r →
      Integer.isWritable b = true → Integer.isWritable r = true →
      bundleId id = .ok b ∧ revision id = .ok r := by
  refine ⟨?_, ?_, ?_⟩
  · rintro head tail result rfl plain
    rw [bundleId_dotted plain, revision_dotted plain]
    exact ⟨readNumber_eq_iff, readNumber_eq_iff⟩
  · intro result plain
    rw [bundleId_plain plain]
    exact ⟨readNumber_eq_iff, revision_plain plain⟩
  · rintro b r rfl shortBundle shortRevision
    rw [bundleId_dotted (dot_not_mem_ofInt b), revision_dotted (dot_not_mem_ofInt b)]
    exact ⟨readNumber_ofInt shortBundle, readNumber_ofInt shortRevision⟩

/-- An id of two signed parts with a leading zero. -/
theorem moduleId_reads_signed :
    (dot ∉ ("+04" : Text) ∧ bundleId (("+04" : Text) ++ dot :: "-1") = .ok 4) ∧
    (dot ∉ ("1_0" : Text) ∧ revision "1_0" = .ok (-1)) ∧
    Integer.isWritable (-7) = true ∧ Integer.isWritable 12 = true ∧
      revision (Text.ofInt (-7) ++ dot :: Text.ofInt 12) = .ok 12 := by
  have plain : dot ∉ ("+04" : Text) := by decide
  have whole : dot ∉ ("1_0" : Text) := by decide
  have small : Integer.isWritable (-7) = true ∧ Integer.isWritable 12 = true := by decide +kernel
  have four := ((moduleId_reads _).1 "+04" "-1" (.ok 4) rfl plain).1
  refine ⟨⟨plain, four.2 ?_⟩, ⟨whole, ((moduleId_reads "1_0").2.1 (.ok (-1)) whole).2⟩, small.1,
    small.2, ((moduleId_reads _).2.2 (-7) 12 rfl small.1 small.2).2⟩
  exact .numeral ⟨some .plus, [0, 4], List.cons_ne_nil _ _⟩ (by decide)

/-- A numeral with one digit more than can be read. -/
def longNumeral : Numeral := ⟨none, List.replicate (Integer.maxDigits + 1) 1, List.cons_ne_nil _ _⟩

/-- A module id may be a numeral and yet not be read. -/
theorem bundleId_longNumeral : ¬∃ b : Int, bundleId longNumeral.text = .ok b := by
  rintro ⟨b, read⟩
  have length : longNumeral.digits.length = Integer.maxDigits + 1 := List.length_replicate
  have long : ¬longNumeral.digits.length ≤ Integer.maxDigits := by
    rw [length]
    exact Nat.not_succ_le_self _
  rw [bundleId_plain (dot_not_mem_text longNumeral), readNumber_text, if_neg long] at read
  cases read

/-! ## Packages -/

/-- The separator of a resource path. -/
def slash : CodePoint := '/'

/-- A part of the name of a package. -/
structure IsSegment (s : Text) : Prop where
  filled : s ≠ []
  undotted : dot ∉ s
  unslashed : slash ∉ s

/-- The name that a resource path gives to its package. -/
def dotted (path : Text) : Text := path.map fun c => if c = slash then dot else c

theorem dotted_of_unslashed {s : Text} (plain : slash ∉ s) : dotted s = s := by
  unfold dotted
  conv => rhs; rw [← List.map_id s]
  refine List.map_congr_left fun c mem => if_neg ?_
  rintro rfl
  exact plain mem

theorem dotted_intercalate {segments : List Text} (plain : ∀ s ∈ segments, slash ∉ s) :
    dotted (List.intercalate [slash] segments) = List.intercalate [dot] segments := by
  induction segments with
  | nil => rfl
  | cons first rest ih =>
    obtain ⟨head, tail⟩ := List.forall_mem_cons.1 plain
    cases rest with
    | nil =>
      rw [List.intercalate_singleton, List.intercalate_singleton]
      exact dotted_of_unslashed head
    | cons second rest =>
      have kept := dotted_of_unslashed head
      have others := ih tail
      unfold dotted at kept others ⊢
      rw [List.intercalate_cons_cons, List.intercalate_cons_cons, List.map_append, List.map_append,
        kept, others]
      rfl

/-- Segments that are joined start as the first of them does. -/
theorem head?_intercalate (separator : Text) {first : Text} (filled : first ≠ [])
    (rest : List Text) : (separator.intercalate (first :: rest)).head? = first.head? := by
  obtain ⟨c, later, rfl⟩ := List.exists_cons_of_ne_nil filled
  cases rest with
  | nil => rw [List.intercalate_singleton]
  | cons second rest => rw [List.intercalate_cons_cons]; rfl

theorem classPackage_dotted (package : Text) {simple : Text} (last : dot ∉ simple) :
    classPackage (package ++ dot :: simple) = package := by
  rw [classPackage, cutLast?_dot last]

theorem className_dotted (package : Text) {simple : Text} (last : dot ∉ simple) :
    className (package ++ dot :: simple) = simple := by
  rw [className, cutLast?_dot last]

theorem resourcePackage_rooted (directory : Text) {file : Text} (last : slash ∉ file) :
    resourcePackage (slash :: (directory ++ slash :: file)) = dotted directory := by
  have root : List.isPrefixOf? ("/" : Text) (slash :: (directory ++ slash :: file)) =
      some (directory ++ slash :: file) := Text.isPrefixOf?_append "/" _
  have cut : (directory ++ slash :: file).cutLast? "/" = some (directory, file) :=
    Text.cutLast?_singleton_append last directory
  unfold resourcePackage
  rw [root]
  dsimp only [Option.getD_some]
  rw [cut]
  rfl

/-- One slash at the start of a path does not count. -/
theorem resourcePackage_of_head {path : Text} (relative : path.head? ≠ some slash) :
    resourcePackage path = resourcePackage (slash :: path) := by
  have root : List.isPrefixOf? ("/" : Text) (slash :: path) = some path :=
    Text.isPrefixOf?_append "/" path
  have none : List.isPrefixOf? ("/" : Text) path = none := by
    by_contra found
    obtain ⟨after, rfl⟩ := Text.prefix_of_isPrefixOf?_ne_none found
    exact relative rfl
  unfold resourcePackage
  rw [root, none]
  rfl

/-- Class names and resource paths over the same segments have the same package, with or without a
slash at the start of the path; and a class name with a dot is its package, the last dot and its
simple name. -/
theorem packages_agree :
    (∀ (segments : List Text) (simple file : Text), segments ≠ [] →
      (∀ s ∈ segments, IsSegment s) → dot ∉ simple → slash ∉ file →
      classPackage (List.intercalate [dot] segments ++ dot :: simple) =
        List.intercalate [dot] segments ∧
      className (List.intercalate [dot] segments ++ dot :: simple) = simple ∧
      resourcePackage (List.intercalate [slash] segments ++ slash :: file) =
        List.intercalate [dot] segments ∧
      resourcePackage (slash :: (List.intercalate [slash] segments ++ slash :: file)) =
        List.intercalate [dot] segments) ∧
    ∀ name : Text, dot ∈ name →
      classPackage name ++ dot :: className name = name ∧ dot ∉ className name := by
  constructor
  · intro segments simple file filled parts last lastSlash
    have unslashed : ∀ s ∈ segments, slash ∉ s := fun s mem => (parts s mem).unslashed
    have rooted : resourcePackage (slash :: (List.intercalate [slash] segments ++ slash :: file)) =
        List.intercalate [dot] segments := by
      rw [resourcePackage_rooted _ lastSlash, dotted_intercalate unslashed]
    refine ⟨classPackage_dotted _ last, className_dotted _ last, ?_, rooted⟩
    rw [← rooted]
    apply resourcePackage_of_head
    -- The first segment is not empty, so it is not the last slash that the path starts with.
    obtain ⟨first, rest, rfl⟩ := List.exists_cons_of_ne_nil filled
    have begun := (parts first (List.mem_cons_self ..)).filled
    obtain ⟨c, later, same⟩ := List.exists_cons_of_ne_nil begun
    have start := head?_intercalate [slash] begun rest
    rw [List.head?_append, start, same]
    rintro ⟨⟩
    exact (parts first (List.mem_cons_self ..)).unslashed (same ▸ List.mem_cons_self ..)
  · intro name dotted
    rcases cutLast?_dot_cases name with ⟨-, plain⟩ | ⟨package, simple, -, rfl, last⟩
    · exact absurd dotted plain
    · rw [classPackage_dotted package last, className_dotted package last]
      exact ⟨rfl, last⟩

/-- A package of two segments, and a name with dots at both ends. -/
theorem packages_agree_service :
    ((∀ s ∈ ([("org" : Text), ("example" : Text)] : List Text), IsSegment s) ∧
      dot ∉ ("Service" : Text) ∧ slash ∉ ("service.xml" : Text) ∧
      classPackage "org.example.Service" = resourcePackage "/org/example/service.xml") ∧
    dot ∈ (".a..b." : Text) ∧ classPackage ".a..b." ++ dot :: className ".a..b." = ".a..b." := by
  have simple : dot ∉ ("Service" : Text) := by decide
  have file : slash ∉ ("service.xml" : Text) := by decide
  have dots : dot ∈ (".a..b." : Text) := by decide
  have parts : ∀ s ∈ ([("org" : Text), ("example" : Text)] : List Text), IsSegment s := by
    intro s mem
    rcases List.mem_cons.1 mem with rfl | mem
    · exact ⟨by decide, by decide, by decide⟩
    · rw [List.mem_singleton.1 mem]
      exact ⟨by decide, by decide, by decide⟩
  have agree := packages_agree.1 [("org" : Text), ("example" : Text)] "Service" "service.xml"
    (List.cons_ne_nil _ _) parts simple file
  have joined := (packages_agree.2 ".a..b." dots).1
  exact ⟨⟨parts, simple, file, agree.1.trans agree.2.2.2.symm⟩, dots, joined⟩

end PropertyToolkit.Module
