import PropertyToolkit.Proofs.PropertyFile.Layout
import PropertyToolkit.Proofs.PropertyFile.Reading

/-!
Two property files on top of each other. A line feed between them parts their physical lines, and
unless the upper file ends inside of an entry, it parts their logical lines as well. The lower file
is then read as on its own, only further down: its problems come after those of the upper one with
the numbers of their lines moved, and its properties are put on top.
-/

set_option autoImplicit false

namespace PropertyToolkit.PropertyFile

/-! ## Physical lines -/

theorem getLast?_ne_of_cons {c d : CodePoint} {rest : Text}
    (other : (c :: rest).getLast? ≠ some d) : rest.getLast? ≠ some d := by
  intro last
  rw [List.getLast?_cons, last] at other
  exact other rfl

/-- A feed ends a line wherever it stands, unless a return stands right before it. -/
theorem physicalLines_append_feed {upper : Text}
    (unreturned : upper.getLast? ≠ some (CodePoint.ofChar '\r')) (lower : Text) :
    physicalLines (upper ++ (LineBreak.lineFeed.text ++ lower)) =
      physicalLines upper ++ physicalLines lower := by
  induction upper using physicalLines.induct with
  | case1 => exact physicalLines_feed lower
  | case2 c breaks =>
    have other : c ≠ '\r' := by simpa using unreturned
    have feed : c = '\n' := by simpa [isBreak, other] using breaks
    subst feed
    exact (physicalLines_feed _).trans (congrArg ([] :: ·) (physicalLines_feed lower))
  | case3 c inner =>
    have inner : isBreak c = false := Bool.eq_false_iff.2 inner
    rw [List.singleton_append, physicalLines_cons inner, physicalLines_cons inner]
    exact congrArg (consFirst c) (physicalLines_feed lower)
  | case4 c d rest both ih =>
    have later := ih (getLast?_ne_of_cons (getLast?_ne_of_cons unreturned))
    rw [List.cons_append, List.cons_append, physicalLines, if_pos both, later, physicalLines,
      if_pos both]
    rfl
  | case5 c d rest other breaks ih =>
    have later := ih (getLast?_ne_of_cons unreturned)
    rw [List.cons_append] at later ⊢
    rw [List.cons_append, physicalLines, if_neg other, if_pos breaks, later, physicalLines,
      if_neg other, if_pos breaks]
    rfl
  | case6 c d rest other inner ih =>
    have inner : isBreak c = false := Bool.eq_false_iff.2 inner
    obtain ⟨first, others, lines⟩ := exists_physicalLines_eq_cons (d :: rest)
    rw [List.cons_append, physicalLines_cons inner, ih (getLast?_ne_of_cons unreturned),
      physicalLines_cons inner, lines]
    rfl

/-! ## Logical lines -/

/-- Whether an entry goes on after a line; `goesOn` tells whether one comes in from the line
before. -/
def leavesOpen (goesOn : Bool) (line : Text) : Bool :=
  (goesOn || startsEntry (trimBlanks line)) && continues line

/-- The last of some lines belongs to an entry that asks for yet another line. -/
def endsOpen (lines : List Text) : Bool := lines.foldl leavesOpen false

/-- Lines that an entry does not need are not touched while it is gathered. -/
theorem gather_append {line : Text} {upper : List Text}
    (closed : upper.foldl leavesOpen (continues line) = false) (lower : List Text) :
    gather line (upper ++ lower) = ((gather line upper).1, (gather line upper).2 ++ lower) ∧
      endsOpen (gather line upper).2 = false := by
  induction upper generalizing line with
  | nil =>
    have complete : continues line = false := closed
    rw [List.nil_append, gather_of_complete complete, gather_of_complete complete]
    exact ⟨rfl, rfl⟩
  | cons next rest ih =>
    cases asks : continues line with
    | true =>
      have joined : continues (line.dropLast ++ trimBlanks next) = continues next := by
        rw [continues_append (continues_dropLast asks), continues_trimBlanks]
      rw [asks, List.foldl_cons, leavesOpen, Bool.true_or, Bool.true_and, ← joined] at closed
      rw [List.cons_append, gather, gather, if_pos asks, if_pos asks]
      exact ih closed
    | false =>
      rw [asks] at closed
      rw [gather_of_complete asks, gather_of_complete asks]
      exact ⟨rfl, closed⟩

theorem logicalLinesFrom_append (number : Nat) {upper : List Text}
    (closed : endsOpen upper = false) (lower : List Text) :
    logicalLinesFrom number (upper ++ lower) =
      logicalLinesFrom number upper ++ logicalLinesFrom (number + upper.length) lower := by
  induction number, upper using logicalLinesFrom.induct with
  | case1 number =>
    rw [logicalLinesFrom]
    rfl
  | case2 number line rest starts gathered ih =>
    rw [endsOpen, List.foldl_cons, leavesOpen, starts, Bool.false_or, Bool.true_and,
      ← continues_trimBlanks] at closed
    obtain ⟨same, left⟩ := gather_append closed lower
    have fewer : gathered.2.length ≤ rest.length := length_gather_le (trimBlanks line) rest
    have count : number + 1 + (rest.length - gathered.2.length) + gathered.2.length =
        number + (rest.length + 1) := by omega
    have later := ih left
    rw [count] at later
    rw [List.cons_append, logicalLinesFrom_cons_of_starts starts,
      logicalLinesFrom_cons_of_starts starts, same, List.length_append, List.length_append,
      Nat.add_sub_add_right]
    exact congrArg (_ :: ·) later
  | case3 number line rest skipped ih =>
    have silent : startsEntry (trimBlanks line) = false := Bool.eq_false_iff.2 skipped
    rw [endsOpen, List.foldl_cons, leavesOpen, silent] at closed
    rw [List.cons_append, logicalLinesFrom_cons_of_skipped silent,
      logicalLinesFrom_cons_of_skipped silent, ih closed, List.length_cons, Nat.add_right_comm,
      Nat.add_assoc]

/-- Where the first line stands only shifts the numbers of all. -/
theorem logicalLinesFrom_add (number offset : Nat) (lines : List Text) :
    logicalLinesFrom (number + offset) lines =
      (logicalLinesFrom number lines).map fun line => (line.1 + offset, line.2) := by
  induction number, lines using logicalLinesFrom.induct with
  | case1 number =>
    rw [logicalLinesFrom, logicalLinesFrom]
    rfl
  | case2 number line rest starts gathered ih =>
    rw [Nat.add_right_comm] at ih
    rw [logicalLinesFrom_cons_of_starts starts, logicalLinesFrom_cons_of_starts starts,
      Nat.add_right_comm number offset]
    exact congrArg (_ :: ·) ih
  | case3 number line rest skipped ih =>
    have silent : startsEntry (trimBlanks line) = false := Bool.eq_false_iff.2 skipped
    rw [logicalLinesFrom_cons_of_skipped silent, logicalLinesFrom_cons_of_skipped silent,
      Nat.add_right_comm, ih]

/-! ## Readings -/

/-- The same problem, some lines further down. -/
def Problem.moveDown (offset : Nat) : Problem → Problem
  | malformedEscape line digits => malformedEscape (line + offset) digits
  | emptyName line => emptyName (line + offset)
  | other => other

theorem Problem.message_moveDown (offset : Nat) (problem : Problem) :
    (problem.moveDown offset).message = problem.message := by
  cases problem <;> rfl

/-- The problems of an entry are told by the number of its line. -/
theorem readEntry_add (number offset : Nat) (line : Text) :
    readEntry (number + offset) line =
      (readEntry number line).mapError (Problem.moveDown offset) := by
  unfold readEntry
  cases read_key : unescape (splitEntry line).1 with
  | error fault =>
    simp only [read_key]
    rfl
  | ok key =>
    cases read_value : unescape (splitEntry line).2 with
    | error fault =>
      simp only [read_key, read_value]
      rfl
    | ok value =>
      simp only [read_key, read_value]
      by_cases empty : key = []
      · rw [if_pos empty, if_pos empty]
        rfl
      · rw [if_neg empty, if_neg empty]
        rfl

namespace Reading

/-- What another file comes to, on top of what was read so far. -/
def followedBy (upper lower : Reading) : Reading :=
  ⟨upper.properties.update lower.properties, upper.problems ++ lower.problems⟩

theorem followedBy_add (upper lower : Reading) (line : Nat × Text) :
    (upper.followedBy lower).add line = upper.followedBy (lower.add line) := by
  cases read : readEntry line.1 line.2 with
  | error problem =>
    rw [add_of_error read, add_of_error read]
    exact congrArg (Reading.mk _) (List.append_assoc ..)
  | ok entry =>
    rw [add_of_ok read, add_of_ok read]
    exact congrArg (Reading.mk · _) (Table.update_put ..).symm

theorem foldl_add_followedBy (upper lower : Reading) (lines : List (Nat × Text)) :
    lines.foldl add (upper.followedBy lower) = upper.followedBy (lines.foldl add lower) := by
  induction lines generalizing lower with
  | nil => rfl
  | cons line rest ih => rw [List.foldl_cons, followedBy_add, ih, List.foldl_cons]

def moveDown (offset : Nat) (reading : Reading) : Reading :=
  { reading with problems := reading.problems.map (Problem.moveDown offset) }

theorem moveDown_add (offset : Nat) (reading : Reading) (line : Nat × Text) :
    (reading.moveDown offset).add (line.1 + offset, line.2) =
      (reading.add line).moveDown offset := by
  have moved := readEntry_add line.1 offset line.2
  cases read : readEntry line.1 line.2 with
  | error problem =>
    rw [read] at moved
    rw [add_of_error moved, add_of_error read, moveDown, moveDown, List.map_append]
    rfl
  | ok entry =>
    rw [read] at moved
    rw [add_of_ok moved, add_of_ok read]
    rfl

theorem foldl_add_moveDown (offset : Nat) (reading : Reading) (lines : List (Nat × Text)) :
    (lines.map fun line => (line.1 + offset, line.2)).foldl add (reading.moveDown offset) =
      (lines.foldl add reading).moveDown offset := by
  induction lines generalizing reading with
  | nil => rfl
  | cons line rest ih => rw [List.map_cons, List.foldl_cons, moveDown_add, ih, List.foldl_cons]

end Reading

/-! ## Two files -/

/-- One file under another. -/
def joined (upper lower : Text) : Text := upper ++ (LineBreak.lineFeed.text ++ lower)

/-- Two files on top of each other are read as they are read on their own. -/
theorem read_joined {upper : Text} (unreturned : upper.getLast? ≠ some (CodePoint.ofChar '\r'))
    (closed : endsOpen (physicalLines upper) = false) (lower : Text) :
    read (joined upper lower) =
      (read upper).followedBy ((read lower).moveDown (physicalLines upper).length) := by
  have above : read upper = (read upper).followedBy ⟨Table.empty, []⟩ :=
    congrArg (Reading.mk _) (List.append_nil _).symm
  have below := Reading.foldl_add_moveDown (physicalLines upper).length ⟨Table.empty, []⟩
    (logicalLines lower)
  rw [logicalLines, ← logicalLinesFrom_add] at below
  rw [read, logicalLines, joined, physicalLines_append_feed unreturned,
    logicalLinesFrom_append 1 closed, List.foldl_append, ← logicalLines, ← read, above,
    Reading.foldl_add_followedBy, ← above]
  exact congrArg _ below

/-- A file under another one, with a line feed between them, comes to what the two come to. The
upper one may not end in a return, nor inside of an entry. No problem gets lost or is found twice,
those of the lower file tell their lines as they are in the whole, and the whole is refused exactly
if one of the parts is. -/
theorem load_joined {upper : Text} (unreturned : upper.getLast? ≠ some (CodePoint.ofChar '\r'))
    (closed : endsOpen (physicalLines upper) = false) (lower : Text) :
    (read (joined upper lower)).problems = (read upper).problems ++
        (read lower).problems.map (Problem.moveDown (physicalLines upper).length) ∧
    (read (joined upper lower)).properties =
        (read upper).properties.update (read lower).properties ∧
    (∀ offset, ∀ problem ∈ (read lower).problems,
      (problem.moveDown offset).message = problem.message ∧
      ∃ line, problem.place = "line " ++ Text.ofNat line ∧
        (problem.moveDown offset).place = "line " ++ Text.ofNat (line + offset)) ∧
    ∀ files first second whole, HasLines files first upper → HasLines files second lower →
      HasLines files whole (joined upper lower) →
      (load files whole).problems = (load files first).problems ++
        (load files second).problems.map (Problem.moveDown (physicalLines upper).length) ∧
      ((load files whole).IsRefused ↔
        (load files first).IsRefused ∨ (load files second).IsRefused) ∧
      ∀ above below, (load files first).result = .ok above →
        (load files second).result = .ok below →
        (load files whole).result = .ok (above.update below) := by
  have whole := read_joined unreturned closed lower
  refine ⟨by rw [whole]; rfl, by rw [whole]; rfl, ?_, ?_⟩
  · intro offset problem mem
    obtain ⟨line, -, failed⟩ := exists_of_mem_problems_read mem
    have moved := readEntry_add line.1 offset line.2
    rw [failed] at moved
    exact ⟨problem.message_moveDown offset, line.1, place_of_readEntry failed,
      place_of_readEntry moved⟩
  · intro files first second path above below file
    rw [load_of_hasLines above, load_of_hasLines below, load_of_hasLines file, whole]
    refine ⟨rfl, ?_, fun _ _ found others => ?_⟩
    · simp only [Load.isRefused_ofReading_iff, Reading.followedBy, Reading.moveDown, ne_eq,
        List.append_eq_nil_iff, List.map_eq_nil_iff]
      exact not_and_or
    · obtain ⟨clean, rfl⟩ := (Load.result_ofReading_eq_ok_iff ..).1 found
      obtain ⟨fine, rfl⟩ := (Load.result_ofReading_eq_ok_iff ..).1 others
      refine (Load.result_ofReading_eq_ok_iff ..).2 ⟨?_, rfl⟩
      rw [Reading.followedBy, Reading.moveDown, clean, fine]
      rfl

/-- A refused name, and an entry over two lines at the end. -/
def upperPart : Text := "a=1\n=x\nb=\\\n  2"

/-- An escape without its digits, behind a comment and an empty line. -/
def lowerPart : Text := "a=3\n# note\\\n\nc=\\u12"

/-- Both parts and the whole, each under a name of its own. -/
def partsOfFile : Files := .ofContents fun path =>
  let text := if path = .ofText "upper.conf" then upperPart
    else if path = .ofText "lower.conf" then lowerPart else joined upperPart lowerPart
  .ok (text.map fun c => UInt8.ofNat c.value)

theorem hasLines_partsOfFile :
    HasLines partsOfFile (.ofText "upper.conf") upperPart ∧
      HasLines partsOfFile (.ofText "lower.conf") lowerPart ∧
      HasLines partsOfFile (.ofText "whole.conf") (joined upperPart lowerPart) :=
  ⟨⟨by decide, rfl, _, rfl, by decide⟩, ⟨by decide, rfl, _, rfl, by decide⟩,
    ⟨by decide, rfl, _, rfl, by decide⟩⟩

theorem load_joined_parts :
    (upperPart.getLast? ≠ some (CodePoint.ofChar '\r') ∧
      endsOpen (physicalLines upperPart) = false) ∧
      (read (joined upperPart lowerPart)).problems.map Problem.report =
        (["Validation error at 'line 2': Property name must not be empty",
          "Validation error at 'line 8': Malformed \\uXXXX encoding: \\u12"] : List Text) ∧
      (read (joined upperPart lowerPart)).properties.entries =
        ([("a", "3"), ("b", "2")] : List (Text × Text)) ∧
      (load partsOfFile (.ofText "whole.conf")).IsRefused := by
  have unreturned : upperPart.getLast? ≠ some (CodePoint.ofChar '\r') := by decide
  have closed : endsOpen (physicalLines upperPart) = false := by decide
  have flawed : (read upperPart).problems.isEmpty = false := by decide +kernel
  obtain ⟨problems, properties, -, loads⟩ := load_joined unreturned closed lowerPart
  obtain ⟨upper, lower, whole⟩ := hasLines_partsOfFile
  refine ⟨⟨unreturned, closed⟩, ?_, ?_, ?_⟩
  · rw [problems]
    decide +kernel
  · rw [properties]
    decide +kernel
  · rw [(loads _ _ _ _ upper lower whole).2.1, load_of_hasLines upper,
      Load.isRefused_ofReading_iff, ne_eq, ← List.isEmpty_iff, flawed]
    exact .inl Bool.false_ne_true

end PropertyToolkit.PropertyFile
