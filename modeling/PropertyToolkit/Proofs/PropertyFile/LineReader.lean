import Mathlib.Data.List.Basic
import PropertyToolkit.Proofs.PropertyFile.Lines

/-!
Logical lines as the work of a reader that takes one physical line after the other. It never looks
back at the text of the open entry: whether the entry goes on is told by the trailing backslashes of
the line at hand. The entries it finds are the logical lines, and each physical line is skipped or
belongs to exactly one of them.
-/

set_option autoImplicit false

namespace PropertyToolkit.PropertyFile

/-- What a physical line adds to its entry: neither its leading blanks nor the backslash that asks
for the next line. -/
def piece (line : Text) : Text :=
  if continues line then (trimBlanks line).dropLast else trimBlanks line

/-- A reader of physical lines: how many it has taken; the entry that is open, if there is one, as
the number of its first line and its text so far; and the entries before. -/
structure LineReader where
  taken : Nat
  opened : Option (Nat × Text)
  closed : List (Nat × Text)

namespace LineReader

def start : LineReader := ⟨0, none, []⟩

/-- Adds a line to an entry, which is open after that if the line itself asks for another one. -/
def extend (reader : LineReader) (number : Nat) (text line : Text) : LineReader :=
  if continues line then ⟨reader.taken + 1, some (number, text ++ piece line), reader.closed⟩
  else ⟨reader.taken + 1, none, reader.closed ++ [(number, text ++ piece line)]⟩

/-- Takes a line. Only where no entry is open a line can be skipped. -/
def take (reader : LineReader) (line : Text) : LineReader :=
  match reader.opened with
  | some (number, text) => reader.extend number text line
  | none =>
    if startsEntry (trimBlanks line) then reader.extend (reader.taken + 1) [] line
    else { reader with taken := reader.taken + 1 }

/-- The end of the text closes the entry that is open. -/
def finish (reader : LineReader) : List (Nat × Text) := reader.closed ++ reader.opened.toList

/-- The entries of some physical lines, with the numbers of their first lines. -/
def read (lines : List Text) : List (Nat × Text) := (lines.foldl take start).finish

end LineReader

/-! ## The same entries -/

theorem piece_of_asking {line : Text} (asks : continues line = true) :
    piece line ++ (['\\'] : Text) = trimBlanks line ∧ continues (piece line) = false := by
  have trimmed : continues (trimBlanks line) = true := (continues_trimBlanks line).trans asks
  obtain ⟨text, complete, whole⟩ := exists_eq_of_continues trimmed
  rw [piece, if_pos asks, whole, List.dropLast_concat]
  exact ⟨rfl, complete⟩

theorem piece_of_complete {line : Text} (complete : continues line = false) :
    piece line = trimBlanks line := by
  rw [piece, complete]
  rfl

/-- The logical lines from an entry on that has come to `line` with the physical lines taken so
far. -/
def onwards (number taken : Nat) (line : Text) (rest : List Text) : List (Nat × Text) :=
  (number, (gather line rest).1) ::
    logicalLinesFrom (taken + 1 + (rest.length - (gather line rest).2.length)) (gather line rest).2

theorem onwards_of_complete {line : Text} (complete : continues line = false)
    (number taken : Nat) (rest : List Text) :
    onwards number taken line rest = (number, line) :: logicalLinesFrom (taken + 1) rest := by
  rw [onwards, gather_of_complete complete, Nat.sub_self, Nat.add_zero]

theorem onwards_nil {text : Text} (complete : continues text = false) (number taken : Nat) :
    onwards number taken (text ++ (['\\'] : Text)) [] = [(number, text)] := by
  rw [onwards, gather, if_pos (continues_append_backslash complete), List.dropLast_concat,
    logicalLinesFrom]

theorem onwards_cons {text : Text} (complete : continues text = false) (number taken : Nat)
    (next : Text) (rest : List Text) :
    onwards number taken (text ++ (['\\'] : Text)) (next :: rest) =
      onwards number (taken + 1) (text ++ trimBlanks next) rest := by
  have fewer := length_gather_le (text ++ trimBlanks next) rest
  rw [onwards, onwards, gather_continued complete, List.length_cons]
  congr 2
  omega

namespace LineReader

/-- From any state on the reader finds the logical lines. An entry that is open has come to its text
with a backslash behind it, and no other one that asks for more. -/
theorem finish_foldl_take (lines : List Text) (taken : Nat) (closed : List (Nat × Text)) :
    (lines.foldl take ⟨taken, none, closed⟩).finish =
        closed ++ logicalLinesFrom (taken + 1) lines ∧
      ∀ number text, continues text = false →
        (lines.foldl take ⟨taken, some (number, text), closed⟩).finish =
          closed ++ onwards number taken (text ++ (['\\'] : Text)) lines := by
  induction lines generalizing taken closed with
  | nil =>
    constructor
    · rw [logicalLinesFrom]
      rfl
    · intro number text complete
      rw [onwards_nil complete]
      rfl
  | cons line rest ih =>
    -- How the reader goes on once it has added the line to an entry, be it open or new.
    have extended (number : Nat) {text : Text} (complete : continues text = false) :
        (rest.foldl take (extend ⟨taken, none, closed⟩ number text line)).finish =
          closed ++ onwards number (taken + 1) (text ++ trimBlanks line) rest := by
      cases asks : continues line with
      | true =>
        obtain ⟨whole, even⟩ := piece_of_asking asks
        have joined : continues (text ++ piece line) = false := by
          rw [continues_append complete, even]
        rw [extend, if_pos asks, (ih _ _).2 _ _ joined, List.append_assoc, whole]
      | false =>
        have joined : continues (text ++ trimBlanks line) = false := by
          rw [continues_append complete, continues_trimBlanks, asks]
        rw [extend, asks, piece_of_complete asks, onwards_of_complete joined]
        exact ((ih _ _).1).trans (List.append_assoc ..)
    constructor
    · cases starts : startsEntry (trimBlanks line) with
      | true =>
        rw [List.foldl_cons, take, if_pos starts, logicalLinesFrom_cons_of_starts starts]
        exact extended (taken + 1) rfl
      | false =>
        rw [List.foldl_cons, take, starts, logicalLinesFrom_cons_of_skipped starts]
        exact (ih (taken + 1) closed).1
    · intro number text complete
      rw [List.foldl_cons, onwards_cons complete]
      exact extended number complete

theorem read_eq_logicalLinesFrom (lines : List Text) : read lines = logicalLinesFrom 1 lines :=
  (finish_foldl_take lines 0 []).1

end LineReader

/-! ## The use of each line -/

/-- What some physical lines in a row are used for. -/
inductive Stretch where
  | skipped (line : Text)
  | entry (lines : List Text)

namespace Stretch

def lines : Stretch → List Text
  | skipped line => [line]
  | entry lines => lines

/-- A skipped line says nothing. An entry starts with its first line, and each of its lines but the
last one asks for the next. -/
def IsProper : Stretch → Prop
  | skipped line => startsEntry (trimBlanks line) = false
  | entry lines => (∃ first ∈ lines.head?, startsEntry (trimBlanks first) = true) ∧
      ∀ line ∈ lines.dropLast, continues line = true

/-- The last line of an entry does not ask for another one. -/
def IsClosed : Stretch → Prop
  | skipped _ => True
  | entry lines => ∀ last ∈ lines.getLast?, continues last = false

/-- The entries among some stretches, with the numbers of their first lines. -/
def entriesFrom (number : Nat) : List Stretch → List (Nat × Text)
  | [] => []
  | skipped _ :: rest => entriesFrom (number + 1) rest
  | entry lines :: rest =>
    (number, lines.flatMap piece) :: entriesFrom (number + lines.length) rest

theorem entriesFrom_append (number : Nat) (first second : List Stretch) :
    entriesFrom number (first ++ second) =
      entriesFrom number first ++ entriesFrom (number + (first.flatMap lines).length) second := by
  induction first generalizing number with
  | nil => rfl
  | cons stretch rest ih =>
    rw [List.flatMap_cons, List.length_append, ← Nat.add_assoc]
    cases stretch with
    | skipped line => exact ih (number + 1)
    | entry lines => exact congrArg (_ :: ·) (ih (number + lines.length))

end Stretch

/-- The lines of a text in stretches, one after the other and none left out. Only the last one may
be an entry that asks for more than there is. -/
structure Divides (stretches : List Stretch) (lines : List Text) : Prop where
  whole : stretches.flatMap Stretch.lines = lines
  proper : ∀ stretch ∈ stretches, stretch.IsProper
  closed : ∀ stretch ∈ stretches.dropLast, stretch.IsClosed

namespace LineReader

/-- What a reader has made of the lines it has taken: some stretches that are done with, and those
of the open entry. -/
structure Accounts (reader : LineReader) (lines : List Text) (stretches : List Stretch)
    (pending : List Text) : Prop where
  split : lines = stretches.flatMap Stretch.lines ++ pending
  proper : ∀ stretch ∈ stretches, stretch.IsProper
  shut : ∀ stretch ∈ stretches, stretch.IsClosed
  taken : reader.taken = lines.length
  closed : reader.closed = Stretch.entriesFrom 1 stretches
  opened : reader.opened = if pending = [] then none
    else some ((stretches.flatMap Stretch.lines).length + 1, pending.flatMap piece)
  starts : ∀ first ∈ pending.head?, startsEntry (trimBlanks first) = true
  asks : ∀ line ∈ pending, continues line = true

namespace Accounts

variable {reader : LineReader} {lines pending : List Text} {stretches : List Stretch}

theorem start : Accounts .start [] [] [] :=
  ⟨rfl, nofun, nofun, rfl, rfl, rfl, nofun, nofun⟩

/-- A line that opens an entry, or is added to the one that is open. -/
theorem extend (accounts : Accounts reader lines stretches pending) {line : Text}
    (starts : ∀ first ∈ (pending ++ [line]).head?, startsEntry (trimBlanks first) = true) :
    ∃ later more, Accounts
      (reader.extend ((stretches.flatMap Stretch.lines).length + 1) (pending.flatMap piece) line)
      (lines ++ [line]) later more := by
  have text : pending.flatMap piece ++ piece line = (pending ++ [line]).flatMap piece := by
    simp
  cases goesOn : continues line with
  | true =>
    refine ⟨stretches, pending ++ [line], ?_⟩
    rw [LineReader.extend, if_pos goesOn, text]
    exact {
      split := by rw [accounts.split, List.append_assoc]
      proper := accounts.proper
      shut := accounts.shut
      taken := by rw [List.length_append, ← accounts.taken]; rfl
      closed := accounts.closed
      opened := by rw [if_neg (List.concat_ne_nil _ _)]
      starts := starts
      asks := List.forall_mem_append.2 ⟨accounts.asks, by simpa using goesOn⟩ }
  | false =>
    refine ⟨stretches ++ [.entry (pending ++ [line])], [], ?_⟩
    rw [LineReader.extend, goesOn, text]
    have proper : (Stretch.entry (pending ++ [line])).IsProper := by
      obtain ⟨first, head⟩ : ∃ first, (pending ++ [line]).head? = some first :=
        ⟨_, List.head?_eq_some_head (List.concat_ne_nil _ _)⟩
      refine ⟨⟨first, head, starts first head⟩, ?_⟩
      rw [List.dropLast_concat]
      exact accounts.asks
    have shut : (Stretch.entry (pending ++ [line])).IsClosed := by
      intro last mem
      rw [List.getLast?_concat] at mem
      cases mem
      exact goesOn
    exact {
      split := by simp [accounts.split, Stretch.lines]
      proper := List.forall_mem_append.2 ⟨accounts.proper, by simpa using proper⟩
      shut := List.forall_mem_append.2 ⟨accounts.shut, by simpa using shut⟩
      taken := by rw [List.length_append, ← accounts.taken]; rfl
      closed := by
        rw [Stretch.entriesFrom_append, ← accounts.closed, Nat.add_comm 1]
        rfl
      opened := rfl
      starts := nofun
      asks := nofun }

/-- One line more. -/
theorem take (accounts : Accounts reader lines stretches pending) (line : Text) :
    ∃ later more, Accounts (reader.take line) (lines ++ [line]) later more := by
  have opened := accounts.opened
  by_cases idle : pending = []
  · have split := accounts.split
    rw [if_pos idle] at opened
    rw [idle, List.append_nil] at split
    cases starts : startsEntry (trimBlanks line) with
    | true =>
      have first : ∀ first ∈ (pending ++ [line]).head?, startsEntry (trimBlanks first) = true := by
        simpa [idle] using starts
      have extended := accounts.extend first
      rw [idle, ← split, ← accounts.taken] at extended
      rw [LineReader.take, opened, starts]
      exact extended
    | false =>
      have skipped : reader.take line = { reader with taken := reader.taken + 1 } := by
        rw [LineReader.take, opened, starts]
        rfl
      have proper : (Stretch.skipped line).IsProper := starts
      rw [skipped]
      exact ⟨stretches ++ [.skipped line], [], {
        split := by simp [split, Stretch.lines]
        proper := List.forall_mem_append.2 ⟨accounts.proper, by simpa using proper⟩
        shut := List.forall_mem_append.2 ⟨accounts.shut, by simp [Stretch.IsClosed]⟩
        taken := by rw [List.length_append, ← accounts.taken]; rfl
        closed := by
          rw [Stretch.entriesFrom_append, ← accounts.closed]
          exact (List.append_nil _).symm
        opened := opened
        starts := nofun
        asks := nofun }⟩
  · rw [if_neg idle] at opened
    rw [LineReader.take, opened]
    apply accounts.extend
    intro first mem
    rw [List.head?_append_of_ne_nil _ idle] at mem
    exact accounts.starts first mem

theorem foldl_take (accounts : Accounts reader lines stretches pending) (rest : List Text) :
    ∃ later more, Accounts (rest.foldl LineReader.take reader) (lines ++ rest) later more := by
  induction rest generalizing reader lines stretches pending with
  | nil => exact ⟨stretches, pending, by rwa [List.append_nil]⟩
  | cons line rest ih =>
    obtain ⟨later, more, next⟩ := accounts.take line
    rw [List.append_cons]
    exact ih next

/-- At the end, the lines of an open entry are one more stretch. -/
theorem finish (accounts : Accounts reader lines stretches pending) :
    ∃ whole, Divides whole lines ∧ reader.finish = Stretch.entriesFrom 1 whole := by
  have opened := accounts.opened
  by_cases idle : pending = []
  · have split := accounts.split
    rw [if_pos idle] at opened
    rw [idle, List.append_nil] at split
    refine ⟨stretches, ⟨split.symm, accounts.proper, ?_⟩, ?_⟩
    · intro stretch mem
      exact accounts.shut stretch (List.dropLast_subset _ mem)
    · rw [LineReader.finish, opened, accounts.closed]
      exact List.append_nil _
  · rw [if_neg idle] at opened
    have proper : (Stretch.entry pending).IsProper := by
      obtain ⟨first, head⟩ : ∃ first, pending.head? = some first :=
        ⟨_, List.head?_eq_some_head idle⟩
      refine ⟨⟨first, head, accounts.starts first head⟩, fun line mem => ?_⟩
      exact accounts.asks line (List.dropLast_subset _ mem)
    refine ⟨stretches ++ [.entry pending], ⟨?_, ?_, ?_⟩, ?_⟩
    · simp [accounts.split, Stretch.lines]
    · exact List.forall_mem_append.2 ⟨accounts.proper, by simpa using proper⟩
    · rw [List.dropLast_concat]
      exact accounts.shut
    · rw [LineReader.finish, opened, accounts.closed, Stretch.entriesFrom_append, Nat.add_comm 1]
      rfl

end Accounts

end LineReader

/-- The logical lines of a text are the entries of the reader that takes its physical lines one by
one. Each physical line is skipped or a line of exactly one entry: the lines part into stretches,
in their order, which are skipped lines and the entries. -/
theorem logicalLines_eq_read (t : Text) :
    logicalLines t = LineReader.read (physicalLines t) ∧
      ∃ stretches, Divides stretches (physicalLines t) ∧
        logicalLines t = Stretch.entriesFrom 1 stretches := by
  have same : logicalLines t = LineReader.read (physicalLines t) :=
    (LineReader.read_eq_logicalLinesFrom _).symm
  obtain ⟨stretches, pending, accounts⟩ :=
    LineReader.Accounts.start.foldl_take (physicalLines t)
  obtain ⟨whole, divides, entries⟩ := accounts.finish
  exact ⟨same, whole, divides, same.trans entries⟩

/-- A comment sign behind a backslash belongs to the entry, and so does a line of nothing but a
backslash, which asks for one more. -/
example : LineReader.read ["#", "a\\\\\\", " \\", "!b", "", "c\\"] =
    [(2, ("a\\\\!b" : Text)), (6, ("c" : Text))] := by
  decide

end PropertyToolkit.PropertyFile
