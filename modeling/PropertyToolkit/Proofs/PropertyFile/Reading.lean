import PropertyToolkit.Proofs.Table
import PropertyToolkit.PropertyFile.Load

/-!
What a reading grows by. A logical line adds one entry or one problem, and a problem tells the line
that it was found at. A file with problems is refused with all of them; without any it is loaded,
and none of its names is empty.
-/

set_option autoImplicit false

namespace PropertyToolkit.PropertyFile

/-! ## One line -/

theorem place_of_readEntry {number : Nat} {line : Text} {problem : Problem}
    (failed : readEntry number line = .error problem) :
    problem.place = "line " ++ Text.ofNat number := by
  unfold readEntry at failed
  dsimp only at failed
  split at failed
  · cases failed
    rfl
  · cases failed
    rfl
  · split at failed
    · cases failed
      rfl
    · cases failed

theorem key_ne_nil_of_readEntry {number : Nat} {line : Text} {entry : Text × Text}
    (found : readEntry number line = .ok entry) : entry.1 ≠ [] := by
  unfold readEntry at found
  dsimp only at found
  split at found
  · cases found
  · cases found
  · split at found
    · cases found
    · next filled =>
      cases found
      exact filled

namespace Reading

theorem add_of_error {line : Nat × Text} {problem : Problem}
    (failed : readEntry line.1 line.2 = .error problem) (reading : Reading) :
    reading.add line = { reading with problems := reading.problems ++ [problem] } := by
  rw [add, failed]

theorem add_of_ok {line : Nat × Text} {entry : Text × Text}
    (found : readEntry line.1 line.2 = .ok entry) (reading : Reading) :
    reading.add line =
      { reading with properties := reading.properties.put entry.1 entry.2 } := by
  rw [add, found]

/-- None of the names is empty. -/
def IsNamed (reading : Reading) : Prop := ∀ key ∈ reading.properties.keys, key ≠ []

theorem IsNamed.put {reading : Reading} (named : reading.IsNamed) {key : Text}
    (filled : key ≠ []) (value : Text) :
    IsNamed { reading with properties := reading.properties.put key value } := by
  intro other listed
  rcases Table.mem_keys_put.1 listed with rfl | before
  · exact filled
  · exact named other before

theorem IsNamed.add {reading : Reading} (named : reading.IsNamed) (line : Nat × Text) :
    (reading.add line).IsNamed := by
  cases read : readEntry line.1 line.2 with
  | error problem =>
    rw [add_of_error read]
    exact named
  | ok entry =>
    rw [add_of_ok read]
    exact named.put (key_ne_nil_of_readEntry read) entry.2

end Reading

/-! ## All lines -/

theorem Reading.exists_of_mem_problems_foldl {lines : List (Nat × Text)} {reading : Reading}
    {problem : Problem} (mem : problem ∈ (lines.foldl add reading).problems) :
    problem ∈ reading.problems ∨ ∃ line ∈ lines, readEntry line.1 line.2 = .error problem := by
  induction lines generalizing reading with
  | nil => exact .inl mem
  | cons line rest ih =>
    rcases ih mem with before | ⟨later, listed, failed⟩
    · cases read : readEntry line.1 line.2 with
      | error found =>
        rw [add_of_error read, List.mem_append, List.mem_singleton] at before
        rcases before with before | rfl
        · exact .inl before
        · exact .inr ⟨line, List.mem_cons_self .., read⟩
      | ok entry =>
        rw [add_of_ok read] at before
        exact .inl before
    · exact .inr ⟨later, List.mem_cons_of_mem _ listed, failed⟩

/-- A problem is found at one of the logical lines. -/
theorem exists_of_mem_problems_read {t : Text} {problem : Problem}
    (mem : problem ∈ (read t).problems) :
    ∃ line ∈ logicalLines t, readEntry line.1 line.2 = .error problem := by
  rcases Reading.exists_of_mem_problems_foldl mem with impossible | found
  · cases impossible
  · exact found

/-! ## What becomes of a file -/

namespace Load

/-- The file is refused, with all problems that were found. -/
def IsRefused (load : Load) : Prop :=
  load.problems ≠ [] ∧ load.result = .error (.invalid load.problems)

theorem isRefused_ofReading_iff (reading : Reading) :
    (ofReading reading).IsRefused ↔ reading.problems ≠ [] := by
  unfold IsRefused ofReading
  by_cases clean : reading.problems = []
  · simp [clean]
  · simp [clean]

theorem result_ofReading_eq_ok_iff (reading : Reading) (properties : Properties) :
    (ofReading reading).result = .ok properties ↔
      reading.problems = [] ∧ reading.properties = properties := by
  unfold ofReading
  by_cases clean : reading.problems = []
  · simp [clean]
  · simp [clean]

end Load

end PropertyToolkit.PropertyFile
