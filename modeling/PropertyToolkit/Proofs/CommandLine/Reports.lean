import PropertyToolkit.CommandLine.Run

/-!
What a request to expand properties is reported as. A request that fails prints nothing, and its
fault alone tells how the run ends.
-/

set_option autoImplicit false

namespace PropertyToolkit.CommandLine

namespace SubstFault

theorem report_load {fault : PropertyFile.LoadFault}
    (other : ∀ problems, fault ≠ .invalid problems) :
    report (.load fault) =
      match fault.message? with
      | some message => ⟨[invalid message], [], .ok 2⟩
      | none => ⟨[], [], .error (.load fault)⟩ := by
  cases fault with
  | invalid problems => exact absurd rfl (other problems)
  | _ => rfl

theorem pieces_report (fault : SubstFault) : fault.report.pieces = [] := by
  cases fault with
  | noFile path => rfl
  | unreachable fault path => rfl
  | override fault => rfl
  | expansion fault => cases fault <;> rfl
  | load fault =>
    by_cases listed : ∃ problems, fault = .invalid problems
    · obtain ⟨problems, rfl⟩ := listed
      rfl
    · rw [report_load fun problems same => listed ⟨problems, same⟩]
      split
      · rfl
      · rfl

end SubstFault

theorem SubstRequest.run_of_error {files : Files} {environment : Environment}
    {request : SubstRequest} {fault : SubstFault}
    (failed : (request.lines files environment).result = .error fault) :
    (request.run files environment).pieces = [] ∧
      (request.run files environment).ending = fault.report.ending := by
  simp only [run, failed, SubstFault.pieces_report, and_self]

theorem run_subst {world : World} {words : List Text} {settings : Settings}
    {request : SubstRequest} (asks : Request.read words = .ok ⟨settings, some (.subst request)⟩) :
    run world words = (request.run world.files world.environment).outcome settings.level := by
  simp only [run, asks]
  rfl

end PropertyToolkit.CommandLine
