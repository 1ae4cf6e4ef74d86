import Mathlib.Data.List.Forall2

/-!
Computations that may fail. One that comes to a value came to a value at each of its steps, and a
traversal that fails does so at its first element that fails.
-/

set_option autoImplicit false

namespace PropertyToolkit

variable {α β ε : Type}

theorem bind_eq_ok_iff {first : Except ε α} {next : α → Except ε β} {y : β} :
    (first >>= next) = .ok y ↔ ∃ x, first = .ok x ∧ next x = .ok y := by
  cases first with
  | error fault => exact ⟨nofun, fun ⟨_, found, _⟩ => nomatch found⟩
  | ok x =>
    constructor
    · intro done
      exact ⟨x, rfl, done⟩
    · rintro ⟨_, ⟨⟩, done⟩
      exact done

theorem map_eq_ok_iff {f : α → β} {first : Except ε α} {y : β} :
    first.map f = .ok y ↔ ∃ x, first = .ok x ∧ f x = y := by
  cases first with
  | error fault => exact ⟨nofun, fun ⟨_, found, _⟩ => nomatch found⟩
  | ok x => simp only [Except.map, Except.ok.injEq, exists_eq_left']

theorem mapError_eq_ok_iff {δ : Type} {f : ε → δ} {first : Except ε α} {x : α} :
    first.mapError f = .ok x ↔ first = .ok x := by
  cases first with
  | error fault => exact ⟨nofun, nofun⟩
  | ok y => rw [Except.mapError, Except.ok.injEq, Except.ok.injEq]

variable {f : α → Except ε β}

theorem mapM_eq_ok_iff {xs : List α} {ys : List β} :
    xs.mapM f = .ok ys ↔ List.Forall₂ (fun x y => f x = .ok y) xs ys := by
  induction xs generalizing ys with
  | nil =>
    rw [List.forall₂_nil_left_iff, List.mapM_nil]
    exact (Except.ok.injEq _ _).to_iff.trans eq_comm
  | cons x xs ih =>
    rw [List.forall₂_cons_left_iff, List.mapM_cons, bind_eq_ok_iff]
    simp only [bind_eq_ok_iff, ih]
    constructor
    · rintro ⟨y, here, rest, later, ⟨⟩⟩
      exact ⟨y, rest, here, later, rfl⟩
    · rintro ⟨y, rest, here, later, rfl⟩
      exact ⟨y, here, rest, later, rfl⟩

/-- The fault of a traversal is the one of the first element that has one. -/
theorem mapM_eq_error_iff {xs : List α} {fault : ε} :
    xs.mapM f = .error fault ↔ ∃ before x after, xs = before ++ x :: after ∧
      (∀ earlier ∈ before, ∃ y, f earlier = .ok y) ∧ f x = .error fault := by
  induction xs with
  | nil => exact ⟨nofun, fun ⟨before, _, _, same, _⟩ => by cases before <;> cases same⟩
  | cons x xs ih =>
    rw [List.mapM_cons]
    constructor
    · intro failed
      cases here : f x with
      | error other =>
        rw [here] at failed
        cases failed
        exact ⟨[], x, xs, rfl, nofun, here⟩
      | ok y =>
        cases later : xs.mapM f with
        | error other =>
          rw [here, later] at failed
          cases failed
          obtain ⟨before, bad, after, rfl, fine, first⟩ := ih.1 later
          exact ⟨x :: before, bad, after, rfl, List.forall_mem_cons.2 ⟨⟨y, here⟩, fine⟩, first⟩
        | ok tail =>
          rw [here, later] at failed
          cases failed
    · rintro ⟨before, bad, after, same, fine, first⟩
      cases before with
      | nil =>
        cases same
        rw [first]
        rfl
      | cons earlier before =>
        cases same
        obtain ⟨⟨y, here⟩, fine⟩ := List.forall_mem_cons.1 fine
        rw [here, ih.2 ⟨before, bad, after, rfl, fine, first⟩]
        rfl

end PropertyToolkit
