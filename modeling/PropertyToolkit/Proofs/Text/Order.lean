import PropertyToolkit.Text.Cut

/-!
The order of texts. It is total, so some texts are sorted in one way only, whatever order they come
in.
-/

set_option autoImplicit false

namespace PropertyToolkit.Text

theorem le_total (s t : Text) : (le s t || le t s) = true := by
  induction s generalizing t with
  | nil => rfl
  | cons c s ih =>
    cases t with
    | nil => rfl
    | cons d t =>
      have rest := ih t
      rw [Bool.or_eq_true] at rest ⊢
      simp only [le, Bool.or_eq_true, Bool.and_eq_true, decide_eq_true_eq]
      rcases Nat.lt_trichotomy c.value d.value with less | same | more
      · exact .inl (.inl less)
      · have same : c = d := CodePoint.ext same
        exact rest.imp (fun le => .inr ⟨same, le⟩) fun le => .inr ⟨same.symm, le⟩
      · exact .inr (.inl more)

theorem le_trans {s t u : Text} (first : le s t = true) (second : le t u = true) :
    le s u = true := by
  induction s generalizing t u with
  | nil => rfl
  | cons c s ih =>
    cases t with
    | nil => cases first
    | cons d t =>
      cases u with
      | nil => cases second
      | cons e u =>
        simp only [le, Bool.or_eq_true, Bool.and_eq_true, decide_eq_true_eq] at first second ⊢
        rcases first with less | ⟨rfl, first⟩
        · rcases second with more | ⟨rfl, -⟩
          · exact .inl (Nat.lt_trans less more)
          · exact .inl less
        · rcases second with more | ⟨rfl, second⟩
          · exact .inl more
          · exact .inr ⟨rfl, ih first second⟩

theorem le_antisymm {s t : Text} (first : le s t = true) (second : le t s = true) : s = t := by
  induction s generalizing t with
  | nil =>
    cases t with
    | nil => rfl
    | cons d t => cases second
  | cons c s ih =>
    cases t with
    | nil => cases first
    | cons d t =>
      simp only [le, Bool.or_eq_true, Bool.and_eq_true, decide_eq_true_eq] at first second
      rcases first with less | ⟨rfl, first⟩
      · rcases second with more | ⟨rfl, -⟩
        · exact absurd more (Nat.lt_asymm less)
        · exact absurd less (Nat.lt_irrefl _)
      · rcases second with more | ⟨-, second⟩
        · exact absurd more (Nat.lt_irrefl _)
        · rw [ih first second]

theorem perm_sorted (texts : List Text) : (sorted texts).Perm texts := List.mergeSort_perm ..

theorem pairwise_sorted (texts : List Text) : (sorted texts).Pairwise fun s t => le s t = true :=
  List.pairwise_mergeSort (fun s t u => @le_trans s t u) le_total texts

/-- Texts have one order in which they are sorted. -/
theorem sorted_congr {texts others : List Text} (same : texts.Perm others) :
    sorted texts = sorted others := by
  have perm : (sorted texts).Perm (sorted others) :=
    (perm_sorted texts).trans (same.trans (perm_sorted others).symm)
  exact perm.eq_of_pairwise (fun _ _ _ _ => le_antisymm) (pairwise_sorted texts)
    (pairwise_sorted others)

end PropertyToolkit.Text
