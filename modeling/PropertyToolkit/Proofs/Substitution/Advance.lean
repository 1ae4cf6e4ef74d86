import Mathlib.Data.List.Forall2
import PropertyToolkit.Proofs.Substitution.Runs

/-!
Values that are expanded in advance. Where a source answers a name with what its value expands to,
and not with the value itself, an expansion that succeeds still succeeds with the same text. It
takes a part of the same moves on a text with fewer names behind it, so no cycle is found that was
not there before.
-/

set_option autoImplicit false

namespace PropertyToolkit.Substitution

open Marked

namespace Marked

/-- The same text with no more names behind any of its code points. -/
def Fewer (fewer more : Marked) : Prop :=
  List.Forall₂ (fun entry other => entry.1 = other.1 ∧ entry.2 ⊆ other.2) fewer more

/-- These names are behind every code point. -/
def Bears (names : Finset Text) (m : Marked) : Prop := ∀ entry ∈ m, names ⊆ entry.2

namespace Fewer

variable {m fewer : Marked}

theorem refl (m : Marked) : Fewer m m := List.forall₂_same.2 fun _ _ => ⟨rfl, Finset.Subset.refl _⟩

theorem text_eq (h : Fewer fewer m) : fewer.text = m.text := by
  induction h with
  | nil => rfl
  | cons here _ ih => exact congrArg₂ List.cons here.1 ih

theorem origins_subset (h : Fewer fewer m) : fewer.origins ⊆ m.origins := by
  induction h with
  | nil => exact Finset.Subset.refl _
  | cons here _ ih => exact Finset.union_subset_union here.2 ih

theorem append {first second fewerFirst fewerSecond : Marked} (left : Fewer fewerFirst first)
    (right : Fewer fewerSecond second) : Fewer (fewerFirst ++ fewerSecond) (first ++ second) :=
  List.rel_append left right

theorem exists_append {first second : Marked} (h : Fewer fewer (first ++ second)) :
    ∃ left right : Marked, fewer = left ++ right ∧ Fewer left first ∧ Fewer right second :=
  ⟨fewer.take first.length, fewer.drop first.length, (List.take_append_drop _ _).symm,
    List.forall₂_take_append _ _ _ h, List.forall₂_drop_append _ _ _ h⟩

/-- A text that bears some names has no fewer than these. -/
theorem mark {names more : Finset Text} (bears : Bears more m) (sub : names ⊆ more) :
    Fewer (mark m.text names) m := by
  induction m with
  | nil => exact List.Forall₂.nil
  | cons entry rest ih =>
    obtain ⟨here, later⟩ := List.forall_mem_cons.1 bears
    exact List.Forall₂.cons ⟨rfl, sub.trans here⟩ (ih later)

end Fewer

theorem bears_append {names : Finset Text} {first second : Marked} :
    Bears names (first ++ second) ↔ Bears names first ∧ Bears names second :=
  List.forall_mem_append

theorem bears_mark (t : Text) (names : Finset Text) : Bears names (mark t names) := by
  intro entry mem
  obtain ⟨_, _, rfl⟩ := List.mem_map.1 mem
  exact Finset.Subset.refl names

theorem Bears.mono {names more : Finset Text} {m : Marked} (bears : Bears more m)
    (sub : names ⊆ more) : Bears names m := fun entry mem => sub.trans (bears entry mem)

theorem Bears.subset_origins {names : Finset Text} {m : Marked} (bears : Bears names m)
    (filled : m ≠ []) : names ⊆ m.origins := by
  obtain ⟨entry, rest, rfl⟩ := List.exists_cons_of_ne_nil filled
  exact (bears entry List.mem_cons_self).trans Finset.subset_union_left

end Marked

namespace Placeholder

/-- The placeholder of a text is the placeholder of every text that reads the same. -/
theorem exists_of_text_eq {m : Marked} {place : Placeholder} (same : m.text = place.whole.text) :
    ∃ other : Placeholder, other.whole = m ∧ other.name = place.name ∧
      other.before.text = place.before.text ∧ other.after.text = place.after.text := by
  have found := place.scan_whole
  rw [← same] at found
  obtain ⟨other, rfl⟩ := exists_of_scan found
  rw [other.scan_whole, Scan.placeholder.injEq] at found
  obtain ⟨left, named, right⟩ := found
  exact ⟨other, rfl, named, left, right⟩

theorem exists_of_fewer {fewer : Marked} {place : Placeholder} (h : Fewer fewer place.whole) :
    ∃ other : Placeholder, other.whole = fewer ∧ other.name = place.name ∧
      Fewer other.before place.before ∧ Fewer other.middle place.middle ∧
      Fewer other.after place.after := by
  obtain ⟨before, rest, rfl, left, restFewer⟩ := h.exists_append
  obtain ⟨middle, after, rfl, inner, right⟩ := restFewer.exists_append
  have unclosed : closer ∉ before.text := left.text_eq ▸ place.unclosed
  have spelled : middle.text = opening ++ (place.name ++ closing) :=
    inner.text_eq.trans place.spelled
  exact ⟨⟨before, middle, after, place.name, unclosed, place.innermost, spelled⟩, rfl, rfl,
    left, inner, right⟩

theorem bears_replacedBy {place : Placeholder} {names : Finset Text}
    (bears : Bears names place.whole) (value : Text) : Bears names (place.replacedBy value) := by
  obtain ⟨left, rest⟩ := bears_append.1 bears
  obtain ⟨inner, right⟩ := bears_append.1 rest
  have kept : names ⊆ insert place.name place.middle.origins :=
    (inner.subset_origins place.middle_ne_nil).trans (Finset.subset_insert _ _)
  exact bears_append.2 ⟨left, bears_append.2 ⟨(bears_mark value _).mono kept, right⟩⟩

theorem text_replacedBy (place : Placeholder) (value : Text) :
    (place.replacedBy value).text = place.before.text ++ (value ++ place.after.text) := by
  simp only [replacedBy, text_append, text_mark]

end Placeholder

namespace Marked

variable {look : Look} {busy : Names}

/-- A run that succeeds replaces the placeholder that it finds. -/
theorem Ends.of_whole_ok {place : Placeholder} {names : List Text} {t : Text}
    (run : Ends look busy place.whole names (.ok t)) :
    ∃ value rest, look place.name = .ok value ∧ names = place.name :: rest ∧
      Ends look busy (place.replacedBy value) rest (.ok t) := by
  rcases run.cases_ok with ⟨settled, -⟩ | ⟨name, next, rest, step, rfl, later⟩
  · rw [← scan_eq_settled_iff, place.scan_whole] at settled
    cases settled
  · rw [move_whole] at step
    split at step
    · cases step
    · split at step
      · cases step
      · next value found =>
        cases step
        exact ⟨value, rest, found, rfl, later⟩

/-- Moves that a text makes on its own it also makes in a run that succeeds, whatever stands around
it there. It keeps the names that it bears. -/
theorem Reaches.inside_of_ok {alone : Names} {m last : Marked} {passed : List Text}
    (run : Reaches look alone m passed last) {inner before after : Marked}
    (same : inner.text = m.text) (unclosed : closer ∉ before.text) {behind : Finset Text}
    (bears : Bears behind inner) {names : List Text} {t : Text}
    (ends : Ends look busy (before ++ (inner ++ after)) names (.ok t)) :
    ∃ (reached : Marked) (rest : List Text), reached.text = last.text ∧ Bears behind reached ∧
      Ends look busy (before ++ (reached ++ after)) rest (.ok t) ∧
      rest.length ≤ names.length := by
  induction run generalizing inner names with
  | refl => exact ⟨inner, names, same, bears, ends, Nat.le_refl _⟩
  | move step _ ih =>
    obtain ⟨place, value, rfl, rfl, -, -, found, rfl⟩ := exists_of_move_replaced look alone step
    obtain ⟨other, rfl, named, left, right⟩ := Placeholder.exists_of_text_eq same
    rw [← other.whole_within before after unclosed] at ends
    obtain ⟨again, rest, foundAgain, rfl, later⟩ := ends.of_whole_ok
    rw [other.replacedBy_within] at later
    have known : look place.name = .ok again := named ▸ foundAgain
    rw [found] at known
    obtain rfl := Except.ok.inj known
    have text : (other.replacedBy value).text = (place.replacedBy value).text := by
      rw [other.text_replacedBy, place.text_replacedBy, left, right]
    obtain ⟨reached, fewer, reads, bearsReached, endsReached, short⟩ :=
      ih text (Placeholder.bears_replacedBy bears value) later
    exact ⟨reached, fewer, reads, bearsReached, endsReached, Nat.le_succ_of_le short⟩

end Marked

/-- Every name has its value, or what its value expands to while the name is in progress. -/
def Advances (look later : Look) : Prop :=
  ∀ name, later name = look name ∨ ∃ value final passed, look name = .ok value ∧
    later name = .ok final ∧ Ends look [name] (mark value ∅) passed (.ok final)

/-- A run that succeeds comes to where the answer of a name stands for the placeholder, be it the
value of the name or what that expands to. -/
theorem Advances.exists_reached {look later : Look} (advances : Advances look later) {busy : Names}
    {place : Placeholder} {value : Text} (found : look place.name = .ok value)
    {names : List Text} {t : Text} (run : Ends look busy (place.replacedBy value) names (.ok t)) :
    ∃ (reached : Marked) (rest : List Text), later place.name = .ok reached.text ∧
      Bears (insert place.name place.middle.origins) reached ∧
      Ends look busy (place.before ++ (reached ++ place.after)) rest (.ok t) ∧
      rest.length ≤ names.length := by
  rcases advances place.name with same | ⟨again, final, passed, foundAgain, answered, alone⟩
  · refine ⟨mark value (insert place.name place.middle.origins), names, ?_, bears_mark _ _, run,
      Nat.le_refl _⟩
    rw [same, found, text_mark]
  · rw [found] at foundAgain
    obtain rfl := Except.ok.inj foundAgain
    obtain ⟨last, moves, ended⟩ := alone
    obtain ⟨-, rfl⟩ := settled_of_move_ok look [place.name] ended
    have alike : (mark value (insert place.name place.middle.origins)).text =
        (mark value ∅).text := by
      rw [text_mark, text_mark]
    obtain ⟨reached, rest, same, bears, ends, short⟩ :=
      moves.inside_of_ok alike place.unclosed (bears_mark value _) run
    exact ⟨reached, rest, same ▸ answered, bears, ends, short⟩

/-- Values that are expanded in advance do not change how a run succeeds. -/
theorem Advances.ends_ok {look later : Look} (advances : Advances look later) {busy : Names}
    {m fewer : Marked} {names : List Text} {t : Text} (run : Ends look busy m names (.ok t))
    (sub : Fewer fewer m) : ∃ passed, Ends later busy fewer passed (.ok t) := by
  -- One move may answer many, so the induction is on the length of the run.
  induction bound : names.length using Nat.strongRecOn generalizing m fewer names with
  | ind count shorter =>
    subst bound
    rcases run.cases_ok with ⟨settled, rfl, rfl⟩ | ⟨name, next, rest, step, rfl, run⟩
    · rw [← sub.text_eq] at settled ⊢
      exact ⟨[], .of_ended (move_settled later busy settled)⟩
    · obtain ⟨place, value, rfl, rfl, idle, fresh, found, rfl⟩ :=
        exists_of_move_replaced look busy step
      obtain ⟨reached, more, answered, bears, ends, short⟩ := advances.exists_reached found run
      obtain ⟨other, rfl, named, left, inner, right⟩ := Placeholder.exists_of_fewer sub
      rw [← named] at idle fresh answered bears
      have behind := Finset.insert_subset_insert other.name inner.origins_subset
      have smaller : Fewer (other.replacedBy reached.text)
          (place.before ++ (reached ++ place.after)) :=
        left.append ((Fewer.mark bears behind).append right)
      have freshOther : other.name ∉ other.middle.origins := fun mem =>
        fresh (inner.origins_subset mem)
      obtain ⟨passed, runOn⟩ := shorter _ (Nat.lt_succ_of_le short) ends smaller rfl
      exact ⟨_, (Reaches.single (move_whole_fresh idle freshOther answered)).ends runOn⟩

end PropertyToolkit.Substitution
