import Mathlib.Data.Finset.Lattice.Lemmas
import PropertyToolkit.Proofs.Substitution.Scan
import PropertyToolkit.Substitution.Expand

/-!
Expansion as moves on a marked text, in which every code point carries the set of names that had a
part in producing it. How the text is cut into spans is forgotten. A move looks for the innermost
placeholder; where that stands is a value of its own, which may be moved into wider surroundings.
-/

set_option autoImplicit false

namespace PropertyToolkit.Substitution

abbrev Marked := List (CodePoint × Finset Text)

/-- The value of a name, as one fixed pair of sources gives it. -/
abbrev Look := Text → Except Refusal Text

namespace Marked

def text (m : Marked) : Text := m.map Prod.fst

/-- The names behind any code point of a text. -/
def origins (m : Marked) : Finset Text := m.foldr (fun entry names => entry.2 ∪ names) ∅

/-- A text with the same names behind each of its code points. -/
def mark (t : Text) (names : Finset Text) : Marked := t.map fun c => (c, names)

@[simp] theorem text_nil : text [] = [] := rfl

@[simp] theorem text_append (first second : Marked) :
    text (first ++ second) = text first ++ text second := List.map_append

@[simp] theorem length_text (m : Marked) : (text m).length = m.length := List.length_map _

@[simp] theorem text_mark (t : Text) (names : Finset Text) : text (mark t names) = t := by
  simp [text, mark, Function.comp_def]

@[simp] theorem mark_nil (names : Finset Text) : mark [] names = [] := rfl

@[simp] theorem mark_append (s t : Text) (names : Finset Text) :
    mark (s ++ t) names = mark s names ++ mark t names := List.map_append

@[simp] theorem origins_nil : origins [] = ∅ := rfl

@[simp] theorem origins_cons (entry : CodePoint × Finset Text) (rest : Marked) :
    origins (entry :: rest) = entry.2 ∪ origins rest := rfl

@[simp] theorem origins_append (first second : Marked) :
    origins (first ++ second) = origins first ∪ origins second := by
  induction first with
  | nil => simp
  | cons entry rest ih => rw [List.cons_append, origins_cons, ih, origins_cons, Finset.union_assoc]

theorem origins_mark (t : Text) (names : Finset Text) :
    origins (mark t names) = if t = [] then ∅ else names := by
  induction t with
  | nil => rfl
  | cons c rest ih =>
    have unfolded : mark (c :: rest) names = (c, names) :: mark rest names := rfl
    rw [unfolded, origins_cons, ih, if_neg (List.cons_ne_nil c rest)]
    split
    · exact Finset.union_empty names
    · exact Finset.union_self names

/-- A text that splits splits with its marks. -/
theorem exists_append_of_text {m : Marked} {s t : Text} (h : text m = s ++ t) :
    ∃ first second : Marked, m = first ++ second ∧ text first = s ∧ text second = t :=
  List.map_eq_append_iff.1 h

end Marked

open Marked

/-- The innermost placeholder of a marked text, with what stands around it. -/
structure Placeholder where
  before : Marked
  middle : Marked
  after : Marked
  name : Text
  unclosed : closer ∉ before.text
  innermost : Innermost name
  spelled : middle.text = opening ++ (name ++ closing)

namespace Placeholder

def whole (place : Placeholder) : Marked := place.before ++ (place.middle ++ place.after)

/-- The text after the placeholder has given way to a value. -/
def replacedBy (place : Placeholder) (value : Text) : Marked :=
  place.before ++ (mark value (insert place.name place.middle.origins) ++ place.after)

/-- The same placeholder in wider surroundings. -/
def within (place : Placeholder) (left right : Marked) (unclosed : closer ∉ left.text) :
    Placeholder :=
  { place with
    before := left ++ place.before
    after := place.after ++ right
    unclosed := by
      rw [text_append, List.mem_append, not_or]
      exact ⟨unclosed, place.unclosed⟩ }

theorem whole_within (place : Placeholder) (left right : Marked)
    (unclosed : closer ∉ left.text) :
    (place.within left right unclosed).whole = left ++ (place.whole ++ right) := by
  simp only [whole, within, List.append_assoc]

theorem replacedBy_within (place : Placeholder) (left right : Marked)
    (unclosed : closer ∉ left.text) (value : Text) :
    (place.within left right unclosed).replacedBy value =
      left ++ (place.replacedBy value ++ right) := by
  simp only [replacedBy, within, List.append_assoc]

theorem text_whole (place : Placeholder) :
    place.whole.text =
      place.before.text ++ (opening ++ (place.name ++ (closing ++ place.after.text))) := by
  simp only [whole, text_append, place.spelled, List.append_assoc]

theorem scan_whole (place : Placeholder) :
    scan place.whole.text = .placeholder place.before.text place.name place.after.text := by
  rw [text_whole]
  exact scan_eq_placeholder place.unclosed place.innermost _

theorem length_middle (place : Placeholder) :
    place.middle.length = opening.length + place.name.length + closing.length := by
  rw [← length_text, place.spelled]
  simp only [List.length_append, Nat.add_assoc]

theorem middle_ne_nil (place : Placeholder) : place.middle ≠ [] := by
  intro empty
  have length := place.length_middle
  rw [empty, List.length_nil] at length
  have positive : 0 < opening.length := by decide
  omega

/-- A placeholder that a scan finds has its marks. -/
theorem exists_of_scan {m : Marked} {before name after : Text}
    (h : scan m.text = .placeholder before name after) :
    ∃ place : Placeholder, place.whole = m := by
  obtain ⟨unclosed, innermost⟩ := innermost_of_scan h
  have spelled := eq_of_scan h
  obtain ⟨left, rest, rfl, rfl, tail⟩ := exists_append_of_text spelled
  have regrouped : rest.text = (opening ++ (name ++ closing)) ++ after := by
    rw [tail]
    simp only [List.append_assoc]
  obtain ⟨middle, right, rfl, spelled, -⟩ := exists_append_of_text regrouped
  exact ⟨⟨left, middle, right, name, unclosed, innermost, spelled⟩, rfl⟩

end Placeholder

/-- What a move makes of a marked text. -/
inductive Move where
  | ended (result : Except Fault Text)
  | replaced (name : Text) (next : Marked)

namespace Marked

variable (look : Look) (busy : Names)

/-- One move while the names of `busy` are in progress. -/
def move (m : Marked) : Move :=
  match scan m.text with
  | .settled => .ended (.ok m.text)
  | .unopened => .ended (.error (.unmatched m.text))
  | .placeholder before name _ =>
    let start := before.length
    let stop := start + (opening.length + name.length + closing.length)
    let names := origins ((m.take stop).drop start)
    if name ∈ busy ∨ name ∈ names then .ended (.error (.cyclic name))
    else
      match look name with
      | .error refusal => .ended (.error (.refused refusal))
      | .ok value =>
        .replaced name (m.take start ++ (mark value (insert name names) ++ m.drop stop))

theorem move_settled {m : Marked} (settled : closer ∉ m.text) :
    move look busy m = .ended (.ok m.text) := by
  simp only [move, (scan_eq_settled_iff m.text).2 settled]

theorem take_drop_whole (place : Placeholder) :
    (place.whole.take (place.before.length + place.middle.length)).drop place.before.length =
      place.middle := by
  rw [Placeholder.whole, ← List.append_assoc, ← List.length_append, List.take_left,
    List.drop_left]

theorem drop_whole (place : Placeholder) :
    place.whole.drop (place.before.length + place.middle.length) = place.after := by
  rw [Placeholder.whole, ← List.append_assoc, ← List.length_append, List.drop_left]

theorem move_whole (place : Placeholder) :
    move look busy place.whole =
      if place.name ∈ busy ∨ place.name ∈ place.middle.origins then
        .ended (.error (.cyclic place.name))
      else
        match look place.name with
        | .error refusal => .ended (.error (.refused refusal))
        | .ok value => .replaced place.name (place.replacedBy value) := by
  unfold move
  simp only [place.scan_whole, length_text, ← place.length_middle, take_drop_whole, drop_whole]
  have start : place.whole.take place.before.length = place.before := List.take_left
  rw [start]
  rfl

/-- All that a move can be. -/
theorem move_cases (m : Marked) :
    (closer ∉ m.text ∧ move look busy m = .ended (.ok m.text)) ∨
      move look busy m = .ended (.error (.unmatched m.text)) ∨
      ∃ place : Placeholder, place.whole = m := by
  cases found : scan m.text with
  | settled =>
    have settled := (scan_eq_settled_iff m.text).1 found
    exact Or.inl ⟨settled, move_settled look busy settled⟩
  | unopened => exact Or.inr (Or.inl (by simp only [move, found]))
  | placeholder before name after => exact Or.inr (Or.inr (Placeholder.exists_of_scan found))

/-- A move that replaces a placeholder replaces a fresh one by its value. -/
theorem exists_of_move_replaced {m next : Marked} {name : Text}
    (h : move look busy m = .replaced name next) :
    ∃ (place : Placeholder) (value : Text), place.whole = m ∧ place.name = name ∧
      name ∉ busy ∧ name ∉ place.middle.origins ∧ look name = .ok value ∧
      next = place.replacedBy value := by
  rcases move_cases look busy m with ⟨-, ended⟩ | ended | ⟨place, rfl⟩
  · rw [ended] at h
    cases h
  · rw [ended] at h
    cases h
  · rw [move_whole] at h
    split at h
    · cases h
    · next fresh =>
      split at h
      · cases h
      · next value found =>
        cases h
        rw [not_or] at fresh
        exact ⟨place, value, rfl, rfl, fresh.1, fresh.2, found, rfl⟩

theorem move_whole_fresh {look : Look} {busy : Names} {place : Placeholder} {value : Text}
    (idle : place.name ∉ busy) (fresh : place.name ∉ place.middle.origins)
    (found : look place.name = .ok value) :
    move look busy place.whole = .replaced place.name (place.replacedBy value) := by
  rw [move_whole, if_neg (not_or.2 ⟨idle, fresh⟩), found]

theorem move_whole_cyclic {busy : Names} (place : Placeholder)
    (known : place.name ∈ busy ∨ place.name ∈ place.middle.origins) :
    move look busy place.whole = .ended (.error (.cyclic place.name)) := by
  rw [move_whole, if_pos known]

theorem move_whole_refused {look : Look} {busy : Names} (place : Placeholder)
    {refusal : Refusal} (fresh : ¬(place.name ∈ busy ∨ place.name ∈ place.middle.origins))
    (refused : look place.name = .error refusal) :
    move look busy place.whole = .ended (.error (.refused refusal)) := by
  rw [move_whole, if_neg fresh, refused]

theorem settled_of_move_ok {m : Marked} {t : Text} (h : move look busy m = .ended (.ok t)) :
    closer ∉ m.text ∧ m.text = t := by
  rcases move_cases look busy m with ⟨settled, ended⟩ | ended | ⟨place, rfl⟩
  · rw [ended] at h
    cases h
    exact ⟨settled, rfl⟩
  · rw [ended] at h
    cases h
  · rw [move_whole] at h
    split at h
    · cases h
    · split at h <;> cases h

end Marked

end PropertyToolkit.Substitution
