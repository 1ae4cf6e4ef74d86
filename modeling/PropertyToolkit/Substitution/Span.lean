import PropertyToolkit.Text.CodePoint

/-!
Text that remembers where it came from. A span is a stretch of text with the names whose values
produced it; a list of spans reads as one text in which every code point carries its span's names.
Splicing replaces a stretch of that text and leaves every other code point with its own names.
-/

set_option autoImplicit false

namespace PropertyToolkit.Substitution

/-- A finite set of names, written as a list. -/
abbrev Names := List Text

namespace Names

def union (a b : Names) : Names := a.foldr List.insert b

@[simp] theorem mem_union {a b : Names} {name : Text} :
    name ∈ union a b ↔ name ∈ a ∨ name ∈ b := by
  induction a with
  | nil => simp [union]
  | cons first rest ih =>
    have unfolded : union (first :: rest) b = (union rest b).insert first := rfl
    rw [unfolded, List.mem_insert_iff, ih, List.mem_cons, or_assoc]

end Names

structure Span where
  text : Text
  origins : Names
deriving DecidableEq

namespace Span

/-- The text that a list of spans reads as. -/
def joined (spans : List Span) : Text := spans.flatMap text

/-- The text of a list of spans, each code point with the names that produced it. -/
def tagged (spans : List Span) : List (CodePoint × Names) :=
  spans.flatMap fun span => span.text.map fun c => (c, span.origins)

/-- The spans of the first `n` code points. -/
def takeText : Nat → List Span → List Span
  | _, [] => []
  | n, span :: rest =>
    if span.text.length ≤ n then span :: takeText (n - span.text.length) rest
    else if n = 0 then []
    else [⟨span.text.take n, span.origins⟩]

/-- The spans of the text after the first `n` code points. -/
def dropText : Nat → List Span → List Span
  | _, [] => []
  | n, span :: rest =>
    if span.text.length ≤ n then dropText (n - span.text.length) rest
    else ⟨span.text.drop n, span.origins⟩ :: rest

/-- The names that had a part in the text from position `start` up to `stop`. -/
def originsBetween (spans : List Span) (start stop : Nat) : Names :=
  (dropText start (takeText stop spans)).foldr (fun span names => span.origins.union names) []

/-- Puts one span in the place of the text from `start` up to `stop`. An empty one leaves nothing
behind. -/
def splice (spans : List Span) (start stop : Nat) (replacement : Span) : List Span :=
  takeText start spans ++
    ((if replacement.text = [] then [] else [replacement]) ++ dropText stop spans)

@[simp] theorem joined_nil : joined [] = [] := rfl

@[simp] theorem joined_cons (span : Span) (rest : List Span) :
    joined (span :: rest) = span.text ++ joined rest := rfl

@[simp] theorem tagged_nil : tagged [] = [] := rfl

@[simp] theorem tagged_cons (span : Span) (rest : List Span) :
    tagged (span :: rest) = span.text.map (fun c => (c, span.origins)) ++ tagged rest := rfl

@[simp] theorem tagged_append (first second : List Span) :
    tagged (first ++ second) = tagged first ++ tagged second := List.flatMap_append ..

theorem map_fst_tagged (spans : List Span) : (tagged spans).map Prod.fst = joined spans := by
  induction spans with
  | nil => rfl
  | cons span rest ih => simp [ih, Function.comp_def]

@[simp] theorem length_tagged (spans : List Span) :
    (tagged spans).length = (joined spans).length := by
  rw [← map_fst_tagged, List.length_map]

theorem tagged_takeText (n : Nat) (spans : List Span) :
    tagged (takeText n spans) = (tagged spans).take n := by
  induction spans generalizing n with
  | nil => simp [takeText]
  | cons span rest ih =>
    have length : (span.text.map fun c => (c, span.origins)).length = span.text.length :=
      List.length_map _
    rw [tagged_cons, List.take_append, length]
    unfold takeText
    split
    · next covered =>
      rw [tagged_cons, ih, List.take_of_length_le (l := span.text.map _) (length ▸ covered)]
    · next short =>
      have none : n - span.text.length = 0 := by omega
      rw [none, List.take_zero, List.append_nil]
      split
      · next zero => simp [zero]
      · simp [List.map_take]

theorem tagged_dropText (n : Nat) (spans : List Span) :
    tagged (dropText n spans) = (tagged spans).drop n := by
  induction spans generalizing n with
  | nil => simp [dropText]
  | cons span rest ih =>
    have length : (span.text.map fun c => (c, span.origins)).length = span.text.length :=
      List.length_map _
    rw [tagged_cons, List.drop_append, length]
    unfold dropText
    split
    · next covered =>
      rw [ih, List.drop_of_length_le (l := span.text.map _) (length ▸ covered), List.nil_append]
    · next short =>
      have none : n - span.text.length = 0 := by omega
      rw [none, List.drop_zero, tagged_cons, List.map_drop]

/-- A splice touches the replaced stretch alone. -/
theorem tagged_splice (spans : List Span) (start stop : Nat) (replacement : Span) :
    tagged (splice spans start stop replacement) =
      (tagged spans).take start ++
        (replacement.text.map (fun c => (c, replacement.origins)) ++ (tagged spans).drop stop) := by
  unfold splice
  rw [tagged_append, tagged_append, tagged_takeText, tagged_dropText]
  split
  · next empty => simp [empty]
  · simp

/-- Every name behind a code point of the stretch is among the stretch's names. -/
theorem mem_originsBetween_of_tagged {spans : List Span} {start stop : Nat}
    {entry : CodePoint × Names}
    {name : Text} (inside : entry ∈ ((tagged spans).take stop).drop start) (mem : name ∈ entry.2) :
    name ∈ originsBetween spans start stop := by
  rw [← tagged_takeText, ← tagged_dropText] at inside
  unfold originsBetween
  generalize dropText start (takeText stop spans) = stretch at inside ⊢
  induction stretch with
  | nil => simp at inside
  | cons span rest ih =>
    rw [List.foldr_cons, Names.mem_union]
    rw [tagged_cons, List.mem_append] at inside
    rcases inside with here | later
    · obtain ⟨_, _, rfl⟩ := List.mem_map.1 here
      exact Or.inl mem
    · exact Or.inr (ih later)

end Span

end PropertyToolkit.Substitution
