import PropertyToolkit.Text.CodePoint

/-!
Cutting a text at an occurrence of a smaller one. A cut returns what stands before and after the
occurrence, and putting the three together gives the text back.
-/

set_option autoImplicit false

namespace PropertyToolkit.Text

/-- The text before and after the first occurrence of `needle`. -/
def cutFirst? : (t needle : Text) → Option (Text × Text)
  | [], needle => if needle = [] then some ([], []) else none
  | c :: rest, needle =>
    match needle.isPrefixOf? (c :: rest) with
    | some after => some ([], after)
    | none => (cutFirst? rest needle).map fun cut => (c :: cut.1, cut.2)

/-- The text before and after the last occurrence of `needle`. -/
def cutLast? : (t needle : Text) → Option (Text × Text)
  | [], needle => if needle = [] then some ([], []) else none
  | c :: rest, needle =>
    match cutLast? rest needle with
    | some cut => some (c :: cut.1, cut.2)
    | none => (needle.isPrefixOf? (c :: rest)).map fun after => ([], after)

/-- The pieces between the occurrences of one code point: always one more than there are. -/
def splitOn : Text → CodePoint → List Text
  | [], _ => [[]]
  | c :: rest, mark =>
    if c = mark then [] :: splitOn rest mark
    else
      match splitOn rest mark with
      | [] => [[c]]
      | piece :: pieces => (c :: piece) :: pieces

/-- Drops the leading code points of a class. -/
def trimStart (t : Text) (drop : CodePoint → Bool) : Text := t.dropWhile drop

/-- Drops the trailing code points of a class. -/
def trimEnd (t : Text) (drop : CodePoint → Bool) : Text := (t.reverse.dropWhile drop).reverse

/-- Drops the code points of a class at both ends. -/
def trim (t : Text) (drop : CodePoint → Bool) : Text := (t.trimStart drop).trimEnd drop

/-- The order of texts: by the first code point in which they differ, a beginning first. -/
def le : Text → Text → Bool
  | [], _ => true
  | _ :: _, [] => false
  | c :: s, d :: t => c.value < d.value || (c = d && le s t)

/-- Sorted by code point. -/
def sorted (texts : List Text) : List Text := texts.mergeSort le

theorem isPrefixOf?_nil (t : Text) : List.isPrefixOf? [] t = some t := rfl

theorem isPrefixOf?_cons (c d : CodePoint) (needle t : Text) :
    (c :: needle).isPrefixOf? (d :: t) = if c = d then needle.isPrefixOf? t else none := by
  by_cases same : c = d
  · rw [if_pos same, same]
    show (if (d == d) = true then _ else _) = _
    rw [if_pos (beq_self_eq_true d)]
  · rw [if_neg same]
    show (if (c == d) = true then _ else _) = _
    rw [if_neg (fun equal => same (eq_of_beq equal))]

theorem isPrefixOf?_eq_some {needle t after : Text} (h : needle.isPrefixOf? t = some after) :
    t = needle ++ after := by
  induction needle generalizing t with
  | nil =>
    rw [isPrefixOf?_nil] at h
    exact Option.some.inj h
  | cons c needle ih =>
    cases t with
    | nil => cases h
    | cons d t =>
      rw [isPrefixOf?_cons, Option.ite_none_right_eq_some] at h
      rw [h.1, ih h.2, List.cons_append]

theorem eq_of_cutFirst? {needle t before after : Text}
    (h : t.cutFirst? needle = some (before, after)) : t = before ++ (needle ++ after) := by
  induction t generalizing before with
  | nil =>
    simp only [cutFirst?, Option.ite_none_right_eq_some, Option.some.injEq, Prod.mk.injEq] at h
    obtain ⟨rfl, rfl, rfl⟩ := h
    rfl
  | cons c rest ih =>
    rw [cutFirst?] at h
    split at h
    · next tail cut =>
      simp only [Option.some.injEq, Prod.mk.injEq] at h
      obtain ⟨rfl, rfl⟩ := h
      rw [List.nil_append]
      exact isPrefixOf?_eq_some cut
    · obtain ⟨cut, found, same⟩ := Option.map_eq_some_iff.1 h
      simp only [Prod.mk.injEq] at same
      rw [← same.1, List.cons_append, ← @ih cut.1 (by rw [found, ← same.2])]

theorem eq_of_cutLast? {needle t before after : Text}
    (h : t.cutLast? needle = some (before, after)) : t = before ++ (needle ++ after) := by
  induction t generalizing before with
  | nil =>
    simp only [cutLast?, Option.ite_none_right_eq_some, Option.some.injEq, Prod.mk.injEq] at h
    obtain ⟨rfl, rfl, rfl⟩ := h
    rfl
  | cons c rest ih =>
    rw [cutLast?] at h
    split at h
    · next cut found =>
      simp only [Option.some.injEq, Prod.mk.injEq] at h
      rw [← h.1, List.cons_append, ← @ih cut.1 (by rw [found, ← h.2])]
    · obtain ⟨tail, found, same⟩ := Option.map_eq_some_iff.1 h
      simp only [Prod.mk.injEq] at same
      obtain ⟨rfl, rfl⟩ := same
      rw [List.nil_append]
      exact isPrefixOf?_eq_some found

end PropertyToolkit.Text
