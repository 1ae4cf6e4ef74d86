import Mathlib.Data.List.Infix
import PropertyToolkit.Text.Cut

/-!
Where a cut falls. A cut at the last occurrence of a needle leaves no occurrence after it, a cut at
the first occurrence of a code point leaves none before it, and both find every occurrence there is.
The first occurrence leaves the longest rest. A text falls into pieces at each mark, on both sides
of it alike, and the pieces can be put together again.
-/

set_option autoImplicit false

namespace PropertyToolkit.Text

theorem prefix_of_isPrefixOf?_ne_none {needle t : Text} (found : needle.isPrefixOf? t ≠ none) :
    needle <+: t := by
  obtain ⟨after, h⟩ := Option.ne_none_iff_exists'.1 found
  exact ⟨after, (isPrefixOf?_eq_some h).symm⟩

theorem isPrefixOf?_append (needle after : Text) :
    needle.isPrefixOf? (needle ++ after) = some after := by
  rw [List.isPrefixOf?_eq_some_iff_append_eq]

/-- A cut at the last occurrence fails only where there is none. -/
theorem cutLast?_eq_none_iff {needle : Text} (filled : needle ≠ []) (t : Text) :
    t.cutLast? needle = none ↔ ¬needle <:+: t := by
  induction t with
  | nil => simp [cutLast?, filled]
  | cons c rest ih =>
    rw [cutLast?, List.infix_cons_iff, not_or, ← ih]
    cases later : cutLast? rest needle with
    | some cut => simp
    | none =>
      simp only [Option.map_eq_none_iff, and_true]
      constructor
      · rintro absent ⟨after, same⟩
        rw [← same, isPrefixOf?_append] at absent
        cases absent
      · intro absent
        by_contra found
        exact absent (prefix_of_isPrefixOf?_ne_none found)

/-- The stretch after the last occurrence holds no other one. -/
theorem not_infix_of_cutLast? {needle t before after : Text} (filled : needle ≠ [])
    (h : t.cutLast? needle = some (before, after)) : ¬needle <:+: after := by
  induction t generalizing before with
  | nil => simp [cutLast?, filled] at h
  | cons c rest ih =>
    rw [cutLast?] at h
    split at h
    · next cut later =>
      simp only [Option.some.injEq, Prod.mk.injEq] at h
      exact ih (by rw [later, ← h.2])
    · next absent =>
      obtain ⟨tail, found, same⟩ := Option.map_eq_some_iff.1 h
      simp only [Prod.mk.injEq] at same
      obtain ⟨rfl, rfl⟩ := same
      -- The needle is not empty, so what follows it lies within the rest of the text.
      have suffix : tail <:+ rest := by
        obtain ⟨d, needle, rfl⟩ := List.exists_cons_of_ne_nil filled
        have split := isPrefixOf?_eq_some found
        rw [List.cons_append, List.cons.injEq] at split
        exact ⟨needle, split.2.symm⟩
      exact fun again => (cutLast?_eq_none_iff filled rest).1 absent (again.trans suffix.isInfix)

/-- A needle that cannot overlap itself is cut where nothing after it holds another one. -/
theorem cutLast?_append {d : CodePoint} {needle before after : Text}
    (last : ¬(d :: needle) <:+: needle ++ after) :
    (before ++ (d :: needle ++ after)).cutLast? (d :: needle) = some (before, after) := by
  have filled : d :: needle ≠ [] := List.cons_ne_nil d needle
  induction before with
  | nil =>
    rw [List.nil_append, List.cons_append, cutLast?, (cutLast?_eq_none_iff filled _).2 last,
      ← List.cons_append, isPrefixOf?_append]
    rfl
  | cons c rest ih => rw [List.cons_append, cutLast?, ih]

theorem cutLast?_singleton_append {c : CodePoint} {after : Text} (absent : c ∉ after)
    (before : Text) : (before ++ ([c] ++ after)).cutLast? [c] = some (before, after) :=
  cutLast?_append fun inside => absent ((List.singleton_infix_iff c after).1 inside)

theorem cutFirst?_singleton_eq_none_iff (c : CodePoint) (t : Text) :
    t.cutFirst? [c] = none ↔ c ∉ t := by
  induction t with
  | nil => simp [cutFirst?]
  | cons d rest ih =>
    rw [cutFirst?, List.mem_cons, not_or, ← ih]
    by_cases here : c = d
    · simp [isPrefixOf?_cons, isPrefixOf?_nil, here]
    · simp [isPrefixOf?_cons, here]

theorem cutFirst?_singleton_append {c : CodePoint} {before : Text} (absent : c ∉ before)
    (after : Text) : (before ++ ([c] ++ after)).cutFirst? [c] = some (before, after) := by
  induction before with
  | nil => simp [cutFirst?, isPrefixOf?_cons, isPrefixOf?_nil]
  | cons d rest ih =>
    rw [List.mem_cons, not_or] at absent
    rw [List.cons_append, cutFirst?, ih absent.2]
    simp [isPrefixOf?_cons, absent.1]

theorem not_mem_of_cutFirst?_singleton {c : CodePoint} {t before after : Text}
    (h : t.cutFirst? [c] = some (before, after)) : c ∉ before := by
  induction t generalizing before with
  | nil => simp [cutFirst?] at h
  | cons d rest ih =>
    rw [cutFirst?] at h
    by_cases here : c = d
    · simp only [isPrefixOf?_cons, isPrefixOf?_nil, here, ↓reduceIte, Option.some.injEq,
        Prod.mk.injEq] at h
      rw [← h.1]
      exact List.not_mem_nil
    · simp only [isPrefixOf?_cons, here, ↓reduceIte, Option.map_eq_some_iff] at h
      obtain ⟨cut, found, same⟩ := h
      simp only [Prod.mk.injEq] at same
      rw [← same.1, List.mem_cons, not_or]
      exact ⟨here, ih (by rw [found, ← same.2])⟩

/-- The cut at the first occurrence of a needle leaves at least as much after it as any other
occurrence does. -/
theorem exists_cutFirst?_of_append (before needle after : Text) :
    ∃ first rest, (before ++ (needle ++ after)).cutFirst? needle = some (first, rest) ∧
      after <:+ rest := by
  induction before with
  | nil =>
    cases whole : needle ++ after with
    | nil =>
      obtain ⟨rfl, rfl⟩ := List.append_eq_nil_iff.1 whole
      exact ⟨[], [], rfl, List.suffix_refl []⟩
    | cons c t =>
      refine ⟨[], after, ?_, List.suffix_refl after⟩
      rw [List.nil_append, cutFirst?, ← whole, isPrefixOf?_append]
  | cons c before ih =>
    obtain ⟨first, rest, cut, longest⟩ := ih
    rw [List.cons_append, cutFirst?]
    cases here : needle.isPrefixOf? (c :: (before ++ (needle ++ after))) with
    | some tail =>
      refine ⟨[], tail, rfl, ?_⟩
      -- Both ends belong to one text, and the needle that is found stands further to the front.
      have split := isPrefixOf?_eq_some here
      have inner : after <:+ c :: (before ++ (needle ++ after)) :=
        ⟨c :: (before ++ needle), by simp only [List.cons_append, List.append_assoc]⟩
      have outer : tail <:+ c :: (before ++ (needle ++ after)) := ⟨needle, split.symm⟩
      have lengths := congrArg List.length split
      simp only [List.length_cons, List.length_append] at lengths
      exact List.suffix_of_suffix_length_le inner outer (by omega)
    | none => exact ⟨c :: first, rest, by rw [cut]; rfl, longest⟩

/-- A cut at the first occurrence fails only where there is none. -/
theorem cutFirst?_eq_none_iff (needle t : Text) : t.cutFirst? needle = none ↔ ¬needle <:+: t := by
  constructor
  · rintro absent ⟨before, after, rfl⟩
    obtain ⟨first, rest, found, -⟩ := exists_cutFirst?_of_append before needle after
    rw [← List.append_assoc, absent] at found
    cases found
  · intro absent
    by_contra found
    obtain ⟨⟨before, after⟩, cut⟩ := Option.ne_none_iff_exists'.1 found
    apply absent
    rw [eq_of_cutFirst? cut]
    exact ⟨before, after, List.append_assoc _ _ _⟩

/-- There is nothing to trim where no code point is of the class. -/
theorem trim_of_none {t : Text} {drop : CodePoint → Bool} (none : ∀ c ∈ t, drop c = false) :
    t.trim drop = t := by
  have kept (s : Text) (sub : ∀ c ∈ s, c ∈ t) : s.dropWhile drop = s := by
    cases s with
    | nil => rfl
    | cons c rest =>
      have stays : drop c = false := none c (sub c (List.mem_cons_self ..))
      exact List.dropWhile_cons_of_neg (by rw [stays]; exact Bool.false_ne_true)
  rw [trim, trimStart, kept t fun _ mem => mem, trimEnd,
    kept t.reverse fun _ mem => List.mem_reverse.1 mem, List.reverse_reverse]

theorem splitOn_ne_nil (t : Text) (mark : CodePoint) : splitOn t mark ≠ [] := by
  cases t with
  | nil => exact List.cons_ne_nil _ _
  | cons c rest =>
    rw [splitOn]
    split
    · exact List.cons_ne_nil _ _
    · split <;> exact List.cons_ne_nil _ _

theorem splitOn_cons_mark (mark : CodePoint) (rest : Text) :
    splitOn (mark :: rest) mark = [] :: splitOn rest mark := by
  rw [splitOn, if_pos rfl]

/-- A code point that is not the mark belongs to the first piece. -/
theorem splitOn_cons_of_ne {c mark : CodePoint} (other : c ≠ mark) {rest piece : Text}
    {pieces : List Text} (split : splitOn rest mark = piece :: pieces) :
    splitOn (c :: rest) mark = (c :: piece) :: pieces := by
  rw [splitOn, if_neg other, split]

theorem splitOn_of_not_mem {mark : CodePoint} {t : Text} (absent : mark ∉ t) :
    splitOn t mark = [t] := by
  induction t with
  | nil => rfl
  | cons c rest ih =>
    rw [List.mem_cons, not_or] at absent
    exact splitOn_cons_of_ne (Ne.symm absent.1) (ih absent.2)

/-- The pieces of a text that goes on after a mark are the pieces before it and those after it. -/
theorem splitOn_append_cons (t : Text) (mark : CodePoint) (rest : Text) :
    splitOn (t ++ mark :: rest) mark = splitOn t mark ++ splitOn rest mark := by
  induction t with
  | nil => exact splitOn_cons_mark mark rest
  | cons c t ih =>
    by_cases marked : c = mark
    · rw [marked, List.cons_append, splitOn_cons_mark, splitOn_cons_mark, ih, List.cons_append]
    · obtain ⟨piece, pieces, split⟩ := List.exists_cons_of_ne_nil (splitOn_ne_nil t mark)
      rw [split, List.cons_append] at ih
      rw [List.cons_append, splitOn_cons_of_ne marked ih, splitOn_cons_of_ne marked split,
        List.cons_append]

/-- Cutting at a mark is the library's cut of a list. -/
theorem splitOn_eq_list_splitOn (t : Text) (mark : CodePoint) :
    splitOn t mark = List.splitOn mark t := by
  induction t with
  | nil => rfl
  | cons c rest ih =>
    rw [List.splitOn_cons_eq_if_modifyHead, ← ih]
    by_cases marked : c = mark
    · rw [marked, splitOn_cons_mark, if_pos (beq_self_eq_true mark)]
    · obtain ⟨piece, pieces, split⟩ := List.exists_cons_of_ne_nil (splitOn_ne_nil rest mark)
      rw [splitOn_cons_of_ne marked split, split, if_neg fun same => marked (eq_of_beq same)]
      rfl

/-- One more piece stands at the end, after one more separator. -/
theorem intercalate_concat (separator : Text) {pieces : List Text} (filled : pieces ≠ [])
    (piece : Text) :
    separator.intercalate (pieces ++ [piece]) =
      separator.intercalate pieces ++ (separator ++ piece) := by
  induction pieces with
  | nil => exact absurd rfl filled
  | cons first rest ih =>
    cases rest with
    | nil => simp [List.intercalate_cons_cons]
    | cons second rest =>
      have more := ih (List.cons_ne_nil second rest)
      rw [List.cons_append, List.cons_append, List.intercalate_cons_cons, ← List.cons_append, more,
        List.intercalate_cons_cons]
      simp only [List.append_assoc]

/-- What is added to the last piece is added to the whole. -/
theorem intercalate_concat_append (separator : Text) (pieces : List Text) (piece more : Text) :
    separator.intercalate (pieces ++ [piece ++ more]) =
      separator.intercalate (pieces ++ [piece]) ++ more := by
  cases pieces with
  | nil => simp
  | cons first rest =>
    rw [intercalate_concat separator (List.cons_ne_nil first rest),
      intercalate_concat separator (List.cons_ne_nil first rest)]
    simp only [List.append_assoc]

/-- Two code points that stand next to each other in a longer text are its last two or stood so
before. -/
theorem pair_infix_concat_iff {a b c : CodePoint} {t : Text} :
    [a, b] <:+: t ++ [c] ↔ (t.getLast? = some a ∧ b = c) ∨ [a, b] <:+: t := by
  rw [List.infix_concat_iff, List.suffix_concat_iff, ← List.singleton_suffix_iff_getLast?_eq_some]
  refine or_congr_left ⟨?_, ?_⟩
  · rintro (empty | ⟨front, same, suffix⟩)
    · cases empty
    · have same : [a] ++ [b] = front ++ [c] := same
      obtain ⟨rfl, last⟩ := List.append_inj' same rfl
      exact ⟨suffix, List.singleton_inj.1 last⟩
  · rintro ⟨suffix, rfl⟩
    exact .inr ⟨[a], rfl, suffix⟩

end PropertyToolkit.Text
