import PropertyToolkit.Text.CodePoint

/-!
UTF-16. Each character has one unit or a pair of surrogates, and a text is told by its units.
-/

set_option autoImplicit false

namespace PropertyToolkit.Utf16

/-- The units of a character: its number, or a pair of surrogates. -/
def units (c : Char) : List (Fin 0x10000) :=
  if small : c.toNat < 0x10000 then [⟨c.toNat, small⟩]
  else
    have bound := (CodePoint.ofChar c).bounded
    [⟨0xD800 + (c.toNat - 0x10000) / 0x400, by simp only [CodePoint.ofChar_value] at bound; omega⟩,
      ⟨0xDC00 + (c.toNat - 0x10000) % 0x400, by omega⟩]

/-- The units of some characters, each as a code point. -/
def codePoints (s : List Char) : Text := s.flatMap fun c => (units c).map CodePoint.ofUnit

@[simp] theorem codePoints_cons (c : Char) (s : List Char) :
    codePoints (c :: s) = (units c).map CodePoint.ofUnit ++ codePoints s := List.flatMap_cons

theorem map_units_of_small {c : Char} (small : c.toNat < 0x10000) :
    (units c).map CodePoint.ofUnit = [(c : CodePoint)] := by
  rw [units, dif_pos small]
  rfl

theorem units_ne_nil (c : Char) : units c ≠ [] := by
  unfold units
  split <;> exact List.cons_ne_nil _ _

theorem isSurrogate_ofChar (c : Char) : CodePoint.isSurrogate c = false := by
  have valid : c.val.toNat < 0xD800 ∨ 0xDFFF < c.val.toNat ∧ c.val.toNat < 0x110000 := c.valid
  change (0xD800 ≤ c.val.toNat && c.val.toNat < 0xE000) = false
  rw [Bool.and_eq_false_iff, decide_eq_false_iff_not, decide_eq_false_iff_not]
  omega

/-- The number of a pair of surrogates. -/
def numberOfPair (high low : CodePoint) : Nat :=
  0x10000 + (high.value - 0xD800) * 0x400 + (low.value - 0xDC00)

theorem map_units_of_large {c : Char} (large : ¬c.toNat < 0x10000) :
    ∃ high low : CodePoint, (units c).map CodePoint.ofUnit = [high, low] ∧
      high.isSurrogate = true ∧ numberOfPair high low = c.toNat := by
  have bound : c.toNat < 0x110000 := (CodePoint.ofChar c).bounded
  rw [units, dif_neg large]
  refine ⟨_, _, rfl, ?_, ?_⟩
  · change (0xD800 ≤ 0xD800 + (c.toNat - 0x10000) / 0x400 &&
      0xD800 + (c.toNat - 0x10000) / 0x400 < 0xE000) = true
    rw [Bool.and_eq_true, decide_eq_true_eq, decide_eq_true_eq]
    omega
  · change 0x10000 + (0xD800 + (c.toNat - 0x10000) / 0x400 - 0xD800) * 0x400 +
      (0xDC00 + (c.toNat - 0x10000) % 0x400 - 0xDC00) = c.toNat
    omega

/-- The number at the start of some units, and the units after it. -/
def cutNumber : Text → Option (Nat × Text)
  | [] => none
  | c :: rest =>
    if c.isSurrogate then rest.head?.map fun d => (numberOfPair c d, rest.tail)
    else some (c.value, rest)

theorem cutNumber_units (c : Char) (rest : Text) :
    cutNumber ((units c).map CodePoint.ofUnit ++ rest) = some (c.toNat, rest) := by
  by_cases small : c.toNat < 0x10000
  · rw [map_units_of_small small, List.singleton_append, cutNumber, isSurrogate_ofChar]
    rfl
  · obtain ⟨high, low, pair, surrogate, number⟩ := map_units_of_large small
    rw [pair, List.cons_append, cutNumber, if_pos surrogate, ← number]
    rfl

/-- Different texts have different units. -/
theorem codePoints_injective {s t : List Char} (same : codePoints s = codePoints t) : s = t := by
  induction s generalizing t with
  | nil =>
    cases t with
    | nil => rfl
    | cons d t =>
      rw [codePoints_cons] at same
      have empty := List.append_eq_nil_iff.1 same.symm
      exact absurd (List.map_eq_nil_iff.1 empty.1) (units_ne_nil d)
  | cons c s ih =>
    cases t with
    | nil =>
      rw [codePoints_cons] at same
      have empty := List.append_eq_nil_iff.1 same
      exact absurd (List.map_eq_nil_iff.1 empty.1) (units_ne_nil c)
    | cons d t =>
      have cut := congrArg cutNumber same
      rw [codePoints_cons, codePoints_cons, cutNumber_units, cutNumber_units] at cut
      obtain ⟨first, rest⟩ := Prod.mk.inj (Option.some.inj cut)
      rw [Char.toNat_inj.1 first, ih rest]

/-- A text is its own units if none of its characters needs two. -/
theorem codePoints_eq_iff (s : List Char) :
    codePoints s = s.map CodePoint.ofChar ↔ ∀ c ∈ s, c.toNat < 0x10000 := by
  induction s with
  | nil => exact ⟨fun _ => nofun, fun _ => rfl⟩
  | cons c s ih =>
    rw [codePoints_cons, List.map_cons, List.forall_mem_cons, ← ih]
    by_cases small : c.toNat < 0x10000
    · rw [map_units_of_small small, List.singleton_append]
      exact ⟨fun same => ⟨small, (List.cons.inj same).2⟩, fun both => by rw [both.2]⟩
    · refine ⟨fun same => ?_, fun both => absurd both.1 small⟩
      obtain ⟨high, low, pair, surrogate, -⟩ := map_units_of_large small
      rw [pair, List.cons_append] at same
      rw [(List.cons.inj same).1, isSurrogate_ofChar] at surrogate
      cases surrogate

end PropertyToolkit.Utf16
