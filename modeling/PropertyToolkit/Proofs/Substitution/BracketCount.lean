import Mathlib.Data.List.Chain
import PropertyToolkit.Proofs.Substitution.Advance
import PropertyToolkit.Proofs.Substitution.Concatenation

/-!
Counting brackets. Where every dollar sign opens a placeholder and the values have no brackets of
their own, each move takes one opening and one closing brace out of the text. So the counts of the
text alone show whether a closing brace stays unmatched and how many openings are left at the end.
-/

set_option autoImplicit false

namespace PropertyToolkit.Substitution

open Marked

/-- How many placeholders a text opens. -/
def opens (t : Text) : Nat := t.tails.countP (opening.isPrefixOf ·)

/-- How many placeholders a text closes. -/
def closes (t : Text) : Nat := t.count closer

/-- No beginning of a text closes more placeholders than it opens. -/
def Covered (t : Text) : Prop := ∀ beginning, beginning <+: t → closes beginning ≤ opens beginning

instance (t : Text) : Decidable (Covered t) :=
  decidable_of_iff (∀ beginning ∈ t.inits, closes beginning ≤ opens beginning) <| by
    simp only [List.mem_inits, Covered]

/-- A text ends with the first half of an opening. -/
def HalfOpen (t : Text) : Prop := t.getLast? = some (CodePoint.ofChar '$')

instance (t : Text) : Decidable (HalfOpen t) := inferInstanceAs (Decidable (_ = _))

/-- Every dollar sign of a text has the other half of an opening right after it. -/
structure Paired (t : Text) : Prop where
  followed : t.IsChain fun c d => c = CodePoint.ofChar '$' → d = CodePoint.ofChar '\x7b'
  ended : ¬HalfOpen t

theorem paired_iff (t : Text) : Paired t ↔
    (t.IsChain fun c d => c = CodePoint.ofChar '$' → d = CodePoint.ofChar '\x7b') ∧ ¬HalfOpen t :=
  ⟨fun paired => ⟨paired.followed, paired.ended⟩, fun ⟨followed, ended⟩ => ⟨followed, ended⟩⟩

instance (t : Text) : Decidable (Paired t) := decidable_of_iff' _ (paired_iff t)

/-! ## Texts joined to texts -/

theorem not_halfOpen_of_not_mem {t : Text} (absent : CodePoint.ofChar '$' ∉ t) : ¬HalfOpen t :=
  fun last => absent (List.mem_of_getLast? last)

theorem halfOpen_append {s t : Text} (first : ¬HalfOpen s) : HalfOpen (s ++ t) ↔ HalfOpen t := by
  cases t with
  | nil =>
    rw [List.append_nil]
    exact ⟨fun half => absurd half first, fun half => by cases half⟩
  | cons c rest =>
    unfold HalfOpen
    rw [List.getLast?_append_of_ne_nil s (List.cons_ne_nil c rest)]

theorem opens_cons (c : CodePoint) (t : Text) :
    opens (c :: t) = opens t + if opening <+: c :: t then 1 else 0 := by
  simp only [opens, List.tails_cons, List.countP_cons, List.isPrefixOf_iff_prefix]

theorem opening_prefix_iff (c d : CodePoint) (t : Text) :
    opening <+: c :: d :: t ↔ c = CodePoint.ofChar '$' ∧ d = CodePoint.ofChar '\x7b' := by
  rw [opening_eq, List.cons_prefix_cons, List.cons_prefix_cons]
  simp only [List.nil_prefix, and_true, eq_comm]

/-- Placeholders that a text opens are its own if it ends with no half of an opening. -/
theorem opens_append {s : Text} (ended : ¬HalfOpen s) (t : Text) :
    opens (s ++ t) = opens s + opens t := by
  induction s with
  | nil => exact (Nat.zero_add _).symm
  | cons c rest ih =>
    cases rest with
    | nil =>
      have other : ¬opening <+: c :: t := by
        rintro ⟨after, same⟩
        exact ended (congrArg some (List.cons.inj same).1.symm)
      have alone : ¬opening <+: [c] := fun found => absurd found.length_le (by decide : ¬2 ≤ 1)
      rw [List.singleton_append, opens_cons, opens_cons, if_neg other, if_neg alone]
      exact (Nat.zero_add _).symm
    | cons d rest =>
      have later : ¬HalfOpen (d :: rest) := by
        rwa [HalfOpen, List.getLast?_cons_cons] at ended
      have first : opening <+: c :: (d :: rest ++ t) ↔ opening <+: c :: d :: rest := by
        rw [List.cons_append, opening_prefix_iff, opening_prefix_iff]
      rw [List.cons_append, opens_cons, ih later, opens_cons c]
      simp only [first]
      omega

theorem opens_opening_append (t : Text) : opens (opening ++ t) = opens t + 1 := by
  have one : opens opening = 1 := by decide
  rw [opens_append (by decide), one, Nat.add_comm]

theorem opens_closing_append (t : Text) : opens (closing ++ t) = opens t := by
  have none : opens closing = 0 := by decide
  rw [opens_append (by decide), none, Nat.zero_add]

theorem opens_eq_zero {t : Text} (unopened : ¬opening <:+: t) : opens t = 0 := by
  rw [opens, List.countP_eq_zero]
  intro tail mem found
  have suffix := (List.mem_tails _ _).1 mem
  exact unopened ((List.isPrefixOf_iff_prefix.1 found).isInfix.trans suffix.isInfix)

theorem closes_append (s t : Text) : closes (s ++ t) = closes s + closes t := List.count_append

theorem closes_closing_append (t : Text) : closes (closing ++ t) = closes t + 1 :=
  List.count_cons_self

theorem closes_eq_zero {t : Text} (unclosed : closer ∉ t) : closes t = 0 :=
  List.count_eq_zero.2 unclosed

/-- Behind a text without closing braces, what is closed counts against what that text opens. -/
theorem covered_append_iff {head : Text} (unclosed : closer ∉ head) (ended : ¬HalfOpen head)
    (tail : Text) :
    Covered (head ++ tail) ↔
      ∀ beginning, beginning <+: tail → closes beginning ≤ opens head + opens beginning := by
  have counts (rest : Text) : closes (head ++ rest) ≤ opens (head ++ rest) ↔
      closes rest ≤ opens head + opens rest := by
    rw [closes_append, closes_eq_zero unclosed, Nat.zero_add, opens_append ended]
  constructor
  · intro covered beginning start
    exact (counts beginning).1 (covered _ ((List.prefix_append_right_inj head).2 start))
  · intro bounded beginning start
    rcases List.prefix_or_prefix_of_prefix start (List.prefix_append head tail) with inside | past
    · rw [closes_eq_zero fun mem => unclosed (inside.subset mem)]
      exact Nat.zero_le _
    · obtain ⟨rest, rfl⟩ := past
      exact (counts rest).2 (bounded rest ((List.prefix_append_right_inj head).1 start))

/-- A closing brace uses up one opening of the text before it. -/
theorem covered_append_closing_iff {head : Text} (unclosed : closer ∉ head)
    (ended : ¬HalfOpen head) (tail : Text) :
    Covered (head ++ (closing ++ tail)) ↔
      ∀ beginning, beginning <+: tail → closes beginning + 1 ≤ opens head + opens beginning := by
  have counts (rest : Text) : closes (closing ++ rest) ≤ opens head + opens (closing ++ rest) ↔
      closes rest + 1 ≤ opens head + opens rest := by
    rw [closes_closing_append, opens_closing_append]
  rw [covered_append_iff unclosed ended]
  constructor
  · intro bounded beginning start
    exact (counts beginning).1 (bounded _ ((List.prefix_append_right_inj closing).2 start))
  · intro bounded beginning start
    rcases List.prefix_cons_iff.1 start with rfl | ⟨rest, rfl, later⟩
    · exact Nat.zero_le _
    · exact (counts rest).2 (bounded rest later)

theorem paired_of_not_mem {t : Text} (absent : CodePoint.ofChar '$' ∉ t) : Paired t where
  followed := by
    induction t with
    | nil => exact .nil
    | cons c rest ih =>
      rw [List.mem_cons, not_or] at absent
      rw [List.isChain_cons]
      exact ⟨fun _ _ same => absurd same.symm absent.1, ih absent.2⟩
  ended := not_halfOpen_of_not_mem absent

theorem paired_append_iff {s t : Text} (ended : ¬HalfOpen s) :
    Paired (s ++ t) ↔ Paired s ∧ Paired t := by
  have junction : ∀ c ∈ s.getLast?, ∀ d ∈ t.head?,
      c = CodePoint.ofChar '$' → d = CodePoint.ofChar '\x7b' := by
    rintro c last d - rfl
    exact absurd last ended
  rw [paired_iff, paired_iff, paired_iff, List.isChain_append, halfOpen_append ended]
  constructor
  · rintro ⟨⟨first, second, -⟩, endedToo⟩
    exact ⟨⟨first, ended⟩, second, endedToo⟩
  · rintro ⟨⟨first, -⟩, second, endedToo⟩
    exact ⟨⟨first, second, junction⟩, endedToo⟩

/-- In front of anything but the other half of an opening there is no first half. -/
theorem Paired.not_halfOpen {s t : Text} {d : CodePoint} (paired : Paired (s ++ d :: t))
    (other : d ≠ CodePoint.ofChar '\x7b') : ¬HalfOpen s := by
  intro last
  exact other ((List.isChain_append.1 paired.followed).2.2 _ last d rfl rfl)

/-! ## Moves -/

namespace Placeholder

variable {place : Placeholder} {value : Text}

/-- The text of a placeholder up to its closing brace, and all that follows. -/
theorem text_whole_split (place : Placeholder) :
    place.whole.text =
      (place.before.text ++ (opening ++ place.name)) ++ (closing ++ place.after.text) := by
  rw [text_whole]
  simp only [List.append_assoc]

theorem not_halfOpen_before (paired : Paired place.whole.text) : ¬HalfOpen place.before.text := by
  rw [text_whole] at paired
  exact paired.not_halfOpen (by decide)

theorem not_halfOpen_name (paired : Paired place.whole.text) :
    ¬HalfOpen (place.before.text ++ (opening ++ place.name)) := by
  rw [text_whole_split] at paired
  exact paired.not_halfOpen (by decide)

theorem paired_replacedBy (paired : Paired place.whole.text) (plain : Plain value) :
    Paired (place.replacedBy value).text := by
  have absent : CodePoint.ofChar '$' ∉ value := fun mem => (plain _ mem).1 rfl
  have ended := not_halfOpen_before paired
  have endedName := not_halfOpen_name paired
  rw [text_whole_split, paired_append_iff endedName, paired_append_iff ended] at paired
  obtain ⟨⟨front, -⟩, rest⟩ := paired
  have back := ((paired_append_iff (by decide)).1 rest).2
  rw [text_replacedBy, paired_append_iff ended,
    paired_append_iff (not_halfOpen_of_not_mem absent)]
  exact ⟨front, paired_of_not_mem absent, back⟩

/-- What the text up to a placeholder's brace opens, and what the value in its place leaves. -/
theorem opens_before (paired : Paired place.whole.text) (plain : Plain value) :
    opens (place.before.text ++ (opening ++ place.name)) = opens place.before.text + 1 ∧
      opens (place.before.text ++ value) = opens place.before.text := by
  have ended := not_halfOpen_before paired
  rw [opens_append ended, opens_append ended, opens_opening_append,
    opens_eq_zero place.innermost.unopened, opens_eq_zero plain.innermost.unopened]
  exact ⟨rfl, rfl⟩

theorem not_halfOpen_value (paired : Paired place.whole.text) (plain : Plain value) :
    ¬HalfOpen (place.before.text ++ value) := by
  rw [halfOpen_append (not_halfOpen_before paired)]
  exact not_halfOpen_of_not_mem fun mem => (plain _ mem).1 rfl

theorem opens_replacedBy (paired : Paired place.whole.text) (plain : Plain value) :
    opens (place.replacedBy value).text + 1 = opens place.whole.text := by
  obtain ⟨named, valued⟩ := opens_before paired plain
  rw [text_replacedBy, text_whole_split, ← List.append_assoc,
    opens_append (not_halfOpen_value paired plain), opens_append (not_halfOpen_name paired),
    opens_closing_append, named, valued]
  omega

theorem closes_replacedBy (place : Placeholder) (plain : Plain value) :
    closes (place.replacedBy value).text + 1 = closes place.whole.text := by
  have none : closes opening = 0 := by decide
  have one : closes closing = 1 := by decide
  rw [text_replacedBy, text_whole]
  simp only [closes_append, closes_eq_zero plain.unclosed, closes_eq_zero place.innermost.unclosed,
    none, one]
  omega

/-- The brace that a placeholder closes with is covered by its own opening. -/
theorem covered_replacedBy_iff (paired : Paired place.whole.text) (plain : Plain value) :
    Covered (place.replacedBy value).text ↔ Covered place.whole.text := by
  obtain ⟨named, valued⟩ := opens_before paired plain
  have front : closer ∉ place.before.text ++ value := by
    rw [List.mem_append, not_or]
    exact ⟨place.unclosed, plain.unclosed⟩
  have frontName : closer ∉ place.before.text ++ (opening ++ place.name) := by
    simp only [List.mem_append, not_or]
    exact ⟨place.unclosed, by decide, place.innermost.unclosed⟩
  rw [text_replacedBy, text_whole_split, ← List.append_assoc,
    covered_append_iff front (not_halfOpen_value paired plain), valued,
    covered_append_closing_iff frontName (not_halfOpen_name paired), named]
  refine forall_congr' fun beginning => imp_congr_right fun _ => ?_
  omega

end Placeholder

namespace Marked

variable {look : Look} {busy : Names} {m last : Marked} {names : List Text}

/-- A run takes as many openings and closing braces out of a text as it replaces names. It covers
every brace that was covered, and no other. -/
theorem Reaches.brackets (plain : ∀ name value, look name = .ok value → Plain value)
    (run : Reaches look busy m names last) (paired : Paired m.text) :
    (Covered last.text ↔ Covered m.text) ∧ opens last.text + names.length = opens m.text ∧
      closes last.text + names.length = closes m.text := by
  induction run with
  | refl => exact ⟨Iff.rfl, rfl, rfl⟩
  | move step _ ih =>
    obtain ⟨place, value, rfl, -, -, -, found, rfl⟩ := exists_of_move_replaced look busy step
    have flat := plain _ _ found
    obtain ⟨covered, opened, closed⟩ := ih (Placeholder.paired_replacedBy paired flat)
    have fewerOpened := Placeholder.opens_replacedBy paired flat
    have fewerClosed := Placeholder.closes_replacedBy place flat
    refine ⟨covered.trans (Placeholder.covered_replacedBy_iff paired flat), ?_, ?_⟩
    · rw [List.length_cons]
      omega
    · rw [List.length_cons]
      omega

theorem covered_of_settled {t : Text} (settled : closer ∉ t) : Covered t := by
  intro beginning start
  rw [closes_eq_zero fun mem => settled (start.subset mem)]
  exact Nat.zero_le _

/-- A brace that nothing opens is not covered. -/
theorem not_covered_of_unopened {t : Text} (found : scan t = .unopened) : ¬Covered t := by
  obtain ⟨head, after, rfl, unclosed, unopened⟩ := (scan_eq_unopened_iff t).1 found
  have still : ¬opening <:+: head ++ closing := by
    rw [opening_eq, closing_eq, Text.pair_infix_concat_iff, not_or, not_and]
    exact ⟨fun _ => by decide, unopened⟩
  intro covered
  have start : head ++ closing <+: head ++ (closing ++ after) := by
    rw [← List.append_assoc]
    exact List.prefix_append _ _
  have bound := covered _ start
  rw [opens_eq_zero still, closes_append, closes_eq_zero unclosed] at bound
  exact absurd bound (by decide)

/-- How a run can end, told by the brackets of the text that it started from. -/
theorem Ends.brackets (plain : ∀ name value, look name = .ok value → Plain value)
    {result : Except Fault Text} (ends : Ends look busy m names result) (paired : Paired m.text) :
    (∃ final, result = .ok final ∧ Covered m.text ∧ closer ∉ final ∧
        opens final + closes m.text = opens m.text) ∨
      (∃ t, result = .error (.unmatched t) ∧ ¬Covered m.text) ∨
      (∃ name, result = .error (.cyclic name)) ∨
      ∃ name refusal, result = .error (.refused refusal) ∧ look name = .error refusal := by
  obtain ⟨last, run, ended⟩ := ends
  obtain ⟨covered, opened, closed⟩ := run.brackets plain paired
  cases found : scan last.text with
  | settled =>
    have settled := (scan_eq_settled_iff last.text).1 found
    rw [move_settled look busy settled, Move.ended.injEq] at ended
    have none := closes_eq_zero settled
    exact .inl ⟨last.text, ended.symm, covered.1 (covered_of_settled settled), settled, by omega⟩
  | unopened =>
    rw [move_unopened look busy found, Move.ended.injEq] at ended
    have uncovered := not_covered_of_unopened found
    exact .inr (.inl ⟨last.text, ended.symm, fun still => uncovered (covered.2 still)⟩)
  | placeholder before name after =>
    obtain ⟨place, rfl⟩ := Placeholder.exists_of_scan found
    rw [move_whole] at ended
    split at ended
    · rw [Move.ended.injEq] at ended
      exact .inr (.inr (.inl ⟨place.name, ended.symm⟩))
    · split at ended
      · next refusal refused =>
        rw [Move.ended.injEq] at ended
        exact .inr (.inr (.inr ⟨place.name, refusal, ended.symm, refused⟩))
      · cases ended

end Marked

/-- Bracket counts decide how an expansion can end, where every dollar sign opens a placeholder and
the values have neither dollar signs nor closing braces. If no beginning of the text closes more
than it opens, no brace is found unmatched, and a text that is expanded keeps the openings that were
left over. If some beginning does, the expansion gives no text: it ends at an unmatched brace unless
it comes before that to a cyclic name or to one whose source gives no answer. -/
theorem expand_brackets (sources : Sources)
    (plain : ∀ name value, sources.lookup name = .ok value → Plain value) {t : Text}
    (paired : Paired t) (key : Option Text) (busy : Names) :
    (Covered t →
      (∀ u, (expand sources t key busy).result ≠ .error (.unmatched u)) ∧
      ∀ final, (expand sources t key busy).result = .ok final →
        closer ∉ final ∧ closes t ≤ opens t ∧ opens final = opens t - closes t) ∧
    (¬Covered t →
      (∃ u, (expand sources t key busy).result = .error (.unmatched u)) ∨
      (∃ name, (expand sources t key busy).result = .error (.cyclic name)) ∨
      ∃ name refusal, (expand sources t key busy).result = .error (.refused refusal) ∧
        sources.lookup name = .error refusal) := by
  obtain ⟨names, ends⟩ := expand_ends sources t key busy
  have start : (mark t ∅).text = t := text_mark t ∅
  have ways := ends.brackets plain (start.symm ▸ paired)
  rw [start] at ways
  rcases ways with ⟨final, done, covered, settled, counts⟩ | ⟨u, stray, uncovered⟩ | failed
  · rw [done]
    refine ⟨fun _ => ⟨fun u same => (nomatch same), ?_⟩, fun uncovered => absurd covered uncovered⟩
    rintro _ ⟨⟩
    exact ⟨settled, by omega, by omega⟩
  · exact ⟨fun covered => absurd covered uncovered, fun _ => .inl ⟨u, stray⟩⟩
  · refine ⟨fun _ => ?_, fun _ => .inr failed⟩
    rcases failed with ⟨name, cyclic⟩ | ⟨name, refusal, refused, -⟩
    · rw [cyclic]
      exact ⟨fun u same => (nomatch same), fun final same => (nomatch same)⟩
    · rw [refused]
      exact ⟨fun u same => (nomatch same), fun final same => (nomatch same)⟩

/-- Whether the values of a property map are plain shows by looking at them. -/
theorem plain_of_entries {properties : Properties}
    (each : ∀ entry ∈ properties.entries, Plain entry.2) {name value : Text}
    (found : (⟨some (.ofTable properties), none⟩ : Sources).lookup name = .ok value) :
    Plain value := by
  rcases Sources.mem_or_nil_of_lookup found with mem | rfl
  · exact each _ mem
  · exact fun c mem => absurd mem List.not_mem_nil

/-- Values with opening braces that stand for nothing, and one without text. -/
def braces : Properties :=
  Table.ofList [("a", "\x7b"), ("b\x7b", "v\x7b-"), ("blank", "")]

/-- The text `${b${a}}-${` has two openings for its braces and one that is left over at the end; the
text `${blank}}${` has an opening too many and yet a brace without one. -/
theorem expand_brackets_braces :
    (Covered "$\x7bb$\x7ba\x7d\x7d-$\x7b" ∧
      (expand ⟨some (.ofTable braces), none⟩ "$\x7bb$\x7ba\x7d\x7d-$\x7b" none []).result =
        .ok "v\x7b--$\x7b" ∧ opens "v\x7b--$\x7b" = 1) ∧
    ¬Covered "$\x7bblank\x7d\x7d$\x7b" ∧
      ∃ u, (expand ⟨some (.ofTable braces), none⟩ "$\x7bblank\x7d\x7d$\x7b" none []).result =
        .error (.unmatched u) := by
  have plain : ∀ name value,
      (⟨some (.ofTable braces), none⟩ : Sources).lookup name = .ok value → Plain value :=
    fun _ _ found => plain_of_entries (by decide +kernel) found
  have covered : Covered "$\x7bb$\x7ba\x7d\x7d-$\x7b" := by decide +kernel
  have uncovered : ¬Covered "$\x7bblank\x7d\x7d$\x7b" := by decide +kernel
  have settles : (expand ⟨some (.ofTable braces), none⟩ "$\x7bb$\x7ba\x7d\x7d-$\x7b" none
      []).result = .ok "v\x7b--$\x7b" := result_expand_of_turns 3 (by decide +kernel)
  have strays : (expand ⟨some (.ofTable braces), none⟩ "$\x7bblank\x7d\x7d$\x7b" none
      []).result = .error (.unmatched "\x7d$\x7b") := result_expand_of_turns 2 (by decide +kernel)
  refine ⟨⟨covered, settles, ?_⟩, uncovered, ?_⟩
  · obtain ⟨-, fits⟩ := (expand_brackets _ plain (by decide +kernel) none []).1 covered
    obtain ⟨-, -, left⟩ := fits _ settles
    rw [left]
    decide +kernel
  · rcases (expand_brackets _ plain (by decide +kernel) none []).2 uncovered with
      found | ⟨_, cyclic⟩ | ⟨_, _, refused, -⟩
    · exact found
    · rw [strays] at cyclic
      cases cyclic
    · rw [strays] at refused
      cases refused

end PropertyToolkit.Substitution
