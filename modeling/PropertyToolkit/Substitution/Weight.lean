import PropertyToolkit.Substitution.Scan
import PropertyToolkit.Substitution.Span

/-!
Why expansion ends. Each code point weighs a power of a base that exceeds the length of every value;
the exponent counts the names with a value that had no part in producing it. A placeholder is
replaced by fewer code points than the base, each of a smaller exponent than any it replaces.
-/

set_option autoImplicit false

namespace PropertyToolkit.Substitution

/-- How many of the names had no part yet. -/
def Names.missing (names origins : Names) : Nat := names.countP fun name => name ∉ origins

theorem Names.missing_le_of_subset (names : Names) {a b : Names} (sub : ∀ name ∈ a, name ∈ b) :
    names.missing b ≤ names.missing a :=
  List.countP_mono_left fun name _ outside => by
    simp only [decide_eq_true_eq] at outside ⊢
    exact fun mem => outside (sub name mem)

theorem Names.missing_lt_of_new (names : Names) {a b : Names} {name : Text}
    (sub : ∀ name ∈ a, name ∈ b) (mem : name ∈ names) (new : name ∉ a) (gained : name ∈ b) :
    names.missing b < names.missing a := by
  induction names with
  | nil => simp at mem
  | cons first rest ih =>
    have tail : missing rest b ≤ missing rest a := missing_le_of_subset rest sub
    unfold missing at ih tail ⊢
    rw [List.countP_cons, List.countP_cons]
    by_cases here : first = name
    · subst here
      simp only [gained, new, not_true_eq_false, decide_false, Bool.false_eq_true, ↓reduceIte,
        not_false_eq_true, decide_true]
      omega
    · have later : name ∈ rest := (List.mem_cons.1 mem).resolve_left (Ne.symm here)
      have less := ih later
      by_cases inA : first ∈ a
      · simp only [inA, sub first inA, not_true_eq_false, decide_false, Bool.false_eq_true,
          ↓reduceIte]
        omega
      · simp only [inA, not_false_eq_true, decide_true, ↓reduceIte]
        split <;> omega

/-- What one code point weighs with these names behind it. -/
def Names.share (names : Names) (base : Nat) (origins : Names) : Nat :=
  base.pow (names.missing origins)

theorem Names.share_pos (names : Names) (longest : Nat) (origins : Names) :
    0 < names.share (longest + 1) origins := Nat.pow_pos (Nat.succ_pos longest)

theorem Names.share_le_of_subset (names : Names) (longest : Nat) {a b : Names}
    (sub : ∀ name ∈ a, name ∈ b) : names.share (longest + 1) b ≤ names.share (longest + 1) a :=
  Nat.pow_le_pow_right (Nat.succ_pos longest) (names.missing_le_of_subset sub)

/-- With one more of the names behind them, as many code points as the base weigh no more than one
did before. -/
theorem Names.mul_share_le_of_new (names : Names) (longest : Nat) {a b : Names} {name : Text}
    (sub : ∀ name ∈ a, name ∈ b) (mem : name ∈ names) (new : name ∉ a) (gained : name ∈ b) :
    (longest + 1) * names.share (longest + 1) b ≤ names.share (longest + 1) a := by
  have fewer : names.missing b < names.missing a := names.missing_lt_of_new sub mem new gained
  rw [Nat.mul_comm]
  exact Nat.pow_le_pow_right (Nat.succ_pos longest) fewer

namespace Span

def weighTagged (names : Names) (base : Nat) : List (CodePoint × Names) → Nat
  | [] => 0
  | entry :: rest => names.share base entry.2 + weighTagged names base rest

def weight (names : Names) (base : Nat) (spans : List Span) : Nat :=
  weighTagged names base (tagged spans)

theorem weighTagged_append (names : Names) (base : Nat) (first second : List (CodePoint × Names)) :
    weighTagged names base (first ++ second) =
      weighTagged names base first + weighTagged names base second := by
  induction first with
  | nil => rw [List.nil_append, weighTagged, Nat.zero_add]
  | cons entry rest ih => rw [List.cons_append, weighTagged, weighTagged, ih, Nat.add_assoc]

theorem weighTagged_same (names : Names) (base : Nat) (t : Text) (origins : Names) :
    weighTagged names base (t.map fun c => (c, origins)) =
      t.length * names.share base origins := by
  induction t with
  | nil => rw [List.map_nil, weighTagged, List.length_nil, Nat.zero_mul]
  | cons c rest ih =>
    rw [List.map_cons, weighTagged, ih, List.length_cons, Nat.succ_mul, Nat.add_comm]

theorem le_weighTagged {names : Names} {base : Nat} {entries : List (CodePoint × Names)}
    {entry : CodePoint × Names} (mem : entry ∈ entries) :
    names.share base entry.2 ≤ weighTagged names base entries := by
  induction entries with
  | nil => cases mem
  | cons first rest ih =>
    rw [weighTagged]
    rcases List.mem_cons.1 mem with rfl | later
    · omega
    · have := ih later
      omega

/-- Expanding a placeholder makes the text lighter, however long the value is. -/
theorem weight_splice_lt {names : Names} {longest : Nat} {spans : List Span}
    {start stop : Nat} {name value : Text} (ordered : start < stop)
    (within : stop ≤ (joined spans).length)
    (new : name ∉ originsBetween spans start stop)
    (known : value ≠ [] → name ∈ names ∧ value.length ≤ longest) :
    weight names (longest + 1)
        (splice spans start stop
          ⟨value, (originsBetween spans start stop).union [name]⟩) <
      weight names (longest + 1) spans := by
  have parts : tagged spans = (tagged spans).take start ++
      (((tagged spans).take stop).drop start ++ (tagged spans).drop stop) := by
    conv => lhs; rw [← List.take_append_drop stop (tagged spans)]
    rw [← List.append_assoc]
    congr 1
    have nested : (tagged spans).take start = ((tagged spans).take stop).take start := by
      rw [List.take_take, Nat.min_eq_left (Nat.le_of_lt ordered)]
    rw [nested, List.take_append_drop]
  have size : (((tagged spans).take stop).drop start).length = stop - start := by
    rw [List.length_drop, List.length_take, length_tagged, Nat.min_eq_left within]
  obtain ⟨entry, mem⟩ : ∃ entry, entry ∈ ((tagged spans).take stop).drop start :=
    List.exists_mem_of_length_pos (by omega)
  have carried : ∀ name ∈ entry.2, name ∈ originsBetween spans start stop := fun _ has =>
    mem_originsBetween_of_tagged mem has
  unfold weight
  rw [tagged_splice, weighTagged_append, weighTagged_append, weighTagged_same]
  conv => rhs; rw [parts, weighTagged_append, weighTagged_append]
  generalize originsBetween spans start stop = origins at new carried ⊢
  have heavy : names.share (longest + 1) origins ≤
      weighTagged names (longest + 1) (((tagged spans).take stop).drop start) :=
    Nat.le_trans (names.share_le_of_subset longest carried) (le_weighTagged mem)
  have light : value.length * names.share (longest + 1) (origins.union [name]) <
      names.share (longest + 1) origins := by
    by_cases empty : value = []
    · rw [empty, List.length_nil, Nat.zero_mul]
      exact names.share_pos longest origins
    · obtain ⟨listed, short⟩ := known empty
      calc value.length * names.share (longest + 1) (origins.union [name])
          < (longest + 1) * names.share (longest + 1) (origins.union [name]) :=
            Nat.mul_lt_mul_of_pos_right (Nat.lt_succ_of_le short) (names.share_pos longest _)
        _ ≤ names.share (longest + 1) origins :=
            names.mul_share_le_of_new longest (fun _ has => Names.mem_union.2 (Or.inl has)) listed
              new (Names.mem_union.2 (Or.inr (List.mem_singleton.2 rfl)))
  dsimp only
  omega

end Span

end PropertyToolkit.Substitution
