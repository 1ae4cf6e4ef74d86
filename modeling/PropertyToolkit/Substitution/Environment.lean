import PropertyToolkit.Substitution.Source

/-!
The environment as a source. Its names are compared by their bytes, so a name that cannot be
written as bytes gets no answer at all.
-/

set_option autoImplicit false

namespace PropertyToolkit

/-- The variables of an environment with their values. -/
abbrev Environment := Table Text Text

namespace Environment

open Substitution

def get (environment : Environment) (name : Text) : Except Refusal (Option Text) :=
  match Utf8.encodeName name with
  | .error fault => .error (.unencodable fault)
  | .ok bytes =>
    let found := environment.entries.find? fun entry =>
      match Utf8.encodeName entry.1 with
      | .error _ => false
      | .ok written => written = bytes
    .ok (found.map Prod.snd)

theorem length_pos_of_bytesOf? {escapes : Bool} {c : CodePoint} {bytes : List UInt8}
    (h : Utf8.bytesOf? escapes c = some bytes) : 0 < bytes.length := by
  unfold Utf8.bytesOf? at h
  split at h
  · split at h
    · obtain ⟨b, _, rfl⟩ := Option.map_eq_some_iff.1 h
      exact Nat.one_pos
    · cases h
  · cases h
    unfold Utf8.encodeCodePoint
    dsimp only
    repeat' split
    all_goals simp

/-- Every code point takes a byte or more. -/
theorem length_le_of_encodeFrom {escapes : Bool} {position : Nat} {t : Text} {bytes : List UInt8}
    (h : Utf8.encodeFrom escapes position t = .ok bytes) : t.length ≤ bytes.length := by
  induction t generalizing position bytes with
  | nil => exact Nat.zero_le _
  | cons c rest ih =>
    rw [Utf8.encodeFrom] at h
    split at h
    · cases h
    · next written wrote =>
      split at h
      · cases h
      · next more tail =>
        cases h
        have tailLength := ih tail
        have headLength := length_pos_of_bytesOf? wrote
        rw [List.length_cons, List.length_append]
        omega

theorem mem_codePoints (c : CodePoint) :
    c ∈ (List.range 0x110000).filterMap CodePoint.ofNat? :=
  List.mem_filterMap.2 ⟨c.value, List.mem_range.2 c.bounded, by
    simp only [CodePoint.ofNat?, c.bounded, ↓reduceDIte]⟩

/-- There are finitely many texts of bounded length. -/
theorem exists_texts_up_to (n : Nat) : ∃ texts : Names, ∀ t : Text, t.length ≤ n → t ∈ texts := by
  induction n with
  | zero => exact ⟨[[]], fun t short => by simpa using short⟩
  | succ n ih =>
    obtain ⟨shorter, covered⟩ := ih
    refine ⟨[] :: ((List.range 0x110000).filterMap CodePoint.ofNat?).flatMap fun c =>
      shorter.map (c :: ·), fun t short => ?_⟩
    cases t with
    | nil => exact List.mem_cons_self ..
    | cons c rest =>
      refine List.mem_cons_of_mem _ (List.mem_flatMap.2 ⟨c, mem_codePoints c, ?_⟩)
      exact List.mem_map_of_mem (covered rest (Nat.le_of_succ_le_succ short))

/-- The length of the longest name, in bytes. -/
def longestName (environment : Environment) : Nat :=
  environment.entries.foldr (fun entry longest =>
    match Utf8.encodeName entry.1 with
    | .error _ => longest
    | .ok bytes => max bytes.length longest) 0

theorem length_le_longestName {environment : Environment} {entry : Text × Text}
    {bytes : List UInt8} (mem : entry ∈ environment.entries)
    (wrote : Utf8.encodeName entry.1 = .ok bytes) : bytes.length ≤ environment.longestName := by
  unfold longestName
  generalize environment.entries = entries at mem
  induction entries with
  | nil => cases mem
  | cons first rest ih =>
    rw [List.foldr_cons]
    rcases List.mem_cons.1 mem with rfl | later
    · rw [wrote]
      exact Nat.le_max_left ..
    · split
      · exact ih later
      · exact Nat.le_trans (ih later) (Nat.le_max_right ..)

def source (environment : Environment) : Source where
  get := environment.get
  finite := by
    obtain ⟨texts, covered⟩ := exists_texts_up_to environment.longestName
    refine ⟨texts, fun name value found _ => covered name ?_⟩
    unfold get at found
    split at found
    · cases found
    · next bytes wrote =>
      obtain ⟨entry, here, _⟩ := Option.map_eq_some_iff.1 (Except.ok.inj found)
      have matched := List.find?_some here
      split at matched
      · cases matched
      · next written known =>
        rw [decide_eq_true_eq] at matched
        rw [matched] at known
        exact Nat.le_trans (length_le_of_encodeFrom wrote)
          (length_le_longestName (List.mem_of_find?_eq_some here) known)

end Environment

end PropertyToolkit
