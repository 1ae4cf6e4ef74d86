import Mathlib.Logic.Function.Basic
import PropertyToolkit.Base64.Decode
import PropertyToolkit.Base64.Encode

/-!
What is written in Base64 is read back, in lines of any length and with blanks put in or taken out
anywhere. The reader takes the text group by group, and a group gives back the bytes it was made of;
blanks never reach the reader, and the line breaks are blanks.
-/

set_option autoImplicit false

namespace PropertyToolkit.Base64

/-! ## Digits -/

theorem digit_ne_pad : ∀ n : Sextet, digit n ≠ pad := by decide

theorem isBlank_digit : ∀ n : Sextet, (digit n).isBlank = false := by decide

theorem value_digit_lt : ∀ n : Sextet, (digit n).value < 0x80 := by decide

theorem val_lowSextet {n : Nat} (small : n < 64) : (lowSextet n).val = n := Nat.mod_eq_of_lt small

/-! ## Groups -/

/-- The bytes that three or four digits carry between them, two neighbours a byte. -/
def firstByte (p q : Sextet) : UInt8 := UInt8.ofNat (p.val * 4 + q.val / 16)

def secondByte (q r : Sextet) : UInt8 := UInt8.ofNat (q.val % 16 * 16 + r.val / 4)

def thirdByte (r s : Sextet) : UInt8 := UInt8.ofNat (r.val % 4 * 64 + s.val)

theorem firstByte_groupDigits (a : UInt8) (b c : Option UInt8) :
    firstByte (groupDigits a b c).1 (groupDigits a b c).2.1 = a := by
  have low := a.toNat_lt
  have next := (b.getD 0).toNat_lt
  simp only [firstByte, groupDigits, lowSextet]
  rw [show a.toNat / 4 % 64 * 4 + (a.toNat % 4 * 16 + (b.getD 0).toNat / 16) % 64 / 16 = a.toNat by
    omega]
  exact UInt8.ofNat_toNat

theorem secondByte_groupDigits (a b : UInt8) (c : Option UInt8) :
    secondByte (groupDigits a (some b) c).2.1 (groupDigits a (some b) c).2.2.1 = b := by
  have low := b.toNat_lt
  have next := (c.getD 0).toNat_lt
  simp only [secondByte, groupDigits, lowSextet, Option.getD_some]
  rw [show (a.toNat % 4 * 16 + b.toNat / 16) % 64 % 16 * 16 +
      (b.toNat % 16 * 4 + (c.getD 0).toNat / 64) % 64 / 4 = b.toNat by omega]
  exact UInt8.ofNat_toNat

theorem thirdByte_groupDigits (a b c : UInt8) :
    thirdByte (groupDigits a (some b) (some c)).2.2.1 (groupDigits a (some b) (some c)).2.2.2 =
      c := by
  have low := c.toNat_lt
  simp only [thirdByte, groupDigits, lowSextet, Option.getD_some]
  rw [show (b.toNat % 16 * 4 + c.toNat / 64) % 64 % 4 * 64 + c.toNat % 64 = c.toNat by omega]
  exact UInt8.ofNat_toNat

/-! ## The reader -/

/-- A reader between two groups, after some digits. -/
def Reader.between (digits : Nat) : Reader := ⟨[], digits, 0, false⟩

theorem Reader.read_digit {reader : Reader} (unpadded : reader.padded = false) (n : Sextet)
    (rest : Text) :
    reader.read (digit n :: rest) =
      ((reader.push n).read rest).map (byteOf reader.group n ++ ·) := by
  rw [read, if_neg (digit_ne_pad n), sextet?_digit]
  simp [unpadded]

theorem Reader.read_four (digits : Nat) (p q r s : Sextet) (rest : Text) :
    (between digits).read (digit p :: digit q :: digit r :: digit s :: rest) =
      ((between (digits + 4)).read rest).map
        ([firstByte p q, secondByte q r, thirdByte r s] ++ ·) := by
  rw [between, read_digit rfl, read_digit rfl, read_digit rfl, read_digit rfl]
  -- After four digits the reader is between two groups again, whatever they were.
  change Except.map _ (Except.map _ (Except.map _ (Except.map _
    ((between (digits + 4)).read rest)))) = _
  cases (between (digits + 4)).read rest with
  | error fault => rfl
  | ok bytes => rfl

theorem Reader.read_three (digits : Nat) (p q r : Sextet) :
    (between digits).read [digit p, digit q, digit r, pad] =
      .ok [firstByte p q, secondByte q r] := by
  rw [between, read_digit rfl, read_digit rfl, read_digit rfl]
  rfl

theorem Reader.read_two (digits : Nat) (p q : Sextet) :
    (between digits).read [digit p, digit q, pad, pad] = .ok [firstByte p q] := by
  rw [between, read_digit rfl, read_digit rfl]
  rfl

theorem Reader.read_encode (bytes : List UInt8) (digits : Nat) :
    (between digits).read (encode bytes) = .ok bytes := by
  induction bytes using encode.induct generalizing digits with
  | case1 => rfl
  | case2 a =>
    have last := read_two digits (groupDigits a none none).1 (groupDigits a none none).2.1
    rw [firstByte_groupDigits] at last
    exact last
  | case3 a b =>
    have last := read_three digits (groupDigits a (some b) none).1
      (groupDigits a (some b) none).2.1 (groupDigits a (some b) none).2.2.1
    rw [firstByte_groupDigits, secondByte_groupDigits] at last
    exact last
  | case4 a b c rest p q r s _ ih =>
    have group := read_four digits (groupDigits a (some b) (some c)).1
      (groupDigits a (some b) (some c)).2.1 (groupDigits a (some b) (some c)).2.2.1
      (groupDigits a (some b) (some c)).2.2.2 (encode rest)
    rw [firstByte_groupDigits, secondByte_groupDigits, thirdByte_groupDigits, ih] at group
    exact group

/-! ## What is written -/

/-- Only digits and pads are written. -/
theorem forall_mem_encode {P : CodePoint → Prop} (digits : ∀ n, P (digit n)) (pads : P pad)
    (bytes : List UInt8) : ∀ c ∈ encode bytes, P c := by
  induction bytes using encode.induct with
  | case1 => exact nofun
  | case2 a =>
    change ∀ c ∈ [digit _, digit _, pad, pad], P c
    simp only [List.forall_mem_cons, digits, pads, List.not_mem_nil, false_imp_iff, implies_true,
      and_self]
  | case3 a b =>
    change ∀ c ∈ [digit _, digit _, digit _, pad], P c
    simp only [List.forall_mem_cons, digits, pads, List.not_mem_nil, false_imp_iff, implies_true,
      and_self]
  | case4 a b c rest p q r s _ ih =>
    change ∀ c ∈ digit _ :: digit _ :: digit _ :: digit _ :: encode rest, P c
    simp only [List.forall_mem_cons, digits, true_and]
    exact ih

theorem head?_encode_ne_pad (bytes : List UInt8) : (encode bytes).head? ≠ some pad := by
  cases bytes using encode.fun_cases with
  | case1 => exact nofun
  | case2 a => exact fun same => digit_ne_pad _ (Option.some.inj same)
  | case3 a b => exact fun same => digit_ne_pad _ (Option.some.inj same)
  | case4 a b c rest => exact fun same => digit_ne_pad _ (Option.some.inj same)

theorem decodeCompact_encode (bytes : List UInt8) : decodeCompact (encode bytes) = .ok bytes := by
  have small : ∀ c ∈ encode bytes, c.value < 0x80 :=
    forall_mem_encode value_digit_lt (by decide) bytes
  have ascii : ((encode bytes).any fun c => 0x80 ≤ c.value) = false := by
    rw [List.any_eq_false]
    intro c mem
    have bound := small c mem
    simp only [decide_eq_true_eq]
    omega
  rw [decodeCompact, ascii, if_neg (head?_encode_ne_pad bytes)]
  exact Reader.read_encode bytes 0

/-! ## Lines and blanks -/

theorem lines_nil (length : Nat) : lines length [] = [] := by
  rw [lines, dif_pos (Or.inl rfl)]

theorem lines_of_ne_nil {length : Nat} (positive : 0 < length) {t : Text} (filled : t ≠ []) :
    lines length t = t.take length :: lines length (t.drop length) := by
  have unfinished : ¬(t = [] ∨ length = 0) := not_or.2 ⟨filled, Nat.ne_of_gt positive⟩
  rw [lines, dif_neg unfinished]

/-- The lines of a text give it back, whatever their length. -/
theorem flatten_lines {length : Nat} (positive : 0 < length) (t : Text) :
    (lines length t).flatten = t := by
  by_cases empty : t = []
  · rw [empty, lines_nil, List.flatten_nil]
  · rw [lines_of_ne_nil positive empty, List.flatten_cons,
      flatten_lines positive (t.drop length), List.take_append_drop]
termination_by t.length
decreasing_by
  have filled : 0 < t.length := List.length_pos_iff.2 empty
  rw [List.length_drop]
  omega

/-- What a text is read as. -/
def compact (t : Text) : Text := t.filter fun c => !c.isBlank

theorem compact_append (s t : Text) : compact (s ++ t) = compact s ++ compact t :=
  List.filter_append ..

theorem compact_encode (bytes : List UInt8) : compact (encode bytes) = encode bytes := by
  have solid : ∀ c ∈ encode bytes, c.isBlank = false :=
    forall_mem_encode isBlank_digit (by decide) bytes
  apply List.filter_eq_self.2
  intro c mem
  rw [solid c mem]
  rfl

/-- Line breaks are blanks. -/
theorem compact_lines (lines : List Text) :
    compact (lines.flatMap fun line => line ++ lineBreak) = compact lines.flatten := by
  induction lines with
  | nil => rfl
  | cons line rest ih =>
    have none : compact lineBreak = [] := by decide
    rw [List.flatMap_cons, List.flatten_cons, compact_append, compact_append, compact_append, none,
      List.append_nil, ih]

/-- A length that can be asked for: none, or a whole number of groups. -/
theorem exists_encodeLines {length : Int} (valid : 0 ≤ length ∧ length % 4 = 0)
    (bytes : List UInt8) :
    ∃ text, encodeLines bytes length = .ok text ∧ compact text = encode bytes := by
  have accepted : ¬(length < 0 ∨ length % 4 ≠ 0) := by omega
  rw [encodeLines, if_neg accepted]
  by_cases single : length = 0
  · rw [if_pos single]
    exact ⟨_, rfl, compact_encode bytes⟩
  · rw [if_neg single]
    refine ⟨_, rfl, ?_⟩
    have positive : 0 < length.toNat := by omega
    have none : compact lineBreak = [] := by decide
    rw [compact_append, compact_lines, flatten_lines positive, none, List.append_nil,
      compact_encode]

/-- A text with blanks put in or taken out, one after the other and anywhere. -/
inductive Respaced (text : Text) : Text → Prop
  | same : Respaced text text
  | insert {c : CodePoint} (blank : c.isBlank = true) {before after : Text}
    (earlier : Respaced text (before ++ after)) : Respaced text (before ++ c :: after)
  | remove {c : CodePoint} (blank : c.isBlank = true) {before after : Text}
    (earlier : Respaced text (before ++ c :: after)) : Respaced text (before ++ after)

theorem compact_blank {c : CodePoint} (blank : c.isBlank = true) (before after : Text) :
    compact (before ++ c :: after) = compact (before ++ after) := by
  rw [compact_append, compact_append, compact, compact, compact, List.filter_cons_of_neg]
  simp [blank]

theorem Respaced.compact_eq {text respaced : Text} (respacing : Respaced text respaced) :
    compact respaced = compact text := by
  induction respacing with
  | same => rfl
  | insert blank _ ih => rw [compact_blank blank, ih]
  | remove blank _ ih => rw [← compact_blank blank, ih]

/-- Bytes can be written in lines of any length that is accepted, and are read back from what is
written, with blanks put in or taken out anywhere. So no two of them are written alike. -/
theorem decode_respaced {length : Int} (valid : 0 ≤ length ∧ length % 4 = 0) :
    (∀ bytes, ∃ text, encodeLines bytes length = .ok text ∧
      ∀ respaced, Respaced text respaced → decode respaced = .ok bytes) ∧
    Function.Injective fun bytes => encodeLines bytes length := by
  -- The compact text is all that is read, and no blank is in it: this serves both parts.
  have back (bytes : List UInt8) {text respaced : Text} (written : compact text = encode bytes)
      (respacing : Respaced text respaced) : decode respaced = .ok bytes := by
    have same : compact respaced = encode bytes := respacing.compact_eq.trans written
    rw [decode, ← compact, same, decodeCompact_encode]
  constructor
  · intro bytes
    obtain ⟨text, written, content⟩ := exists_encodeLines valid bytes
    exact ⟨text, written, fun respaced respacing => back bytes content respacing⟩
  · intro first second same
    obtain ⟨text, written, content⟩ := exists_encodeLines valid first
    obtain ⟨other, rewritten, otherContent⟩ := exists_encodeLines valid second
    simp only [written, rewritten, Except.ok.injEq] at same
    have one := back first content .same
    rw [same, back second otherContent .same] at one
    exact (Except.ok.inj one).symm

/-- A blank inside a padded group, and the last line break taken out. -/
theorem decode_respaced_padded :
    (0 ≤ (4 : Int) ∧ (4 : Int) % 4 = 0) ∧
      encodeLines [0x68, 0x69] 4 = .ok "aGk=\r\n\r\n" ∧
      Respaced "aGk=\r\n\r\n" "aGk\u3000=\r\n" ∧
      decode "aGk\u3000=\r\n" = .ok [0x68, 0x69] := by
  have valid : 0 ≤ (4 : Int) ∧ (4 : Int) % 4 = 0 := by decide
  have single : lines (4 : Int).toNat (encode [0x68, 0x69]) = [("aGk=" : Text)] := by
    have filled : encode [0x68, 0x69] ≠ [] := by decide
    have rest : (encode [0x68, 0x69]).drop (4 : Int).toNat = [] := by decide
    rw [lines_of_ne_nil (by decide) filled, rest, lines_nil]
    rfl
  have written : encodeLines [0x68, 0x69] 4 = .ok "aGk=\r\n\r\n" := by
    rw [encodeLines, if_neg (by decide), if_neg (by decide), single]
    rfl
  have shorter : Respaced "aGk=\r\n\r\n" "aGk=\r\n\r" :=
    @Respaced.remove _ '\n' (by decide) "aGk=\r\n\r" [] .same
  have closed : Respaced "aGk=\r\n\r\n" "aGk=\r\n" :=
    @Respaced.remove _ '\r' (by decide) "aGk=\r\n" [] shorter
  have respacing : Respaced "aGk=\r\n\r\n" "aGk\u3000=\r\n" :=
    @Respaced.insert _ '\u3000' (by decide) "aGk" "=\r\n" closed
  obtain ⟨text, same, back⟩ := (decode_respaced valid).1 [0x68, 0x69]
  rw [written, Except.ok.injEq] at same
  exact ⟨valid, written, respacing, back _ (same ▸ respacing)⟩

end PropertyToolkit.Base64
