import PropertyToolkit.Proofs.Base64.RoundTrip

/-!
Base64 in lines as the work of a writer that takes one code point after the other. It breaks the
line after every `length`-th code point, closes the text with a line break, and writes one more if
the last line is partial. What it writes is the text cut into lines: all of them are full but the
last one, and each holds whole groups of four.
-/

set_option autoImplicit false

namespace PropertyToolkit.Base64

/-- A writer: what it has put out so far, and how many code points it was given. -/
structure LineWriter where
  output : Text
  count : Nat

namespace LineWriter

def start : LineWriter := ⟨[], 0⟩

/-- Puts out a code point, and a line break after every `length`-th one. -/
def put (length : Nat) (writer : LineWriter) (c : CodePoint) : LineWriter where
  output := writer.output ++ c :: if (writer.count + 1) % length = 0 then lineBreak else []
  count := writer.count + 1

/-- Ends the text with a line break, and with one more if the last line is partial. -/
def close (length : Nat) (writer : LineWriter) : Text :=
  writer.output ++ (lineBreak ++ if writer.count % length = 0 then [] else lineBreak)

/-- What the writer makes of a text. -/
def write (length : Nat) (t : Text) : Text := (t.foldl (put length) start).close length

variable {length : Nat}

/-- Code points that leave room on the line are put out as they are. -/
theorem foldl_put_of_room (writer : LineWriter) {line : Text}
    (room : writer.count % length + line.length < length) :
    line.foldl (put length) writer = ⟨writer.output ++ line, writer.count + line.length⟩ := by
  induction line generalizing writer with
  | nil => simp
  | cons c rest ih =>
    rw [List.length_cons] at room
    have one : 1 % length = 1 := Nat.mod_eq_of_lt (by omega)
    have column : (writer.count + 1) % length = writer.count % length + 1 := by
      rw [Nat.add_mod, one, Nat.mod_eq_of_lt (by omega)]
    have unbroken : (writer.count + 1) % length ≠ 0 := by omega
    have next : writer.put length c = ⟨writer.output ++ [c], writer.count + 1⟩ := by
      rw [put, if_neg unbroken]
    rw [List.foldl_cons, next, ih _ (by rw [column]; omega), List.length_cons,
      List.append_assoc, List.singleton_append, Nat.add_right_comm, Nat.add_assoc]

/-- A full line is followed by a line break. -/
theorem foldl_put_of_full {writer : LineWriter} (fresh : writer.count % length = 0) {line : Text}
    (positive : 0 < length) (full : line.length = length) :
    line.foldl (put length) writer =
      ⟨writer.output ++ (line ++ lineBreak), writer.count + length⟩ := by
  have filled : line ≠ [] := List.ne_nil_of_length_pos (by omega)
  obtain ⟨init, last, rfl⟩ : ∃ init last, line = init ++ [last] :=
    ⟨_, _, (List.dropLast_concat_getLast filled).symm⟩
  rw [List.length_append, List.length_singleton] at full
  have room : writer.count % length + init.length < length := by omega
  have ended : (writer.count + init.length + 1) % length = 0 := by
    rw [Nat.add_assoc, full, Nat.add_mod_right, fresh]
  rw [List.foldl_append, foldl_put_of_room writer room, List.foldl_cons, List.foldl_nil, put,
    if_pos ended, Nat.add_assoc, full]
  simp

/-- From a line start on, the writer puts out the lines of the text. -/
theorem close_foldl_put (positive : 0 < length) (t : Text) (writer : LineWriter)
    (fresh : writer.count % length = 0) :
    (t.foldl (put length) writer).close length =
      writer.output ++ ((lines length t).flatMap (fun line => line ++ lineBreak) ++ lineBreak) := by
  by_cases empty : t = []
  · rw [empty, lines_nil, List.foldl_nil, close, if_pos fresh]
    simp
  have filled : 0 < t.length := List.length_pos_iff.2 empty
  rw [lines_of_ne_nil positive empty, List.flatMap_cons]
  by_cases short : t.length < length
  · have column : (writer.count + t.length) % length = t.length := by
      rw [Nat.add_mod, fresh, Nat.zero_add, Nat.mod_mod, Nat.mod_eq_of_lt short]
    have unfinished : (writer.count + t.length) % length ≠ 0 := by omega
    rw [foldl_put_of_room writer (by omega), close, if_neg unfinished,
      List.take_of_length_le (by omega), List.drop_eq_nil_of_le (by omega), lines_nil]
    simp
  · have full : (t.take length).length = length := by
      rw [List.length_take]
      omega
    have again : (writer.count + length) % length = 0 := by
      rw [Nat.add_mod_right, fresh]
    have rest := close_foldl_put positive (t.drop length)
      ⟨writer.output ++ (t.take length ++ lineBreak), writer.count + length⟩ again
    rw [← foldl_put_of_full fresh positive full, ← List.foldl_append,
      List.take_append_drop] at rest
    rw [rest, foldl_put_of_full fresh positive full]
    simp
termination_by t.length
decreasing_by
  rw [List.length_drop]
  omega

end LineWriter

/-! ## Lines -/

/-- A text is cut into lines of a given length, the last of which may be shorter. No line cuts a
group of four in two: the groups of the text are counted from its start, and every line is made of
whole ones. -/
structure IsCutInto (length : Nat) (t : Text) (content : List Text) : Prop where
  whole : content.flatten = t
  full : ∀ line ∈ content.dropLast, line.length = length
  fits : ∀ line ∈ content, 0 < line.length ∧ line.length ≤ length
  groups : ∀ line ∈ content, line.length % 4 = 0
  unbroken : ∀ line ∈ content, ∀ c ∈ line, c ∉ lineBreak

/-- Every line but the last one is full. -/
theorem length_of_mem_dropLast_lines {length : Nat} (positive : 0 < length) (t : Text) :
    ∀ line ∈ (lines length t).dropLast, line.length = length := by
  by_cases empty : t = []
  · rw [empty, lines_nil]
    exact nofun
  have filled : 0 < t.length := List.length_pos_iff.2 empty
  have others := length_of_mem_dropLast_lines positive (t.drop length)
  intro line mem
  rw [lines_of_ne_nil positive empty] at mem
  by_cases more : t.drop length = []
  · rw [more, lines_nil] at mem
    cases mem
  · have next : lines length (t.drop length) ≠ [] := by
      rw [lines_of_ne_nil positive more]
      exact List.cons_ne_nil _ _
    rw [List.dropLast_cons_of_ne_nil next, List.mem_cons] at mem
    rcases mem with rfl | mem
    · have left : 0 < (t.drop length).length := List.length_pos_iff.2 more
      rw [List.length_drop] at left
      rw [List.length_take]
      omega
    · exact others line mem
termination_by t.length
decreasing_by
  rw [List.length_drop]
  omega

/-- A line is neither empty nor too long, and of whole groups if the text is. -/
theorem length_of_mem_lines {length : Nat} (positive : 0 < length) (groups : length % 4 = 0)
    (t : Text) (whole : t.length % 4 = 0) :
    ∀ line ∈ lines length t,
      (0 < line.length ∧ line.length ≤ length) ∧ line.length % 4 = 0 := by
  by_cases empty : t = []
  · rw [empty, lines_nil]
    exact nofun
  have filled : 0 < t.length := List.length_pos_iff.2 empty
  have left : (t.drop length).length % 4 = 0 := by
    rw [List.length_drop]
    omega
  have others := length_of_mem_lines positive groups (t.drop length) left
  rw [lines_of_ne_nil positive empty, List.forall_mem_cons, List.length_take]
  exact ⟨by omega, others⟩
termination_by t.length
decreasing_by
  rw [List.length_drop]
  omega

theorem length_encode_mod (bytes : List UInt8) : (encode bytes).length % 4 = 0 := by
  induction bytes using encode.induct with
  | case1 => rfl
  | case2 a =>
    have four : (encode [a]).length = 4 := rfl
    rw [four]
  | case3 a b =>
    have four : (encode [a, b]).length = 4 := rfl
    rw [four]
  | case4 a b c rest p q r s _ ih =>
    have longer : (encode (a :: b :: c :: rest)).length = (encode rest).length + 4 := rfl
    omega

/-- Neither a digit nor a pad is part of a line break. -/
theorem not_mem_lineBreak_of_mem_encode (bytes : List UInt8) :
    ∀ c ∈ encode bytes, c ∉ lineBreak := by
  have digits : ∀ n, digit n ∉ lineBreak := by decide
  exact forall_mem_encode digits (by decide) bytes

theorem lines_encode_isCutInto {length : Nat} (positive : 0 < length) (groups : length % 4 = 0)
    (bytes : List UInt8) : IsCutInto length (encode bytes) (lines length (encode bytes)) := by
  have whole := flatten_lines positive (encode bytes)
  have sizes := length_of_mem_lines positive groups (encode bytes) (length_encode_mod bytes)
  refine ⟨whole, length_of_mem_dropLast_lines positive _, ?_, ?_, ?_⟩
  · intro line mem
    exact (sizes line mem).1
  · intro line mem
    exact (sizes line mem).2
  · intro line mem c inside
    have written : c ∈ encode bytes := by
      rw [← whole]
      exact List.mem_flatten_of_mem mem inside
    exact not_mem_lineBreak_of_mem_encode bytes c written

/-- For any length of whole groups, bytes in lines are what the writer makes of the same bytes on a
single line. So they come in lines that are full but for the last one, none is too long, and no
group of four is cut in two; behind the break of the last line stands one more. -/
theorem encodeLines_eq_write {length : Int} (positive : 0 < length) (groups : length % 4 = 0)
    (bytes : List UInt8) :
    ∃ single text content, encodeLines bytes 0 = .ok single ∧
      encodeLines bytes length = .ok text ∧
      text = LineWriter.write length.toNat single ∧
      text = content.flatMap (fun line => line ++ lineBreak) ++ lineBreak ∧
      IsCutInto length.toNat single content := by
  have accepted : ¬(length < 0 ∨ length % 4 ≠ 0) := by omega
  have several : length ≠ 0 := by omega
  have room : 0 < length.toNat := by omega
  have written := LineWriter.close_foldl_put room (encode bytes) .start (Nat.zero_mod _)
  rw [LineWriter.start, List.nil_append] at written
  refine ⟨encode bytes, _, lines length.toNat (encode bytes), rfl, ?_, written.symm, rfl, ?_⟩
  · rw [encodeLines, if_neg accepted, if_neg several]
  · exact lines_encode_isCutInto room (by omega) bytes

/-- A full line and a partial one. -/
theorem encodeLines_eq_write_partial :
    0 < (8 : Int) ∧ (8 : Int) % 4 = 0 ∧
      encodeLines [0x68, 0x65, 0x6C, 0x6C, 0x6F, 0x21, 0x21] 8 =
        .ok "aGVsbG8h\r\nIQ==\r\n\r\n" ∧
      LineWriter.write 8 "aGVsbG8hIQ==" = "aGVsbG8h\r\nIQ==\r\n\r\n" := by
  have positive : 0 < (8 : Int) := by decide
  have groups : (8 : Int) % 4 = 0 := by decide
  have written : LineWriter.write 8 "aGVsbG8hIQ==" = "aGVsbG8h\r\nIQ==\r\n\r\n" := by decide
  obtain ⟨single, text, -, plain, wrapped, streamed, -⟩ :=
    encodeLines_eq_write positive groups [0x68, 0x65, 0x6C, 0x6C, 0x6F, 0x21, 0x21]
  have content : single = "aGVsbG8hIQ==" := (Except.ok.inj plain).symm
  rw [content] at streamed
  refine ⟨positive, groups, ?_, written⟩
  rw [wrapped, streamed]
  exact congrArg Except.ok written

end PropertyToolkit.Base64
