import PropertyToolkit.Proofs.Substitution.Journal

/-!
Spans read as a text whose code points carry names. Two operations work on spans: one collects the
names of a stretch, one puts a span in its place. Both are defined by cuts at the ends of the
stretch. Each can also be done in one walk over the spans, which asks of every span how it lies to
the stretch; where no span is empty, walk and cuts agree.

A turn of an expansion is one such replacement. So as far as an expansion has come, its spans read
as the text with the values put in that were found, and a code point carries only names that were
looked up for it.
-/

set_option autoImplicit false

namespace PropertyToolkit.Substitution

open Marked

theorem Marked.mem_origins {m : Marked} {name : Text} :
    name ∈ m.origins ↔ ∃ entry ∈ m, name ∈ entry.2 := by
  induction m with
  | nil => simp
  | cons entry rest ih => simp [ih]

namespace Span

/-- No span is without text. -/
def Filled (spans : List Span) : Prop := ∀ span ∈ spans, span.text ≠ []

variable {spans : List Span}

theorem Filled.backed (filled : Filled spans) : Backed spans :=
  fun span mem empty => absurd empty (filled span mem)

theorem Filled.tail {span : Span} (filled : Filled (span :: spans)) : Filled spans :=
  fun other mem => filled other (List.mem_cons_of_mem span mem)

theorem Filled.length_pos {span : Span} (filled : Filled (span :: spans)) :
    0 < span.text.length :=
  List.length_pos_of_ne_nil (filled span List.mem_cons_self)

theorem takeText_zero (filled : Filled spans) : takeText 0 spans = [] := by
  cases spans with
  | nil => rfl
  | cons span rest => rw [takeText, if_neg (Nat.not_le_of_lt filled.length_pos), if_pos rfl]

theorem dropText_zero (filled : Filled spans) : dropText 0 spans = spans := by
  cases spans with
  | nil => rfl
  | cons span rest =>
    rw [dropText, if_neg (Nat.not_le_of_lt filled.length_pos), List.drop_zero]

theorem filled_takeText (filled : Filled spans) (n : Nat) : Filled (takeText n spans) := by
  induction spans generalizing n with
  | nil => exact filled
  | cons span rest ih =>
    unfold takeText
    split
    · exact List.forall_mem_cons.2 ⟨filled span List.mem_cons_self, ih filled.tail _⟩
    · split
      · exact fun _ mem => absurd mem List.not_mem_nil
      · next positive =>
        refine List.forall_mem_singleton.2 fun empty => ?_
        rcases List.take_eq_nil_iff.1 empty with none | none
        · exact positive none
        · exact filled span List.mem_cons_self none

theorem filled_dropText (filled : Filled spans) (n : Nat) : Filled (dropText n spans) := by
  induction spans generalizing n with
  | nil => exact filled
  | cons span rest ih =>
    unfold dropText
    split
    · exact ih filled.tail _
    · next short =>
      refine List.forall_mem_cons.2 ⟨fun empty => ?_, filled.tail⟩
      exact short (List.drop_eq_nil_iff.1 empty)

theorem filled_splice (filled : Filled spans) (start stop : Nat) (replacement : Span) :
    Filled (splice spans start stop replacement) := by
  refine List.forall_mem_append.2 ⟨filled_takeText filled start,
    List.forall_mem_append.2 ⟨?_, filled_dropText filled stop⟩⟩
  split
  · exact fun _ mem => absurd mem List.not_mem_nil
  · next present => exact List.forall_mem_singleton.2 present

/-- A stretch of a list holds what stands at its positions. -/
theorem mem_stretch_iff {α : Type} {l : List α} {start stop : Nat} {x : α} :
    x ∈ (l.take stop).drop start ↔ ∃ i, start ≤ i ∧ i < stop ∧ l[i]? = some x := by
  rw [List.mem_iff_getElem?]
  constructor
  · rintro ⟨k, at_⟩
    rw [List.getElem?_drop, List.getElem?_take] at at_
    split at at_
    · next inside => exact ⟨start + k, Nat.le_add_right start k, inside, at_⟩
    · cases at_
  · rintro ⟨i, after, inside, here⟩
    refine ⟨i - start, ?_⟩
    rw [List.getElem?_drop, Nat.add_sub_cancel' after, List.getElem?_take, if_pos inside, here]

/-- The names of a stretch are those behind its code points. -/
theorem mem_originsBetween_iff (backed : Backed spans) {start stop : Nat} {name : Text} :
    name ∈ originsBetween spans start stop ↔
      ∃ i entry, start ≤ i ∧ i < stop ∧ (tagged spans)[i]? = some entry ∧ name ∈ entry.2 := by
  rw [← List.mem_toFinset, toFinset_originsBetween backed, mem_origins]
  unfold marked
  simp only [mem_stretch_iff, List.getElem?_map, Option.map_eq_some_iff]
  constructor
  · rintro ⟨_, ⟨i, after, inside, entry, here, rfl⟩, mem⟩
    exact ⟨i, entry, after, inside, here, List.mem_toFinset.1 mem⟩
  · rintro ⟨i, entry, after, inside, here, mem⟩
    exact ⟨_, ⟨i, after, inside, entry, here, rfl⟩, List.mem_toFinset.2 mem⟩

section Walk

variable (start stop : Nat)

/-- The names of the spans that meet the stretch, where the first span begins at `offset`. -/
def originsAlong : Nat → List Span → Names
  | _, [] => []
  | offset, span :: rest =>
    let ending := offset + span.text.length
    let later := originsAlong ending rest
    if offset < stop ∧ start < ending then span.origins.union later else later

/-- What a span that begins at `offset` leaves: its text before the stretch, the replacement if the
stretch begins in it, its text after the stretch. -/
def pieces (replacement : Span) (offset : Nat) (span : Span) : List Span :=
  let ending := offset + span.text.length
  (if offset < start then [⟨span.text.take (start - offset), span.origins⟩] else []) ++
    ((if start < ending ∧ offset ≤ start then [replacement] else []) ++
      (if stop < ending then [⟨span.text.drop (stop - offset), span.origins⟩] else []))

def spliceAlong (replacement : Span) : Nat → List Span → List Span
  | _, [] => []
  | offset, span :: rest =>
    pieces start stop replacement offset span ++
      spliceAlong replacement (offset + span.text.length) rest

variable {start stop : Nat}

theorem originsBetween_zero (filled : Filled spans) : originsBetween spans start 0 = [] := by
  rw [originsBetween, takeText_zero filled]
  rfl

theorem originsAlong_eq (filled : Filled spans) (ordered : start < stop) (offset : Nat) :
    originsAlong start stop offset spans =
      originsBetween spans (start - offset) (stop - offset) := by
  induction spans generalizing offset with
  | nil => rfl
  | cons span rest ih =>
    have long := filled.length_pos
    rw [originsAlong, ih filled.tail, Nat.sub_add_eq, Nat.sub_add_eq]
    by_cases covered : span.text.length ≤ stop - offset
    · have kept : takeText (stop - offset) (span :: rest) =
          span :: takeText (stop - offset - span.text.length) rest := by
        rw [takeText, if_pos covered]
      simp only [originsBetween, kept]
      by_cases before : span.text.length ≤ start - offset
      · rw [dropText, if_pos before, if_neg (by omega)]
      · have begun : start - offset - span.text.length = 0 := by omega
        rw [dropText, if_neg before, if_pos (by omega), begun,
          dropText_zero (filled_takeText filled.tail _)]
        rfl
    · have passed : stop - offset - span.text.length = 0 := by omega
      rw [passed, originsBetween_zero filled.tail]
      by_cases past : stop - offset = 0
      · rw [past, originsBetween_zero filled, if_neg (by omega)]
      · have partly : ¬ (span.text.take (stop - offset)).length ≤ start - offset := by
          rw [List.length_take]
          omega
        rw [if_pos (by omega), originsBetween, takeText, if_neg covered, if_neg past, dropText,
          if_neg partly]
        rfl

/-- What a span leaves after the stretch, with all that follows the span. -/
theorem dropText_cons {span : Span} (filled : Filled (span :: spans)) (offset : Nat) :
    (if stop < offset + span.text.length then [⟨span.text.drop (stop - offset), span.origins⟩]
      else []).filter (·.text ≠ []) ++ dropText (stop - (offset + span.text.length)) spans =
      dropText (stop - offset) (span :: spans) := by
  have long := filled.length_pos
  rw [dropText]
  by_cases covered : span.text.length ≤ stop - offset
  · rw [if_pos covered, if_neg (by omega), Nat.sub_add_eq]
    rfl
  · have passed : stop - (offset + span.text.length) = 0 := by omega
    have left : span.text.drop (stop - offset) ≠ [] := by rwa [ne_eq, List.drop_eq_nil_iff]
    rw [if_neg covered, if_pos (by omega), passed, dropText_zero filled.tail]
    simp [left]

theorem spliceAlong_of_lt (filled : Filled spans) (replacement : Span) {offset : Nat}
    (begun : start < offset) :
    (spliceAlong start stop replacement offset spans).filter (·.text ≠ []) =
      dropText (stop - offset) spans := by
  induction spans generalizing offset with
  | nil => rfl
  | cons span rest ih =>
    rw [spliceAlong, List.filter_append, ih filled.tail (by omega), pieces,
      if_neg (by omega), if_neg (by omega), List.nil_append, List.nil_append,
      dropText_cons filled]

theorem spliceAlong_of_le (filled : Filled spans) (replacement : Span) {offset : Nat}
    (ordered : start < stop) (ahead : offset ≤ start)
    (inside : start - offset < (joined spans).length) :
    (spliceAlong start stop replacement offset spans).filter (·.text ≠ []) =
      takeText (start - offset) spans ++
        ((if replacement.text = [] then [] else [replacement]) ++
          dropText (stop - offset) spans) := by
  induction spans generalizing offset with
  | nil => exact absurd inside (Nat.not_lt_zero _)
  | cons span rest ih =>
    have present := filled span List.mem_cons_self
    have long := filled.length_pos
    rw [spliceAlong, List.filter_append, pieces, takeText]
    by_cases before : span.text.length ≤ start - offset
    · have further : start - (offset + span.text.length) < (joined rest).length := by
        rw [joined_cons, List.length_append] at inside
        omega
      have whole : span.text.take (start - offset) = span.text := List.take_of_length_le before
      rw [ih filled.tail (by omega) further, dropText, if_pos before,
        if_pos (show offset < start by omega), if_neg (by omega), if_neg (by omega),
        if_pos (show span.text.length ≤ stop - offset by omega), whole]
      simp [present, Nat.sub_add_eq]
    · -- The stretch begins in this span.
      have left : (if offset < start then [(⟨span.text.take (start - offset), span.origins⟩ : Span)]
          else []).filter (·.text ≠ []) =
          if start - offset = 0 then [] else [⟨span.text.take (start - offset), span.origins⟩] := by
        by_cases begun : offset < start
        · have some : start - offset ≠ 0 := by omega
          rw [if_pos begun, if_neg some]
          simp [present, some]
        · rw [if_neg begun, if_pos (by omega)]
          rfl
      rw [spliceAlong_of_lt filled.tail replacement (by omega), if_neg before,
        if_pos (show start < offset + span.text.length ∧ offset ≤ start by omega),
        List.filter_append, List.filter_append, List.append_assoc, List.append_assoc,
        dropText_cons filled, left]
      congr 2
      by_cases gone : replacement.text = [] <;> simp [gone]

end Walk

/-- A splice puts one text in the place of another. -/
theorem joined_splice (spans : List Span) (start stop : Nat) (replacement : Span) :
    joined (splice spans start stop replacement) =
      (joined spans).take start ++ (replacement.text ++ (joined spans).drop stop) := by
  simp only [← map_fst_tagged, tagged_splice, List.map_append, List.map_take, List.map_drop]
  simp [Function.comp_def]

end Span

/-- The text after its next placeholder has given way to a value. -/
def replaceNext (t value : Text) : Text :=
  match scan t with
  | .placeholder before _ after => before ++ (value ++ after)
  | _ => t

/-- The values that took the places of placeholders, in order. -/
def foundValues (journal : Journal) : List Text :=
  journal.filterMap fun event =>
    match event with
    | .resolved _ value => some value
    | .asked .. => none

namespace Progress

open Substitution.Span

variable {responder : Responder} {progress : Progress} {name : Text}

theorem exists_splice_of_aim {next : Text → List Span} (aim : progress.aim = .lookUp name next) :
    ∃ before after start stop, scan (joined progress.spans) = .placeholder before name after ∧
      start = before.length ∧
      stop = start + (opening.length + name.length + closing.length) ∧
      next = fun value => splice progress.spans start stop
        ⟨value, (originsBetween progress.spans start stop).union [name]⟩ := by
  unfold Progress.aim at aim
  dsimp only at aim
  split at aim
  · cases aim
  · cases aim
  · next found =>
    split at aim
    · cases aim
    · cases aim
      exact ⟨_, _, _, _, found, rfl, rfl, rfl⟩

theorem joined_of_aim {next : Text → List Span} (aim : progress.aim = .lookUp name next)
    (value : Text) : joined (next value) = replaceNext (joined progress.spans) value := by
  obtain ⟨before, after, start, stop, scanned, begins, ends, rfl⟩ := exists_splice_of_aim aim
  have same := eq_of_scan scanned
  have left : (joined progress.spans).take start = before := by
    rw [same, begins, List.take_left]
  have right : (joined progress.spans).drop stop = after := by
    have whole : joined progress.spans = (before ++ (opening ++ name ++ closing)) ++ after := by
      rw [same]
      simp only [List.append_assoc]
    rw [whole, List.drop_left']
    rw [ends, begins]
    simp only [List.length_append]
  rw [joined_splice, left, right, replaceNext, scanned]

/-- A value brings its own name, and passes on names that were there. -/
theorem tagged_of_aim {next : Text → List Span} (aim : progress.aim = .lookUp name next)
    (backed : Backed progress.spans) {value other : Text} {entry : CodePoint × Names}
    (mem : entry ∈ tagged (next value)) (names : other ∈ entry.2) :
    other = name ∨ ∃ old ∈ tagged progress.spans, other ∈ old.2 := by
  obtain ⟨before, after, start, stop, -, -, -, rfl⟩ := exists_splice_of_aim aim
  rw [tagged_splice, List.mem_append, List.mem_append] at mem
  rcases mem with kept | put | kept
  · exact Or.inr ⟨entry, List.mem_of_mem_take kept, names⟩
  · obtain ⟨c, -, rfl⟩ := List.mem_map.1 put
    rcases Names.mem_union.1 names with passed | own
    · obtain ⟨i, old, -, -, here, has⟩ := (mem_originsBetween_iff backed).1 passed
      exact Or.inr ⟨old, List.mem_of_getElem? here, has⟩
    · exact Or.inl (List.mem_singleton.1 own)
  · exact Or.inr ⟨entry, List.mem_of_mem_drop kept, names⟩

theorem foundValues_resolved (value : Text) :
    foundValues (progress.journal ++ (progress.questions responder name ++
      [.resolved name value])) = foundValues progress.journal ++ [value] := by
  have asked : foundValues (progress.questions responder name) = [] := by
    refine List.filterMap_eq_nil_iff.2 fun event mem => ?_
    obtain ⟨side, rfl⟩ := Responder.exists_of_mem_questions mem
    rfl
  simp only [foundValues, List.filterMap_append] at asked ⊢
  rw [asked]
  rfl

/-- The spans of an expansion of `t` read as `t` with the values found so far put in, and they name
nothing but what was looked up for it. -/
structure Traced (t : Text) (progress : Progress) : Prop where
  text : joined progress.spans = (foundValues progress.journal).foldl replaceNext t
  origins : ∀ entry ∈ tagged progress.spans, ∀ name ∈ entry.2, name ∈ lookups progress.journal
  backed : Backed progress.spans
  filled : t ≠ [] → Filled progress.spans
  answered : Answered progress.journal

theorem traced_start (t : Text) (key : Option Text) (busy : Names) :
    Traced t (start t key busy) where
  text := List.append_nil t
  origins := by
    intro entry mem name names
    obtain ⟨_, _, rfl⟩ := List.mem_map.1 (List.mem_append.1 mem |>.resolve_right List.not_mem_nil)
    exact names
  backed := backed_start t key busy
  filled present := List.forall_mem_singleton.2 present
  answered := answered_nil

theorem Traced.turn {t : Text} (traced : Traced t progress) {next : Progress}
    (continued : progress.turn responder = .continued next) : Traced t next := by
  have answered := answered_of_continued continued
  have takes := turn_takes responder progress
  rw [continued] at takes
  cases takes with
  | @resolved name value _ aim found =>
    have text := joined_of_aim aim value
    have origins := @tagged_of_aim _ _ _ aim traced.backed value
    obtain ⟨_, _, start, stop, -, -, -, rfl⟩ := exists_splice_of_aim aim
    refine ⟨?_, ?_, backed_splice traced.backed _ _ _,
      fun present => filled_splice (traced.filled present) _ _ _, answered⟩
    · rw [foundValues_resolved, List.foldl_concat, ← traced.text, text]
    · intro entry mem other names
      rw [lookups_resolved traced.answered, List.mem_append]
      rcases origins mem names with rfl | ⟨old, was, has⟩
      · exact Or.inr (List.mem_singleton_self other)
      · exact Or.inl (traced.origins old was other has)

/-- However far an expansion has come, its spans can be traced back to its text. -/
theorem traced_of_within {n : Nat} {t : Text} {key : Option Text} {busy : Names}
    (within : expandWithin responder n t key busy = .continued progress) : Traced t progress := by
  unfold expandWithin at within
  rcases turns_of_preserved (fun _ _ before => before.turn) (traced_start t key busy) n with
    ⟨next, same, traced⟩ | ⟨last, expansion, -, -, same⟩
  · rw [same] at within
    cases within
    exact traced
  · rw [same] at within
    cases within

end Progress

/-- Cutting spans touches each code point as its position says, and every expansion, as far as it
has come, has each code point with names that it looked up. -/
theorem spans_keep_origins :
    (∀ spans, Span.Filled spans → ∀ start stop, start < stop →
      stop ≤ (Span.joined spans).length → ∀ replacement : Span,
        (∀ name, name ∈ Span.originsBetween spans start stop ↔
          ∃ i entry, start ≤ i ∧ i < stop ∧ (Span.tagged spans)[i]? = some entry ∧
            name ∈ entry.2) ∧
        Span.originsAlong start stop 0 spans = Span.originsBetween spans start stop ∧
        Span.tagged (Span.splice spans start stop replacement) =
          (Span.tagged spans).take start ++
            (replacement.text.map (fun c => (c, replacement.origins)) ++
              (Span.tagged spans).drop stop) ∧
        Span.Filled (Span.splice spans start stop replacement) ∧
        (Span.spliceAlong start stop replacement 0 spans).filter (·.text ≠ []) =
          Span.splice spans start stop replacement) ∧
    ∀ responder n t key busy progress,
      expandWithin responder n t key busy = .continued progress →
        Span.joined progress.spans = (foundValues progress.journal).foldl replaceNext t ∧
        (t ≠ [] → Span.Filled progress.spans) ∧
        ∀ entry ∈ Span.tagged progress.spans, ∀ name ∈ entry.2,
          name ∈ lookups progress.journal := by
  constructor
  · intro spans filled start stop ordered inside replacement
    exact ⟨fun name => Span.mem_originsBetween_iff filled.backed,
      Span.originsAlong_eq filled ordered 0, Span.tagged_splice spans start stop replacement,
      Span.filled_splice filled start stop replacement,
      Span.spliceAlong_of_le filled replacement ordered (Nat.zero_le start) (by omega)⟩
  · intro responder n t key busy progress within
    have traced := Progress.traced_of_within within
    exact ⟨traced.text, traced.filled, traced.origins⟩

/-- A stretch may begin and end in one span, the second of these. -/
def threeSpans : List Span := [⟨"ab", ["x"]⟩, ⟨"cdef", ["y"]⟩, ⟨"g", []⟩]

def chained : Sources :=
  ⟨some (.ofTable ⟨[("a", "b"), ("b", "v")], by decide +kernel⟩), none⟩

theorem spans_keep_origins_nested :
    (3 < 5 ∧ Span.Filled threeSpans ∧ ("y" : Text) ∈ Span.originsBetween threeSpans 3 5 ∧
      Span.tagged (Span.splice threeSpans 3 5 ⟨[], ["z"]⟩) =
        (Span.tagged threeSpans).take 3 ++ (Span.tagged threeSpans).drop 5) ∧
    ∃ progress, expandWithin chained.responder 2 "$\x7b$\x7ba\x7d\x7d" none [] =
        .continued progress ∧
      Span.joined progress.spans = ("v" : Text) ∧
      ∀ entry ∈ Span.tagged progress.spans, ∀ name ∈ entry.2, name ∈ lookups progress.journal := by
  have filled : Span.Filled threeSpans := by
    unfold Span.Filled
    decide +kernel
  obtain ⟨origins, -, spliced, -⟩ := spans_keep_origins.1 threeSpans filled 3 5 (by decide)
    (by decide +kernel) ⟨[], ["z"]⟩
  let last : Progress :=
    ⟨[⟨"v", ["a", "b"]⟩], [], [.asked .primary "a" ["a"], .resolved "a" "b",
      .asked .primary "b" ["b"], .resolved "b" "v"]⟩
  have reached : expandWithin chained.responder 2 "$\x7b$\x7ba\x7d\x7d" none [] =
      .continued last := by rfl
  obtain ⟨text, -, names⟩ := spans_keep_origins.2 _ _ _ _ _ _ reached
  exact ⟨⟨by decide, filled, (origins "y").2 ⟨3, ('d', ["y"]), by decide +kernel⟩, spliced⟩,
    last, reached, text, names⟩

end PropertyToolkit.Substitution
