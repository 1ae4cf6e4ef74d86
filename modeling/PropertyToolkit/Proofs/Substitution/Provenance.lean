import Mathlib.Data.Finset.Dedup
import PropertyToolkit.Proofs.Substitution.Runs

/-!
Spans are one way of keeping a marked text. Turns on spans are moves on the text they mark, and an
expansion sets out from the text without marks.
-/

set_option autoImplicit false

namespace PropertyToolkit.Substitution

open Marked

theorem Names.toFinset_union_singleton (origins : Names) (name : Text) :
    (origins.union [name]).toFinset = insert name origins.toFinset := by
  ext other
  simp [or_comm]

namespace Span

/-- The marked text of a list of spans. -/
def marked (spans : List Span) : Marked :=
  (tagged spans).map fun entry => (entry.1, entry.2.toFinset)

/-- A span that has lost its text has no names to pass on. -/
def Backed (spans : List Span) : Prop := ∀ span ∈ spans, span.text = [] → span.origins = []

@[simp] theorem text_marked (spans : List Span) : (marked spans).text = joined spans := by
  rw [← map_fst_tagged]
  simp [marked, Marked.text, Function.comp_def]

theorem marked_cons (span : Span) (rest : List Span) :
    marked (span :: rest) = mark span.text span.origins.toFinset ++ marked rest := by
  simp [marked, mark, Function.comp_def]

theorem marked_takeText (n : Nat) (spans : List Span) :
    marked (takeText n spans) = (marked spans).take n := by
  rw [marked, tagged_takeText, List.map_take, marked]

theorem marked_dropText (n : Nat) (spans : List Span) :
    marked (dropText n spans) = (marked spans).drop n := by
  rw [marked, tagged_dropText, List.map_drop, marked]

theorem marked_splice (spans : List Span) (start stop : Nat) (replacement : Span) :
    marked (splice spans start stop replacement) =
      (marked spans).take start ++
        (mark replacement.text replacement.origins.toFinset ++ (marked spans).drop stop) := by
  simp only [marked, tagged_splice, List.map_append, List.map_take, List.map_drop, mark,
    List.map_map, Function.comp_def]

theorem backed_takeText {spans : List Span} (backed : Backed spans) (n : Nat) :
    Backed (takeText n spans) := by
  induction spans generalizing n with
  | nil => simpa only [takeText] using backed
  | cons span rest ih =>
    have tail : Backed rest := fun other mem => backed other (List.mem_cons_of_mem span mem)
    unfold takeText
    split
    · intro other mem
      rcases List.mem_cons.1 mem with rfl | later
      · exact backed other List.mem_cons_self
      · exact ih tail _ other later
    · next short =>
      split
      · intro other mem
        cases mem
      · next positive =>
        intro other mem empty
        rw [List.mem_singleton.1 mem] at empty
        have length := congrArg List.length empty
        rw [List.length_take, List.length_nil] at length
        omega

theorem backed_dropText {spans : List Span} (backed : Backed spans) (n : Nat) :
    Backed (dropText n spans) := by
  induction spans generalizing n with
  | nil => simpa only [dropText] using backed
  | cons span rest ih =>
    have tail : Backed rest := fun other mem => backed other (List.mem_cons_of_mem span mem)
    unfold dropText
    split
    · exact ih tail _
    · next short =>
      intro other mem empty
      rcases List.mem_cons.1 mem with rfl | later
      · have length := congrArg List.length empty
        rw [List.length_drop, List.length_nil] at length
        omega
      · exact tail other later empty

theorem backed_splice {spans : List Span} (backed : Backed spans) (start stop : Nat)
    (replacement : Span) : Backed (splice spans start stop replacement) := by
  intro span mem
  unfold splice at mem
  rw [List.mem_append, List.mem_append] at mem
  rcases mem with left | here | right
  · exact backed_takeText backed start span left
  · split at here
    · cases here
    · next filled =>
      rw [List.mem_singleton.1 here]
      exact fun empty => absurd empty filled
  · exact backed_dropText backed stop span right

/-- Backed spans hold no name that the text does not. -/
theorem toFinset_foldr_origins {spans : List Span} (backed : Backed spans) :
    (spans.foldr (fun span names => span.origins.union names) []).toFinset =
      (marked spans).origins := by
  induction spans with
  | nil => rfl
  | cons span rest ih =>
    have tail : Backed rest := fun other mem => backed other (List.mem_cons_of_mem span mem)
    have unfolded : (span.origins.union
        (rest.foldr (fun span names => span.origins.union names) [])).toFinset =
        span.origins.toFinset ∪ (marked rest).origins := by
      rw [← ih tail]
      ext name
      simp
    rw [List.foldr_cons, unfolded, marked_cons, origins_append, origins_mark]
    split
    · next empty => rw [backed span List.mem_cons_self empty, List.toFinset_nil]
    · rfl

theorem toFinset_originsBetween {spans : List Span} (backed : Backed spans) (start stop : Nat) :
    (originsBetween spans start stop).toFinset =
      Marked.origins (((marked spans).take stop).drop start) := by
  rw [← marked_takeText, ← marked_dropText]
  exact toFinset_foldr_origins (backed_dropText (backed_takeText backed stop) start)

end Span

namespace Progress

/-- A turn goes the way of a move: it ends with the same result, or it goes on with spans that mark
the text which the move leads to. No name is left in progress. -/
inductive Follows (progress : Progress) : Move → Turn → Prop where
  | ended (result : Except Fault Text) (journal : Journal) :
      Follows progress (.ended result) (.ended ⟨result, progress.busy, journal⟩)
  | replaced {name : Text} {next : Marked} {later : Progress}
      (marks : Span.marked later.spans = next) (backed : Span.Backed later.spans)
      (balanced : later.busy = progress.busy) :
      Follows progress (.replaced name next) (.continued later)

theorem turn_follows (sources : Sources) {progress : Progress}
    (backed : Span.Backed progress.spans) :
    Follows progress (move sources.lookup progress.busy (Span.marked progress.spans))
      (progress.turn sources.responder) := by
  unfold move turn
  simp only [Span.text_marked]
  cases found : scan (Span.joined progress.spans) with
  | settled => exact .ended _ _
  | unopened => exact .ended _ _
  | placeholder before name after =>
    simp only [← Span.toFinset_originsBetween backed, List.mem_toFinset]
    split
    · exact .ended _ _
    · next fresh =>
      rw [not_or] at fresh
      have balanced : (progress.busy.insert name).erase name = progress.busy := by
        rw [List.insert_of_not_mem fresh.1, List.erase_cons_head]
      have answer := sources.lookup_responder name (progress.busy.insert name) progress.journal
      rw [← answer, balanced]
      cases sources.responder.lookup name (progress.busy.insert name) progress.journal with
      | mk reply journal =>
        cases reply with
        | error refusal => exact .ended _ _
        | ok value =>
          refine .replaced ?_ (Span.backed_splice backed _ _ _) rfl
          rw [Span.marked_splice, Names.toFinset_union_singleton]

theorem run_of_ended {responder : Responder} {finite : responder.Finite} {progress : Progress}
    {expansion : Expansion} (ended : progress.turn responder = .ended expansion) :
    progress.run responder finite = expansion := by
  rw [run]
  split
  · next other same =>
    rw [ended] at same
    exact (Turn.ended.inj same).symm
  · next next same =>
    rw [ended] at same
    cases same

theorem run_of_continued {responder : Responder} {finite : responder.Finite}
    {progress next : Progress} (continued : progress.turn responder = .continued next) :
    progress.run responder finite = next.run responder finite := by
  rw [run]
  split
  · next other same =>
    rw [continued] at same
    cases same
  · next other same =>
    rw [continued] at same
    rw [Turn.continued.inj same]

end Progress

/-- The names in progress for the time of an expansion. -/
def inProgress (key : Option Text) (busy : Names) : Names :=
  match key with
  | none => busy
  | some name => busy.insert name

/-- An expansion before its first turn. -/
def Progress.start (t : Text) (key : Option Text) (busy : Names) : Progress :=
  ⟨[⟨t, []⟩], inProgress key busy, []⟩

theorem expand_eq_run (sources : Sources) (t : Text) (key : Option Text) (busy : Names) :
    (expand sources t key busy).result =
        ((Progress.start t key busy).run sources.responder sources.responder_finite).result ∧
      (expand sources t key busy).journal =
        ((Progress.start t key busy).run sources.responder sources.responder_finite).journal := by
  unfold expand expandWith Progress.start inProgress
  cases key with
  | none => exact ⟨rfl, rfl⟩
  | some name =>
    simp only
    split
    · next known =>
      rw [List.insert_of_mem known]
      exact ⟨rfl, rfl⟩
    · exact ⟨rfl, rfl⟩

/-- An expansion sets out from the text without marks. -/
theorem Progress.marked_start (t : Text) (key : Option Text) (busy : Names) :
    Span.marked (start t key busy).spans = mark t ∅ := by
  rw [start, Span.marked_cons]
  exact List.append_nil _

theorem Progress.backed_start (t : Text) (key : Option Text) (busy : Names) :
    Span.Backed (start t key busy).spans := by
  intro span mem _
  rw [List.mem_singleton.1 mem]

end PropertyToolkit.Substitution
