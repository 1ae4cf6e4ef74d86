import PropertyToolkit.Proofs.Substitution.Scan

/-!
Templates: texts with placeholders, as trees. The name of a placeholder is again a template. A
template renders to a text, and reading that text gives a template of the same text back.
-/

set_option autoImplicit false

namespace PropertyToolkit.Substitution

/-- Text in which no placeholder opens or closes. -/
def Plain (t : Text) : Prop := ∀ c ∈ t, c ≠ CodePoint.ofChar '$' ∧ c ≠ closer

instance (t : Text) : Decidable (Plain t) := inferInstanceAs (Decidable (∀ c ∈ t, _))

theorem Plain.append {s t : Text} (first : Plain s) (second : Plain t) : Plain (s ++ t) :=
  fun c mem => (List.mem_append.1 mem).elim (first c) (second c)

theorem Plain.unclosed {t : Text} (plain : Plain t) : closer ∉ t :=
  fun mem => (plain closer mem).2 rfl

theorem Plain.innermost {t : Text} (plain : Plain t) : Innermost t where
  unclosed := plain.unclosed
  unopened := fun ⟨before, after, same⟩ =>
    have mem := List.mem_append_left after (List.mem_append_right before List.mem_cons_self)
    (plain _ (same ▸ mem)).1 rfl

inductive Template where
  | lit (t : Text) (plain : Plain t)
  | ref (name : Template)
  | cat (first second : Template)

namespace Template

def render : Template → Text
  | lit t _ => t
  | ref name => opening ++ (name.render ++ closing)
  | cat first second => first.render ++ second.render

/-- The names of the outermost placeholders, as they are written. -/
def mentions : Template → List Text
  | lit _ _ => []
  | ref name => [name.render]
  | cat first second => first.mentions ++ second.mentions

/-- The empty template. -/
def blank : Template := lit [] (fun _ mem => absurd mem List.not_mem_nil)

def size : Template → Nat
  | lit _ _ => 0
  | ref name => name.size + 1
  | cat first second => first.size + second.size + 1

/-- Reads a text on from a template that is open in other ones. What is no template is read up to
the place where it stops being one. -/
def readOnto (current : Template) (enclosing : List Template) : Text → Template
  | [] => current
  | c :: rest =>
    if dollar : c = CodePoint.ofChar '$' then
      match rest with
      | [] => current
      | _ :: rest => readOnto blank (current :: enclosing) rest
    else if brace : c = closer then
      match enclosing with
      | [] => current
      | outer :: enclosing => readOnto (cat outer (ref current)) enclosing rest
    else
      have plain : Plain [c] := fun d mem => by
        rw [List.mem_singleton.1 mem]
        exact ⟨dollar, brace⟩
      readOnto (cat current (lit [c] plain)) enclosing rest

/-- The template of a text. -/
def read (t : Text) : Template := readOnto blank [] t

theorem readOnto_plain {c : CodePoint} (plain : Plain [c]) (current : Template)
    (enclosing : List Template) (rest : Text) :
    readOnto current enclosing (c :: rest) =
      readOnto (cat current (lit [c] plain)) enclosing rest := by
  obtain ⟨dollar, brace⟩ := plain c List.mem_cons_self
  rw [readOnto.eq_def]
  simp only [dif_neg dollar, dif_neg brace]

theorem readOnto_opening (current : Template) (enclosing : List Template) (rest : Text) :
    readOnto current enclosing (opening ++ rest) = readOnto blank (current :: enclosing) rest := rfl

theorem readOnto_closing (current outer : Template) (enclosing : List Template) (rest : Text) :
    readOnto current (outer :: enclosing) (closing ++ rest) =
      readOnto (cat outer (ref current)) enclosing rest := by
  have apart : closer ≠ CodePoint.ofChar '$' := by decide
  rw [closing_eq, List.singleton_append, readOnto.eq_def]
  simp only [dif_neg apart, ↓reduceDIte]

theorem readOnto_lit {t : Text} (plain : Plain t) (current : Template)
    (enclosing : List Template) (rest : Text) :
    ∃ next, readOnto current enclosing (t ++ rest) = readOnto next enclosing rest ∧
      next.render = current.render ++ t ∧ next.mentions = current.mentions := by
  induction t generalizing current with
  | nil => exact ⟨current, rfl, (List.append_nil _).symm, rfl⟩
  | cons c tail ih =>
    obtain ⟨here, later⟩ := List.forall_mem_cons.1 plain
    have single : Plain [c] := List.forall_mem_singleton.2 here
    obtain ⟨next, reads, renders, same⟩ := ih later (cat current (lit [c] single))
    refine ⟨next, ?_, ?_, ?_⟩
    · rw [List.cons_append, readOnto_plain single, reads]
    · rw [renders, render, render, List.append_assoc, List.singleton_append]
    · rw [same, mentions, mentions, List.append_nil]

/-- A rendered template is read to its end, whatever it stands in. -/
theorem readOnto_render (template current : Template) (enclosing : List Template) (rest : Text) :
    ∃ next, readOnto current enclosing (template.render ++ rest) = readOnto next enclosing rest ∧
      next.render = current.render ++ template.render ∧
      next.mentions = current.mentions ++ template.mentions := by
  induction template generalizing current enclosing rest with
  | lit t plain =>
    rw [mentions, List.append_nil]
    exact readOnto_lit plain current enclosing rest
  | ref name ih =>
    obtain ⟨inner, reads, renders, -⟩ := ih blank (current :: enclosing) (closing ++ rest)
    have same : inner.render = name.render := renders
    refine ⟨cat current (ref inner), ?_, ?_, ?_⟩
    · rw [render, List.append_assoc, List.append_assoc, readOnto_opening, reads, readOnto_closing]
    · simp only [render, same]
    · simp only [mentions, same]
  | cat first second ihFirst ihSecond =>
    obtain ⟨mid, reads, renders, same⟩ := ihFirst current enclosing (second.render ++ rest)
    obtain ⟨next, readsOn, rendersOn, sameOn⟩ := ihSecond mid enclosing rest
    refine ⟨next, ?_, ?_, ?_⟩
    · rw [render, List.append_assoc, reads, readsOn]
    · rw [rendersOn, renders, render, List.append_assoc]
    · rw [sameOn, same, mentions, List.append_assoc]

theorem read_render (template : Template) :
    (read template.render).render = template.render ∧
      (read template.render).mentions = template.mentions := by
  obtain ⟨next, reads, renders, same⟩ := readOnto_render template blank [] []
  rw [List.append_nil] at reads
  rw [read, reads, readOnto]
  exact ⟨renders, same⟩

/-- Reading finds a template with the same text wherever there is one. -/
theorem render_read (template : Template) : (read template.render).render = template.render :=
  (read_render template).1

/-- What a template mentions shows in its text. -/
theorem mentions_read (template : Template) :
    (read template.render).mentions = template.mentions :=
  (read_render template).2

end Template

end PropertyToolkit.Substitution
