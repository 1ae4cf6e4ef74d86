import PropertyToolkit.Proofs.Yaml.Composition
import PropertyToolkit.Yaml.Depth

/-!
Texts whose collections enclose each other too deeply. What is read of such a text stops before its
end, so it never gives a document; any other text is read as if there were no limit.
-/

set_option autoImplicit false

namespace PropertyToolkit.Yaml

variable {most : Nat}

theorem streamEnd_not_mem_cutFrom {around : List Enclosure} {tokens : List Token}
    (deep : most < depthFrom around tokens) : Token.streamEnd ∉ cutFrom most around tokens := by
  induction tokens generalizing around with
  | nil => exact absurd deep (Nat.not_lt_zero most)
  | cons token rest ih =>
    rw [depthFrom] at deep
    split at deep
    · exact absurd deep (Nat.not_lt_zero most)
    · next before =>
      rw [cutFrom]
      dsimp only at deep ⊢
      split
      · exact List.not_mem_nil
      · next shallow =>
        have later : most < depthFrom (Enclosure.past token around) rest := by omega
        exact List.not_mem_cons_of_ne_of_not_mem (Ne.symm before) (ih later)

/-- Tokens that neither open nor close anything do not count. -/
theorem depthFrom_append_le {around : List Enclosure} {tokens rest : List Token}
    (kept : ∀ token ∈ tokens, Enclosure.past token around = around) (few : around.length ≤ most)
    (later : depthFrom around rest ≤ most) : depthFrom around (tokens ++ rest) ≤ most := by
  induction tokens with
  | nil => exact later
  | cons token tokens ih =>
    obtain ⟨first, others⟩ := List.forall_mem_cons.1 kept
    rw [List.cons_append, depthFrom]
    split
    · exact Nat.zero_le most
    · rw [first]
      exact Nat.max_le_of_le_of_le few (ih others)

namespace TokenStream

theorem within_of_depth_le {stream : TokenStream} (shallow : stream.depth ≤ most) :
    stream.within most = stream := if_neg (Nat.not_lt_of_le shallow)

theorem within_of_lt_depth {stream : TokenStream} (deep : most < stream.depth) :
    stream.within most = ⟨cutFrom most [] stream.tokens, some .tooDeep⟩ := if_pos deep

end TokenStream

/-- A document is that of all tokens, which lie nowhere too deep. -/
theorem Document.ofStream_within_meets (most : Nat) (stream : TokenStream) :
    Meets (fun fault => stream.EndsIn fault ∨ most < stream.depth ∧ fault = .tooDeep)
      (fun document => stream.depth ≤ most ∧ document.Of stream)
      (Document.ofStream (stream.within most)) := by
  by_cases deep : most < stream.depth
  · rw [TokenStream.within_of_lt_depth deep]
    refine (Document.ofStream_meets _).mono (fun fault ends => ?_) fun document given => ?_
    · rcases ends with malformed | ended
      · exact .inl (.inl malformed)
      · exact .inr ⟨deep, (Option.some.inj ended).symm⟩
    · exact absurd given.ended (streamEnd_not_mem_cutFrom deep)
  · have shallow := Nat.le_of_not_lt deep
    rw [TokenStream.within_of_depth_le shallow]
    exact (Document.ofStream_meets stream).mono (fun _ => .inl) fun _ given => ⟨shallow, given⟩

end PropertyToolkit.Yaml
