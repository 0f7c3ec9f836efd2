import ProtoSchema.Proofs.Text.Case
import ProtoSchema.Proofs.Token.Word

/-!
# Marks in a text

Every mark that a scan finds is a code point of its own in the text, so `count_mark_le` bounds the
marks among the lexemes of a text by those in the text. Neither a word nor its lower case has a mark
in it.
-/

namespace ProtoSchema.Lexer

/-- The tail of an identifier consists of ordinary code points. -/
theorem isOrdinary_of_mem_identifierTail {text : Text} {c : CodePoint}
    (h : c ∈ identifierTail text) : isOrdinary c := by
  induction text with
  | nil => exact absurd h List.not_mem_nil
  | cons d rest ih =>
      rw [identifierTail] at h
      split at h
      next hcontinues =>
        rcases List.mem_cons.mp h with rfl | h
        · rcases Bool.or_eq_true_iff.mp hcontinues with hplain | hdot
          · exact isOrdinary_of_continues hplain
          · simp [isOrdinary, (Bool.and_eq_true_iff.mp hdot).1]
        · exact ih h
      next => exact absurd h List.not_mem_nil

namespace IsWord

variable {word : Text}

/-- A word consists of ordinary code points. -/
theorem isOrdinary (h : IsWord word) {c : CodePoint} (hmem : c ∈ word) :
    Lexer.isOrdinary c := by
  obtain ⟨first, rest, rfl, hfirst⟩ := h.exists_cons
  rcases List.mem_cons.mp hmem with rfl | hmem
  · exact hfirst
  · rcases h with ⟨-, rfl | rfl⟩ | ⟨-, -, htail⟩
    · have hword : ∀ d ∈ Text.ofString "inf", Lexer.isOrdinary d := by decide
      exact hword c hmem
    · have hword : ∀ d ∈ Text.ofString "nan", Lexer.isOrdinary d := by decide
      exact hword c hmem
    · rw [← htail] at hmem
      exact isOrdinary_of_mem_identifierTail hmem

/-- A word has no mark in it. -/
theorem mark_notMem (h : IsWord word) (mark : Punctuation) :
    CodePoint.ofChar mark.char ∉ word := by
  intro hmem
  have hmark : Lexer.isOrdinary (CodePoint.ofChar mark.char) = false := by
    cases mark <;> decide
  rw [h.isOrdinary hmem] at hmark
  exact Bool.noConfusion hmark

/-- The lower case of a word has no mark in it. -/
theorem mark_notMem_lower (h : IsWord word) (mark : Punctuation) :
    CodePoint.ofChar mark.char ∉ Text.lower word := by
  intro hmem
  have hascii : (CodePoint.ofChar mark.char).val < 0x80 := by
    cases mark <;> decide
  have hlower : (CodePoint.ofChar mark.char).isLower = false := by
    cases mark <;> decide
  rcases Text.mem_lower hmem hascii with hmem | hmem
  · exact h.mark_notMem mark hmem
  · rw [hmem] at hlower
    exact Bool.noConfusion hlower

end IsWord

/-- A step that finds a mark starts at it. -/
theorem ofChar_eq_of_step {position : Position} {c : CodePoint} {rest : Text} {found : Step}
    {mark : Punctuation} (h : step position c rest = .ok found)
    (hmark : found.lexeme = some (.punctuation mark)) : CodePoint.ofChar mark.char = c := by
  rcases step_cases h with hother | ⟨other, hc, hother⟩ | ⟨value, hother⟩ |
    ⟨number, -, hother⟩ | ⟨word, -, -, hother⟩
  · exact absurd (hother.symm.trans hmark) (by simp)
  · obtain rfl := Lexeme.punctuation.inj (Option.some.inj (hother.symm.trans hmark))
    exact hc
  · exact absurd (hother.symm.trans hmark) (by simp)
  · exact absurd (hother.symm.trans hmark) (by simp)
  · have hkind := congrArg Lexeme.kind (Option.some.inj (hother.symm.trans hmark))
    exact absurd hkind (Lexeme.kind_ofWord_ne word mark)

/-- A text has as many marks of a kind as are scanned from it, or more. -/
theorem count_mark_le {text : Text} {found : List Lexeme} (h : lexemes text = .ok found)
    (mark : Punctuation) :
    found.count (.punctuation mark) ≤ text.count (CodePoint.ofChar mark.char) := by
  induction hlength : text.length using Nat.strongRecOn generalizing text found with
  | ind length ih =>
      cases text with
      | nil =>
          obtain rfl := Except.ok.inj h
          exact Nat.le_refl 0
      | cons c rest =>
          obtain ⟨first, following, hstep, hrest, rfl⟩ := lexemes_cons_eq_ok h
          have hshorter : (rest.drop (first.length - 1)).length < length := by
            rw [List.length_drop, ← hlength, List.length_cons]
            omega
          -- A step may drop marks that stand in a comment or in a string, but it adds none.
          have hlater := ih _ hshorter hrest rfl
          have hdrop : (rest.drop (first.length - 1)).count (CodePoint.ofChar mark.char) ≤
              rest.count (CodePoint.ofChar mark.char) :=
            (List.drop_sublist _ rest).count_le _
          rw [List.count_append, List.count_cons]
          by_cases hmark : first.lexeme = some (.punctuation mark)
          · have hc := ofChar_eq_of_step hstep hmark
            rw [hmark, hc, Option.toList_some, List.count_singleton_self, beq_self_eq_true,
              if_pos rfl]
            rw [hc] at hlater hdrop
            omega
          · have hfirst : first.lexeme.toList.count (.punctuation mark) = 0 := by
              rw [List.count_eq_zero, Option.mem_toList]
              exact hmark
            omega

end ProtoSchema.Lexer
