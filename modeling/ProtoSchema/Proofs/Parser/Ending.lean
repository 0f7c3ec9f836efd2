import Mathlib
import ProtoSchema.Proofs.Parser.Concatenation
import ProtoSchema.Proofs.Parser.Yields
import ProtoSchema.Proofs.Token.Literal

/-!
# The end of an accepted text

A statement of a file ends with a semicolon or a closing brace, whatever its form is
(`Parse.EndsWith.statement`), so the last token of an accepted text is one of these marks. A string
literal that the end of the text cuts would be the last token (`Lexer.EndsInString.getLast?`).
Therefore no accepted text ends inside a string, although the scan alone lets such a text pass. Both
are said by `File.ends_of_parse`.
-/

namespace ProtoSchema

/-- The statements of a file take no token, or the last one ends a statement. -/
theorem Parse.EndsWith.statements {tokens rest : List Token} {found : List Statement}
    (h : Parse.statements tokens = .ok (found, rest)) :
    tokens = [] ∨ ∃ before last, tokens = before ++ [last] ∧
      ∃ mark ∈ statementEnds, last.lexeme = .punctuation mark := by
  refine (statements_induction
    (motive := fun tokens _ => tokens = [] ∨ ∃ before last, tokens = before ++ [last] ∧
      ∃ mark ∈ statementEnds, last.lexeme = .punctuation mark)
    (.inl rfl) (fun tokens first middle others hfirst hothers => .inr ?_) h).2
  obtain ⟨before, last, rfl, hmark, -⟩ := statement tokens first middle hfirst
  rcases hothers with rfl | ⟨further, final, rfl, hfinal⟩
  · exact ⟨before, last, rfl, hmark⟩
  · exact ⟨before ++ last :: further, final, by simp, hfinal⟩

/-! ### Strings that the end of the text cuts -/

namespace Lexer

/-- The text ends inside a string: a scan of it comes to a literal without a closing quote. -/
def EndsInString (text : Text) : Prop :=
  ∃ (quote : CodePoint) (raw : Text), (quote = '"' ∨ quote = '\'') ∧ IsCutQuoted quote raw ∧
    ComesTo text (quote :: raw)

/-- A string that the end of the text cuts is the last lexeme of the text. -/
theorem EndsInString.getLast? {text : Text} (h : EndsInString text) {found : List Lexeme}
    (hfound : lexemes text = .ok found) : ∃ value, found.getLast? = some (.string value) := by
  obtain ⟨quote, raw, hquote, hraw, hleft⟩ := h
  generalize hliteral : quote :: raw = left at hleft
  induction hleft generalizing found with
  | start text =>
      rw [← hliteral, lexemes_of_isCutQuoted hquote hraw] at hfound
      obtain ⟨value, -, rfl⟩ := map_eq_ok_iff.mp hfound
      exact ⟨value, rfl⟩
  | step hstep _ ih =>
      rw [lexemes_cons hstep] at hfound
      obtain ⟨later, hlater, rfl⟩ := map_eq_ok_iff.mp hfound
      obtain ⟨value, hvalue⟩ := ih hlater hliteral
      exact ⟨value, by rw [List.getLast?_append, hvalue]; rfl⟩

end Lexer

/-- The tokens of an accepted text are none at all, or the last one is a semicolon or a closing
brace. So no accepted text ends inside a string. -/
theorem File.ends_of_parse {text path : Text} {file : File}
    (h : File.parse text path = .ok file) :
    ∃ found, Lexer.scan text = .ok found ∧
      (found.tokens = [] ∨ ∃ before last, found.tokens = before ++ [last] ∧
        (last.lexeme = .punctuation .semicolon ∨ last.lexeme = .punctuation .rightBrace)) ∧
      ¬ Lexer.EndsInString text := by
  obtain ⟨found, statements, rest, hscan, -, hstatements, -⟩ := File.exists_statements_of_parse h
  have hends := Parse.EndsWith.statements hstatements
  refine ⟨found, hscan, hends.imp_right ?_, fun hcut => ?_⟩
  · intro hlast
    obtain ⟨before, last, htokens, mark, hmem, hlexeme⟩ := hlast
    obtain rfl | rfl := List.mem_pair.mp hmem
    · exact ⟨before, last, htokens, .inl hlexeme⟩
    · exact ⟨before, last, htokens, .inr hlexeme⟩
  · have hlexemes : Lexer.lexemes text = .ok (found.tokens.map Token.lexeme) :=
      map_eq_ok_iff.mpr ⟨found, hscan, rfl⟩
    obtain ⟨value, hvalue⟩ := hcut.getLast? hlexemes
    rcases hends with hnil | ⟨before, last, htokens, mark, -, hlexeme⟩
    · simp [hnil] at hvalue
    · rw [htokens, List.map_append, List.map_cons, List.map_nil, List.getLast?_concat] at hvalue
      cases hlexeme.symm.trans (Option.some.inj hvalue)

/-- Strings in an import and in a reserved statement, and a quote in a comment at the end. -/
def reservedNames : Text :=
  "import 'a';message M \x7breserved 'b;' ;\x7d//'"

/-- The text is accepted, and its last token is a closing brace. -/
theorem File.ends_of_parse_reservedNames :
    ∃ file, File.parse reservedNames [] = .ok file ∧
      ∃ found, Lexer.scan reservedNames = .ok found ∧
        (found.tokens = [] ∨ ∃ before last, found.tokens = before ++ [last] ∧
          (last.lexeme = .punctuation .semicolon ∨ last.lexeme = .punctuation .rightBrace)) ∧
        ¬ Lexer.EndsInString reservedNames := by
  have hparse : File.parse reservedNames [] = .ok
      { imports := ["a"], root := { members := [.message { name := "M" }] } } := by cbv
  exact ⟨_, hparse, File.ends_of_parse hparse⟩

end ProtoSchema
