import ProtoSchema.Proofs.Parser.Lookahead
import ProtoSchema.Proofs.Token.Separator

/-!
# Places do not matter

Tokens with the same lexemes are parsed alike wherever they stand: the places of tokens show only in
the place of an error (`parse_unplaced`). With the theory of separators this makes a schema file
independent of its layout: `parse_relaid`, the main statement, spells the lexemes of a text anew
with other separators.
-/

namespace ProtoSchema

/-- The error without its place. -/
def ParseError.unplaced : ParseError → ParseError
  | refused cause found _ => refused cause found Position.start
  | other => other

namespace Parse

variable {α : Type} {parse : Parse α} {tokens like : List Token}

namespace LeftToRight

/-- A value does not depend on the places of the tokens. -/
theorem ok_of_sameLexemes (hparse : LeftToRight parse) (hlike : SameLexemes like tokens)
    {value : α} {rest : List Token} (h : parse tokens = .ok (value, rest)) :
    ∃ others, SameLexemes others rest ∧ parse like = .ok (value, others) := by
  obtain ⟨taken, rfl, htaken⟩ := hparse.ok h
  obtain ⟨left, right, rfl, hleft, hright⟩ := hlike.append_right
  exact ⟨right, hright, htaken left right hleft (hright.take 1)⟩

/-- A fault does not depend on the places of the tokens. -/
theorem error_of_sameLexemes (hparse : LeftToRight parse) (hlike : SameLexemes like tokens)
    {fault : Fault} (h : parse tokens = .error fault) (stop other : Position) :
    ∃ again, parse like = .error again ∧
      (ParseError.ofFault stop again).unplaced = (ParseError.ofFault other fault).unplaced := by
  cases fault with
  | refused cause rest =>
      obtain ⟨taken, rfl, htaken⟩ := hparse.refused h
      obtain ⟨left, right, rfl, hleft, hright⟩ := hlike.append_right
      refine ⟨_, htaken left right hleft (hright.take 2), ?_⟩
      simp only [ParseError.ofFault, ParseError.unplaced, (hright.take 1).head_eq]
  | notNumeric spelling =>
      obtain ⟨taken, token, rest, rfl, hlexeme, hvalue, htaken⟩ := hparse.notNumeric h
      obtain ⟨left, right, rfl, hleft, hright⟩ := hlike.append_right
      obtain ⟨head, tail, rfl, hhead, -⟩ := hright.cons_right
      -- The tokens before the literal ask for a constant, and so do those with the same lexemes.
      obtain ⟨before, hbefore, hasked⟩ := hparse.refused htaken
      rw [List.append_nil] at hbefore
      have hleft' := hasked left [] (hbefore ▸ hleft) rfl
      rw [List.append_nil] at hleft'
      exact ⟨_, hparse.asked hleft' (hhead.trans hlexeme) hvalue, rfl⟩

end LeftToRight

end Parse

/-- The parse of a text that can be scanned. -/
theorem File.parse_of_scan {text : Text} {found : Lexer.Scan} (h : Lexer.scan text = .ok found)
    (path : Text) :
    File.parse text path = match Parse.statements found.tokens with
      | .ok (statements, _) => .ok (.ofStatements path statements)
      | .error fault => .error (.ofFault found.stop fault) := by
  rw [File.parse, h]
  dsimp only
  rw [Statement.ofTokens, StateT.run]
  cases Parse.statements found.tokens <;> rfl

/-- Texts with the same lexemes are parsed alike, up to the place of an error. -/
theorem File.parse_unplaced {text other : Text} {found again : Lexer.Scan}
    (hfound : Lexer.scan text = .ok found) (hagain : Lexer.scan other = .ok again)
    (hlexemes : SameLexemes again.tokens found.tokens) (path : Text) :
    (File.parse other path).mapError ParseError.unplaced =
      (File.parse text path).mapError ParseError.unplaced := by
  rw [File.parse_of_scan hfound, File.parse_of_scan hagain]
  cases hparse : Parse.statements found.tokens with
  | ok value =>
      obtain ⟨others, -, hother⟩ :=
        Parse.LeftToRight.statements.ok_of_sameLexemes hlexemes hparse
      rw [hother]
  | error fault =>
      obtain ⟨likewise, hother, hunplaced⟩ :=
        Parse.LeftToRight.statements.error_of_sameLexemes hlexemes hparse again.stop found.stop
      rw [hother]
      exact congrArg Except.error hunplaced

/-- A text whose lexemes are spelled anew, with other separators between them, is scanned as the
same lexemes and parsed as the same file. If it is no schema file, the error differs in its place
only. -/
theorem File.parse_relaid {text relaid : Text} {found : Lexer.Scan}
    (h : Lexer.scan text = .ok found)
    (hrelaid : Lexeme.Relaid (found.tokens.map Token.lexeme) relaid) :
    (∃ again, Lexer.scan relaid = .ok again ∧
      again.tokens.map Token.lexeme = found.tokens.map Token.lexeme) ∧
    ∀ path, (File.parse relaid path).mapError ParseError.unplaced =
      (File.parse text path).mapError ParseError.unplaced := by
  have hfound : Lexer.lexemes text = .ok (found.tokens.map Token.lexeme) :=
    map_eq_ok_iff.mpr ⟨found, h, rfl⟩
  have hlexemes := Lexer.lexemes_relaid hrelaid fun _ hmem =>
    Lexer.isSpelled_of_mem_lexemes hfound hmem
  obtain ⟨again, hagain, hsame⟩ := map_eq_ok_iff.mp hlexemes
  exact ⟨⟨again, hagain, hsame⟩, File.parse_unplaced h hagain hsame⟩

/-- A word in front of a comment, a signed number, a string in single quotes and a stray sign. -/
theorem File.parse_relaid_comment :
    ∃ found, Lexer.scan (Text.ofString "syntax/**/=-1e'\"'$;") = .ok found ∧
      Lexeme.Relaid (found.tokens.map Token.lexeme)
        (Text.ofString "syntax //=\n\t= /***/-1e\r\"\\\"\" ;") ∧
      (∃ again,
        Lexer.scan (Text.ofString "syntax //=\n\t= /***/-1e\r\"\\\"\" ;") = .ok again ∧
          again.tokens.map Token.lexeme = found.tokens.map Token.lexeme) ∧
      ∀ path, (File.parse (Text.ofString "syntax //=\n\t= /***/-1e\r\"\\\"\" ;") path).mapError
          ParseError.unplaced =
        (File.parse (Text.ofString "syntax/**/=-1e'\"'$;") path).mapError ParseError.unplaced := by
  have hrelaid : Lexeme.Relaid
      [.keyword .dialect, .punctuation .equals, .number (Text.ofString "-1e"),
        .string (Text.ofString "\""), .punctuation .semicolon]
      (Text.ofString "syntax //=\n\t= /***/-1e\r\"\\\"\" ;") := by
    have hblank {c : CodePoint} (hc : Lexer.isBlank c) : Lexer.IsSeparator [c] := .blank hc
    have hline : Lexer.IsSeparator (Text.ofString " " ++
        (Text.ofString "//" ++ Text.ofString "=" ++ Text.ofString "\n" ++ Text.ofString "\t")) :=
      .append (hblank (c := ' ') rfl)
        (.append (.comment (.line (by decide))) (hblank (c := '\t') rfl))
    have hblock : Lexer.IsSeparator (Text.ofString " " ++
        (Text.ofString "/*" ++ Text.ofString "*" ++ Lexer.commentEnd)) :=
      .append (hblank (c := ' ') rfl) (.comment (.block (by decide)))
    exact .cons hline (.cons hblock (.cons (hblank (c := '\r') rfl)
      (.cons (hblank (c := ' ') rfl) (.last _))))
  exact ⟨_, rfl, hrelaid, File.parse_relaid rfl hrelaid⟩

end ProtoSchema
