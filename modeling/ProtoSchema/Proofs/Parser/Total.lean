import ProtoSchema.Proofs.Parser.Depth
import ProtoSchema.Proofs.Parser.Loops
import ProtoSchema.Proofs.Parser.Refusal

/-!
# Every input has an outcome

The parse of a file accepts its whole input, or is refused at an entry of it, or stops at a number
without a value where a constant is asked for: `Statement.hasOutcome`. It gets there because
its loops advance (`Parse.loopsAdvance`) and because its calls are nested no deeper than there are
entries (`Parse.Rules.parse_eq_statements`). The input is any list of entries that ends with the end
of a text and has it nowhere else (`Token.EndsOnce`).
-/

namespace ProtoSchema

namespace Token

/-- The entries end with the end of a text, and all before it are tokens. -/
def EndsOnce (entries : List (Option Lexeme × Position)) : Prop :=
  ∃ before stop, entries = before ++ [(none, stop)] ∧ ∀ entry ∈ before, entry.1.isSome

/-- The lists of entries that end once are those of tokens with the end. -/
theorem endsOnce_iff {entries : List (Option Lexeme × Position)} :
    EndsOnce entries ↔ ∃ tokens stop, entries = withEnd tokens stop := by
  constructor
  · rintro ⟨before, stop, rfl, hbefore⟩
    suffices h : ∃ tokens : List Token,
        tokens.map (fun token => (some token.lexeme, token.position)) = before by
      obtain ⟨tokens, rfl⟩ := h
      exact ⟨tokens, stop, rfl⟩
    induction before with
    | nil => exact ⟨[], rfl⟩
    | cons entry before ih =>
        obtain ⟨tokens, rfl⟩ := ih fun other hother => hbefore other (List.mem_cons_of_mem _ hother)
        obtain ⟨lexeme?, position⟩ := entry
        obtain ⟨lexeme, rfl⟩ := Option.isSome_iff_exists.mp (hbefore _ List.mem_cons_self)
        exact ⟨⟨lexeme, position⟩ :: tokens, rfl⟩
  · rintro ⟨tokens, stop, rfl⟩
    refine ⟨_, stop, rfl, fun entry hentry => ?_⟩
    obtain ⟨token, -, rfl⟩ := List.mem_map.mp hentry
    rfl

end Token

namespace Parse

namespace Rules

/-- Every rule leaves the end of its input, so none gets past it. -/
structure StayInside (rules : Rules) : Prop where
  body : Consumes rules.body
  message : Consumes rules.message
  field (oneof : Option Text) : Consumes (rules.field oneof)
  group (label : Option Label) (oneof : Option Text) : Consumes (rules.group label oneof)
  oneof : Consumes rules.oneof
  extension : Consumes rules.extension
  statements : Consumes rules.statements

/-- The rules of the grammar never get past the end of their input. -/
theorem stayInside_grammar : grammar.StayInside where
  body := LeftToRight.messageBody.consumes
  message := (LeftToRight.message .messageBody).consumes
  field oneof := (LeftToRight.field .messageBody oneof).consumes
  group label oneof := (LeftToRight.group .messageBody label oneof).consumes
  oneof := (LeftToRight.oneof .messageBody).consumes
  extension := (LeftToRight.extension .messageBody).consumes
  statements := LeftToRight.statements.consumes

end Rules

end Parse

namespace Statement

/-- What the parse of a file comes to, if its tokens end at `stop`. They are parsed up to the end.
Or one entry is refused, a token or the end, and the error shows its lexeme and its place. Or the
parse stops at a number without a value, and the tokens before it ask for a constant. -/
inductive HasOutcome (tokens : List Token) (stop : Position) : Prop
  | accepted {found : List Statement} (h : Parse.statements tokens = .ok (found, []))
  | refused {index : Nat} {cause : Refusal} {found : Option Lexeme} {position : Position}
      (h : IsRefusedAt tokens stop index (.refused cause found position))
      (hentry : (Token.withEnd tokens stop)[index]? = some (found, position))
  | notNumeric {spelling : Text} {before after : List Token} {token : Token}
      (h : Statement.ofTokens tokens = .error (.notNumeric spelling))
      (htokens : tokens = before ++ token :: after) (hlexeme : token.lexeme = .number spelling)
      (hvalue : Parse.numberConstant? spelling = none)
      (hasked : Statement.ofTokens before = .error (.refused .expectedConstant []))

/-- The parse of a file has an outcome. -/
theorem hasOutcome (tokens : List Token) (stop : Position) : HasOutcome tokens stop := by
  cases h : Parse.statements tokens with
  | ok found =>
      obtain ⟨found, rest⟩ := found
      obtain rfl := Parse.statements_rest h
      exact .accepted h
  | error fault =>
      have hfault := ofTokens_eq_error_iff.mpr h
      cases fault with
      | refused cause rest =>
          obtain ⟨index, hindex⟩ := isRefusedAt_of_refused hfault stop
          obtain ⟨_, _, _, herror, hentry⟩ := hindex.reports
          exact .refused (herror ▸ hindex) hentry
      | notNumeric spelling =>
          obtain ⟨before, token, after, htokens, hlexeme, hvalue, hasked⟩ :=
            ofTokens_notNumeric_iff.mp hfault
          exact .notNumeric hfault htokens hlexeme hvalue hasked

/-- The parse of a file is total. Its inputs are the lists of entries that end once, and a scan
gives one. Its loops advance, its rules stay inside the input, and with as many calls active at once
as there are entries it is the parse without a limit. -/
theorem ofTokens_total :
    (∀ entries, Token.EndsOnce entries ↔ ∃ tokens stop, entries = Token.withEnd tokens stop) ∧
    (∀ text scan, Lexer.scan text = .ok scan →
      Token.EndsOnce (Token.withEnd scan.tokens scan.stop)) ∧
    Parse.LoopsAdvance ∧ Parse.Rules.grammar.StayInside ∧
    Parse.Rules.grammar.calling = Parse.Rules.grammar ∧
    Parse.Rules.grammar.statements = Parse.statements ∧
    ∀ (tokens : List Token) (stop : Position), HasOutcome tokens stop ∧
      ∀ exceeded, Parse.Rules.parse exceeded (Token.withEnd tokens stop).length tokens =
        Parse.statements tokens := by
  refine ⟨fun entries => Token.endsOnce_iff, fun text scan _ => Token.endsOnce_iff.mpr ⟨_, _, rfl⟩,
    Parse.loopsAdvance, Parse.Rules.stayInside_grammar, Parse.Rules.calling_grammar,
    rfl, fun tokens stop => ⟨hasOutcome tokens stop, fun exceeded => ?_⟩⟩
  have hlength : (Token.withEnd tokens stop).length = tokens.length + 1 := by
    simp [Token.withEnd]
  rw [hlength]
  exact Parse.Rules.parse_eq_statements exceeded tokens

end Statement

end ProtoSchema
