import ProtoSchema.Proofs.Parser.Lookahead

/-!
# The depth of a parse

Six rules of the grammar call each other, and the parse of a file calls two of them (`Rules`).
`Rules.calling` is one level of these calls, of which the grammar is the fixed point
(`Rules.calling_grammar`). `Rules.within` allows only so many calls to be active at once: one more
fails. A parse with as many calls as there are entries of the input, its tokens and its end, never
fails in this way (`Rules.parse_eq_statements`): a message takes three tokens before it calls its
body, a group takes five, and a body calls a rule only where there is a token.
-/

namespace ProtoSchema.Parse

namespace Rules

/-- Rules that fail at once, always with this fault. -/
def failing (fault : Fault) : Rules where
  body := fun _ => .error fault
  message := fun _ => .error fault
  field := fun _ _ => .error fault
  group := fun _ _ _ => .error fault
  oneof := fun _ => .error fault
  extension := fun _ => .error fault

/-- Every rule, with these rules for its calls. -/
def calling (callees : Rules) : Rules where
  body := items (bodyStatementWith callees) >>= fun parts => pure (Members.concat parts)
  message := Parse.message callees.body
  field := fieldWith callees.group
  group := Parse.group callees.body
  oneof := oneofWith callees.field
  extension := extensionWith callees.field

/-- The rules with at most this many calls active at once. One more fails with the fault. -/
def within (exceeded : Fault) : Nat → Rules
  | 0 => failing exceeded
  | calls + 1 => (within exceeded calls).calling

/-- The parse of a file with at most this many calls active at once, itself included. -/
def parse (exceeded : Fault) : Nat → Parse (List Statement)
  | 0 => fun _ => .error exceeded
  | calls + 1 => (within exceeded calls).statements

/-! ### The grammar as a fixed point -/

/-- The body of a message is parsed statement by statement. -/
theorem messageBody_eq :
    messageBody = items (Parse.bodyStatement messageBody) >>= fun parts =>
      pure (Members.concat parts) := by
  refine funext fun tokens => ?_
  have hstatement (hpos : 0 < tokens.length) : Agree tokens.length (Parse.bodyStatement messageBody)
      (Parse.bodyStatement (messageBodyTo tokens.length)) :=
    .bodyStatement .messageBody (.messageBody (Nat.sub_lt hpos Nat.one_pos))
  have hitems := Agree.items hstatement (LeftToRight.takes_bodyStatement .messageBody)
  have hbody : messageBody tokens =
      (items (Parse.bodyStatement (messageBodyTo tokens.length)) >>= fun parts =>
        pure (Members.concat parts)) tokens := rfl
  rw [hbody]
  exact (hitems.andThen tokens (Nat.le_refl _)).symm

/-- The rules of the grammar call themselves. -/
theorem calling_grammar : grammar.calling = grammar := by
  show ({ grammar.calling with body := _ } : Rules) = { grammar.calling with body := messageBody }
  rw [messageBody_eq]
  rfl

/-! ### Enough calls -/

/-- The rules do what the grammar does on inputs that are short enough. A body that is not called
yet may be empty, so it gets by with one call for each token and one more. A rule that is called at
a token gets by with one call for each token, and a group has three tokens of its own. -/
structure AgreesTo (calls : Nat) (rules : Rules) : Prop where
  body {length : Nat} (h : length < calls) : Agree length grammar.body rules.body
  message (h : 0 < calls) : Agree calls grammar.message rules.message
  field (h : 0 < calls) (oneof : Option Text) :
    Agree calls (grammar.field oneof) (rules.field oneof)
  group (h : 0 < calls) (label : Option Label) (oneof : Option Text) :
    Agree (calls + 1) (grammar.group label oneof) (rules.group label oneof)
  oneof (h : 0 < calls) : Agree calls grammar.oneof rules.oneof
  extension (h : 0 < calls) : Agree calls grammar.extension rules.extension

/-- A group starts with three tokens. -/
theorem three_le_of_startsGroup {tokens : List Token} (h : startsGroup tokens) :
    3 ≤ tokens.length := by
  rcases tokens with _ | ⟨first, _ | ⟨second, _ | ⟨third, rest⟩⟩⟩
  · exact absurd h Bool.false_ne_true
  · exact absurd h Bool.false_ne_true
  · exact absurd h Bool.false_ne_true
  · exact Nat.le_add_left 3 rest.length

namespace AgreesTo

variable {calls : Nat} {callees : Rules}

/-- Statements of a message body agree where the rules that they call do. -/
theorem bodyStatement (h : AgreesTo calls callees) (hpos : 0 < calls) :
    Agree calls (bodyStatementWith grammar) (bodyStatementWith callees) := by
  refine .bind (.refl _ _) .peekKind fun kind? => ?_
  split
  · exact h.message hpos
  · exact .refl _ _
  · exact .refl _ _
  · exact h.oneof hpos
  · exact h.extension hpos
  · exact .refl _ _
  · exact .refl _ _
  · exact .orSemicolon (h.field hpos none)

/-- Statements at the top level agree where the rules that they call do. -/
theorem statement (h : AgreesTo calls callees) (hpos : 0 < calls) :
    Agree calls (statementWith grammar) (statementWith callees) := by
  refine .bind (.refl _ _) .peekKind fun kind? => ?_
  split
  · exact .refl _ _
  · exact .refl _ _
  · exact .refl _ _
  · exact .refl _ _
  · exact (h.message hpos).andThen
  · exact .refl _ _
  · exact .refl _ _
  · exact (h.extension hpos).andThen
  · exact .refl _ _
  · exact .refl _ _

/-- Rules that fail at once agree with the grammar on no input. -/
theorem failing (fault : Fault) : AgreesTo 0 (failing fault) where
  body h := absurd h (Nat.not_lt_zero _)
  message h := absurd h (Nat.lt_irrefl 0)
  field h := absurd h (Nat.lt_irrefl 0)
  group h := absurd h (Nat.lt_irrefl 0)
  oneof h := absurd h (Nat.lt_irrefl 0)
  extension h := absurd h (Nat.lt_irrefl 0)

/-- One more call is enough for inputs with one more token. -/
theorem calling (h : AgreesTo calls callees) : AgreesTo (calls + 1) callees.calling where
  body {length} hlength := by
    have hle := Nat.le_of_lt_succ hlength
    have hstatement (hpos : 0 < length) :
        Agree length (bodyStatementWith grammar) (bodyStatementWith callees) :=
      (h.bodyStatement (Nat.lt_of_lt_of_le hpos hle)).mono hle
    show Agree length messageBody callees.calling.body
    rw [messageBody_eq]
    exact (Agree.items hstatement (LeftToRight.takes_bodyStatement .messageBody)).andThen
  message _ := by
    refine .bind_advances (.keyword _) fun second hsecond _ => ?_
    refine .bind_advances .name fun later hlater _ => .bind (.refl _ _) (.mark _) fun _ => ?_
    exact (h.body (by omega)).andThen
  field _ oneof := by
    refine .bind (.refl _ _) .label fun label tokens htokens => ?_
    show (if startsGroup tokens then grammar.group label oneof else plainField label oneof) tokens =
      (if startsGroup tokens then callees.group label oneof else plainField label oneof) tokens
    split
    next hgroup =>
      have hthree := three_le_of_startsGroup hgroup
      exact h.group (by omega) label oneof tokens htokens
    next => rfl
  group _ label oneof := by
    refine .bind_advances (.expect _) fun second hsecond _ => ?_
    refine .bind_advances .name fun third hthird _ => ?_
    refine .bind_advances (.mark _) fun later hlater _ => ?_
    refine .bind (.refl _ _) .integer fun _ => .bind (.refl _ _) .bracketOptions fun _ => ?_
    refine .bind (.refl _ _) (.mark _) fun _ => ?_
    exact (h.body (by omega)).andThen
  oneof _ := by
    refine .bind_advances (.keyword _) fun second hsecond _ => ?_
    refine .bind_advances .name fun later hlater oneofName => Agree.andThen ?_
    refine .braced (fun hpos => ?_) (LeftToRight.takes_oneofEntry .messageBody oneofName)
    refine .bind (.refl _ _) .peekKind fun _ => .ite (.refl _ _) (.orSemicolon ?_)
    exact (h.field (by omega) (some oneofName)).mono (by omega)
  extension _ := by
    refine .bind_advances (.keyword _) fun second hsecond _ => ?_
    refine .bind_advances (.expect _) fun later hlater extendee => Agree.andThen ?_
    refine .braced (fun hpos => ?_) (LeftToRight.takes_orSemicolon_field .messageBody none)
    exact .orSemicolon ((h.field (by omega) none).mono (by omega))

/-- As many calls as tokens are enough. -/
theorem within (exceeded : Fault) (calls : Nat) : AgreesTo calls (within exceeded calls) := by
  induction calls with
  | zero => exact failing exceeded
  | succ calls ih => exact ih.calling

end AgreesTo

/-- A parse never has more calls active at once than its input has tokens, and one for the parse
itself. So it does not matter what one more call would do. -/
theorem parse_eq_statements (exceeded : Fault) (tokens : List Token) :
    parse exceeded (tokens.length + 1) tokens = Parse.statements tokens := by
  have hcallees := AgreesTo.within exceeded tokens.length
  exact ((statementsWithin_rounds _).agree (statementsWithin_rounds _) .peek
    LeftToRight.takes_statement hcallees.statement (Nat.le_refl _) (Nat.le_refl _) tokens
    (Nat.le_refl _)).symm

/-- The parse calls the message and the message calls its body, so two calls are not enough. -/
example (exceeded : Fault) :
    parse exceeded 2 [⟨.keyword .message, ⟨1, 1⟩⟩, ⟨.identifier "M", ⟨1, 9⟩⟩,
      ⟨.punctuation .leftBrace, ⟨1, 11⟩⟩, ⟨.punctuation .rightBrace, ⟨1, 12⟩⟩] = .error exceeded :=
  rfl

end Rules

end ProtoSchema.Parse
