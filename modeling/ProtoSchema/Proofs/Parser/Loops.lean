import ProtoSchema.Proofs.Parser.Lookahead

/-!
# The loops of the grammar

Every loop of the grammar is a loop in the plain sense (`IsLoop`): while a condition holds of its
state and of the next lexeme, its body runs, and each run takes tokens unless it fails. So the body
runs at most as often as there are tokens. `LoopsAdvance` lists the loops, and `loopsAdvance` is the
main statement.
-/

namespace ProtoSchema.Parse

section

variable {σ α β γ : Type}

/-- What a loop makes of a state and an input, and how often its body runs. While the condition
holds of the state and of the next lexeme, the body runs, and a run that does not fail takes tokens
from the front of the input. -/
inductive Loops (condition : σ → Option Lexeme → Bool) (body : σ → Parse σ) :
    σ → List Token → Nat → Except Fault (σ × List Token) → Prop
  | stops {state : σ} {tokens : List Token}
      (hstops : condition state (tokens.head?.map Token.lexeme) = false) :
      Loops condition body state tokens 0 (.ok (state, tokens))
  | fails {state : σ} {tokens : List Token} {fault : Fault}
      (hgoesOn : condition state (tokens.head?.map Token.lexeme) = true)
      (hbody : body state tokens = .error fault) :
      Loops condition body state tokens 1 (.error fault)
  | goesOn {state next : σ} {tokens rest : List Token} {count : Nat}
      {outcome : Except Fault (σ × List Token)}
      (hgoesOn : condition state (tokens.head?.map Token.lexeme) = true)
      (hbody : body state tokens = .ok (next, rest)) (hrest : rest <:+ tokens)
      (hfewer : rest.length < tokens.length)
      (hlater : Loops condition body next rest count outcome) :
      Loops condition body state tokens (count + 1) outcome

/-- What the parse makes of this input is what a loop makes of it, if it is started in a state and
finished from the state in which it ends. The body runs at most as often as there are tokens. -/
def IsLoopAt (parse : Parse β) (start : σ) (condition : σ → Option Lexeme → Bool)
    (body : σ → Parse σ) (finish : σ → Parse β) (tokens : List Token) : Prop :=
  ∃ count ≤ tokens.length, ∃ outcome, Loops condition body start tokens count outcome ∧
    parse tokens = outcome.bind fun ended => finish ended.1 ended.2

/-- The parse is a loop, on every input. -/
def IsLoop (parse : Parse β) (start : σ) (condition : σ → Option Lexeme → Bool)
    (body : σ → Parse σ) (finish : σ → Parse β) : Prop :=
  ∀ tokens, IsLoopAt parse start condition body finish tokens

variable {condition : σ → Option Lexeme → Bool} {body : σ → Parse σ} {finish : σ → Parse β}

/-- A loop whose condition does not hold is finished. -/
theorem IsLoopAt.stops {parse : Parse β} {state : σ} {tokens : List Token}
    (hstops : condition state (tokens.head?.map Token.lexeme) = false)
    (hparse : parse tokens = finish state tokens) :
    IsLoopAt parse state condition body finish tokens :=
  ⟨0, Nat.zero_le _, _, .stops hstops, hparse⟩

/-- A loop whose body takes a token goes on after it. -/
theorem IsLoopAt.goesOn {parse later : Parse β} {state next : σ} {token : Token}
    {tokens : List Token} (hgoesOn : condition state (some token.lexeme) = true)
    (hbody : body state (token :: tokens) = .ok (next, tokens))
    (hlater : IsLoopAt later next condition body finish tokens)
    (hparse : parse (token :: tokens) = later tokens) :
    IsLoopAt parse state condition body finish (token :: tokens) := by
  obtain ⟨count, hcount, outcome, hloops, houtcome⟩ := hlater
  exact ⟨count + 1, Nat.succ_le_succ hcount, outcome,
    .goesOn hgoesOn hbody (List.suffix_cons _ _) (Nat.lt_succ_self _) hloops, hparse.trans houtcome⟩

/-- What satisfies the equation of a loop is a loop, if its body takes tokens. -/
theorem Loops.of_eq {run : σ → Parse σ}
    (hrun : ∀ state tokens, run state tokens =
      if condition state (tokens.head?.map Token.lexeme) then (body state >>= run) tokens
      else .ok (state, tokens))
    (hend : ∀ state, condition state none = false) (hconsumes : ∀ state, Consumes (body state))
    (htakes : ∀ state, Takes (body state)) (state : σ) (tokens : List Token) :
    ∃ count ≤ tokens.length, Loops condition body state tokens count (run state tokens) := by
  induction hlength : tokens.length using Nat.strongRecOn generalizing state tokens with
  | ind length ih =>
      rw [hrun]
      split
      next hgoesOn =>
        have hpos : 0 < length := by
          rw [← hlength]
          refine List.length_pos_iff.mpr ?_
          rintro rfl
          exact Bool.false_ne_true ((hend state).symm.trans hgoesOn)
        cases hbody : body state tokens with
        | error fault =>
            rw [bind_of_error hbody]
            exact ⟨1, hpos, .fails hgoesOn hbody⟩
        | ok found =>
            obtain ⟨next, rest⟩ := found
            have hle := htakes state tokens next rest hbody
            obtain ⟨count, hcount, hlater⟩ := ih rest.length (by omega) next rest rfl
            rw [bind_of_ok hbody]
            exact ⟨count + 1, by omega, .goesOn hgoesOn hbody
              (hconsumes state tokens next rest hbody) (by omega) hlater⟩
      next hstops => exact ⟨0, Nat.zero_le _, .stops (Bool.eq_false_iff.mpr hstops)⟩

/-- The body of a loop that parses an item and adds its part to what was found so far. -/
def appending (item : Parse α) (part : α → List β) (found : List β) : Parse (List β) :=
  item >>= fun first => pure (found ++ part first)

/-- A loop on fuel that collects the parts of its items is a loop, if the items take tokens. -/
theorem Rounds.isLoop {run : Nat → Parse (List β)} {ahead : Parse γ} {stops : γ → Bool}
    {item : Parse α} {part : α → List β} {goesOn : Option Lexeme → Bool}
    (hrun : Rounds run ahead stops item (fun first others => part first ++ others) [])
    (hahead : LeftToRight ahead)
    (hlook : ∀ tokens, ∃ seen, ahead tokens = .ok (seen, tokens) ∧
      goesOn (tokens.head?.map Token.lexeme) = !stops seen)
    (hitem : LeftToRight item) (htakes : Takes item) :
    IsLoop (get >>= fun tokens => run tokens.length) [] (fun _ => goesOn) (appending item part)
      pure := by
  have hloop := hrun.loop_eq hahead htakes
  generalize (get >>= fun tokens : List Token => run tokens.length) = loop at hloop
  have hunfold (found : List β) (tokens : List Token) :
      (loop >>= fun others => pure (found ++ others)) tokens =
        if goesOn (tokens.head?.map Token.lexeme) then
          (appending item part found >>= fun found =>
            loop >>= fun others => pure (found ++ others)) tokens
        else .ok (found, tokens) := by
    obtain ⟨seen, hseen, hgoesOn⟩ := hlook tokens
    rw [hgoesOn]
    conv_lhs => rw [hloop]
    rw [bind_assoc, bind_of_ok hseen]
    cases hstops : stops seen with
    | true =>
        rw [if_pos rfl, Bool.not_true, if_neg Bool.false_ne_true, pure_bind, List.append_nil]
        rfl
    | false =>
        rw [if_neg Bool.false_ne_true, Bool.not_false, if_pos rfl]
        simp only [appending, bind_assoc, pure_bind, List.append_assoc]
  have hend : goesOn none = false := by
    obtain ⟨last, hlast, hstops⟩ := hrun.ends
    obtain ⟨seen, hseen, hgoesOn⟩ := hlook []
    obtain ⟨rfl, -⟩ := Prod.mk.inj (Except.ok.inj (hlast.symm.trans hseen))
    rw [hstops] at hgoesOn
    exact hgoesOn
  intro tokens
  obtain ⟨count, hcount, hloops⟩ := Loops.of_eq hunfold (fun _ => hend)
    (fun found => (hitem.wrap fun first => found ++ part first).consumes)
    (fun found => htakes.wrap fun first => found ++ part first) [] tokens
  refine ⟨count, hcount, _, hloops, ?_⟩
  show _ = (((loop >>= fun others => pure ([] ++ others)) >>= pure : Parse (List β)) tokens)
  simp only [List.nil_append, bind_pure]

end

/-! ### Blocks -/

/-- There is a next lexeme, and it closes no block. -/
def staysInBlock (next : Option Lexeme) : Bool :=
  next.any (· ≠ .punctuation .rightBrace)

variable {α : Type}

/-- The items of a block are a loop. It ends at a closing brace or at the end of the input. -/
def IsBlock (item : Parse α) : Prop :=
  IsLoop (items item) [] (fun _ => staysInBlock) (appending item fun first => [first]) pure

/-- The items up to a closing brace are a loop. -/
theorem isBlock {item : Parse α} (hitem : LeftToRight item) (htakes : Takes item) :
    IsBlock item := by
  refine (untilBrace_rounds item).isLoop .peekKind (fun tokens => ⟨_, rfl, ?_⟩) hitem htakes
  cases tokens with
  | nil => rfl
  | cons token tokens =>
      have hkind : token.lexeme.kind = .punctuation .rightBrace ↔
          token.lexeme = .punctuation .rightBrace :=
        ⟨Lexeme.eq_punctuation_of_kind, fun h => h ▸ rfl⟩
      simp [staysInBlock, hkind]

/-- Further settings are a loop. -/
theorem isLoop_furtherSettings :
    IsLoop (get >>= fun tokens => moreSettings tokens.length) []
      (fun _ next => next = some (.punctuation .comma))
      (appending (skip >>= fun _ => optionSetting) fun setting => [setting]) pure := by
  refine LeftToRight.moreSettings_rounds.isLoop .peekKind (fun tokens => ⟨_, rfl, ?_⟩)
    .furtherSetting LeftToRight.takes_furtherSetting
  cases tokens with
  | nil => rfl
  | cons token tokens =>
      have hkind : token.lexeme.kind = .punctuation .comma ↔
          token.lexeme = .punctuation .comma :=
        ⟨Lexeme.eq_punctuation_of_kind, fun h => h ▸ rfl⟩
      simp [hkind]

/-- The statements of a file are a loop. -/
theorem isLoop_statements :
    IsLoop statements [] (fun _ next => next.isSome) (appending statement Option.toList) pure := by
  refine (statementsWithin_rounds _).isLoop .peek (fun tokens => ⟨_, rfl, ?_⟩) .statement
    LeftToRight.takes_statement
  cases tokens <;> rfl

/-! ### Strings, aggregates and skipped statements -/

/-- The values of the adjacent strings in front, joined. -/
def adjacentStrings : Parse Text :=
  fun tokens => .ok (joinStrings tokens)

/-- Adjacent strings are a loop. -/
theorem isLoop_adjacentStrings :
    IsLoop adjacentStrings [] (fun _ next => next.any (·.kind = .string))
      (fun joined => expect .string >>= fun value => pure (joined ++ value)) pure := by
  have hpure {joined other : Text} (h : joined = other) (rest : List Token) :
      (pure joined : Parse Text) rest = (pure other : Parse Text) rest := by rw [h]
  have hloop (tokens : List Token) (joined : Text) :
      IsLoopAt (adjacentStrings >>= fun later => pure (joined ++ later)) joined
        (fun _ next => next.any (·.kind = .string))
        (fun joined => expect .string >>= fun value => pure (joined ++ value)) pure tokens := by
    induction tokens generalizing joined with
    | nil => exact .stops rfl (hpure (List.append_nil joined) [])
    | cons token tokens ih =>
        obtain ⟨lexeme, position⟩ := token
        cases lexeme with
        | string value =>
            refine .goesOn rfl rfl (ih (joined ++ value)) ?_
            exact hpure (List.append_assoc joined value _).symm (joinStrings tokens).2
        | keyword | punctuation | identifier | number =>
            exact .stops rfl (hpure (List.append_nil joined) _)
  exact fun tokens => hloop tokens []

/-- How many braces are open after a lexeme. -/
def depthAfter (depth : Nat) : Lexeme → Nat
  | .punctuation .leftBrace => depth + 1
  | .punctuation .rightBrace => depth - 1
  | _ => depth

/-- The body of the loop over an aggregate, whose state is the number of open braces and the parts
so far: the next lexeme is a part. -/
def aggregateStep (state : Nat × List Text) : Parse (Nat × List Text) := do
  match ← peek with
  | some lexeme =>
      skip
      return (depthAfter state.1 lexeme, state.2 ++ [aggregatePart lexeme])
  | none => return state

/-- The end of the loop over an aggregate: it is refused at the end of the input if a brace is still
open. -/
def finishAggregate (state : Nat × List Text) : Parse Constant :=
  if 0 < state.1 then refuse .unterminatedAggregate
  else pure (.text (Text.join (Text.ofString " ") state.2))

/-- The rest of an aggregate after some parts, with `depth` further braces open. -/
def aggregateAfter (parts : List Text) (depth : Nat) : Parse Constant := fun tokens =>
  (aggregateParts depth tokens).elim (.error (.refused .unterminatedAggregate [])) fun found =>
    .ok (.text (Text.join (Text.ofString " ") (parts ++ found.1)), found.2)

/-- A lexeme that does not close an aggregate is a part in front of the others. -/
theorem aggregateAfter_cons {depth deeper : Nat} {token : Token} {tokens : List Token}
    (h : aggregateParts depth (token :: tokens) = (aggregateParts deeper tokens).bind fun found =>
      some (aggregatePart token.lexeme :: found.1, found.2)) (parts : List Text) :
    aggregateAfter parts depth (token :: tokens) =
      aggregateAfter (parts ++ [aggregatePart token.lexeme]) deeper tokens := by
  rw [aggregateAfter, aggregateAfter, h]
  cases aggregateParts deeper tokens with
  | none => rfl
  | some found => simp

/-- An aggregate is a loop, after its opening brace. -/
theorem isLoop_aggregate :
    IsLoop aggregate (1, [Punctuation.leftBrace.spelling])
      (fun state next => next.isSome && decide (0 < state.1)) aggregateStep finishAggregate := by
  have hloop (tokens : List Token) (depth : Nat) (parts : List Text) :
      IsLoopAt (aggregateAfter parts depth) (depth + 1, parts)
        (fun state next => next.isSome && decide (0 < state.1)) aggregateStep finishAggregate
        tokens := by
    induction tokens generalizing depth parts with
    | nil => exact .stops rfl rfl
    | cons token tokens ih =>
        obtain ⟨lexeme, position⟩ := token
        cases lexeme with
        | punctuation mark =>
            cases mark with
            | leftBrace => exact .goesOn rfl rfl (ih (depth + 1) _) (aggregateAfter_cons rfl parts)
            | rightBrace =>
                cases depth with
                | succ depth => exact .goesOn rfl rfl (ih depth _) (aggregateAfter_cons rfl parts)
                | zero => exact .goesOn rfl rfl (.stops (Bool.and_false _) rfl) rfl
            | _ => exact .goesOn rfl rfl (ih depth _) (aggregateAfter_cons rfl parts)
        | keyword | identifier | number | string =>
            exact .goesOn rfl rfl (ih depth _) (aggregateAfter_cons rfl parts)
  intro tokens
  have haggregate :
      aggregate tokens = aggregateAfter [Punctuation.leftBrace.spelling] 0 tokens := by
    rw [aggregate, aggregateAfter]
    cases aggregateParts 0 tokens <;> rfl
  rw [IsLoopAt, haggregate]
  exact hloop tokens 0 _

/-- The body of the loop over a skipped statement, whose state says whether the semicolon was met.
-/
def skipStep (_ : Bool) : Parse Bool := do
  let next ← peek
  skip
  return next = some (.punctuation .semicolon)

/-- A skipped statement is a loop. -/
theorem isLoop_skipStatement :
    IsLoop skipStatement false (fun ended next => next.isSome && !ended) skipStep
      fun _ => pure () := by
  have hstep (token : Token) (rest : List Token) : skipStep false (token :: rest) =
      .ok (decide (some token.lexeme = some (.punctuation .semicolon)), rest) := rfl
  intro tokens
  induction tokens with
  | nil => exact .stops rfl rfl
  | cons token tokens ih =>
      have hbody := hstep token tokens
      by_cases hend : token.lexeme = .punctuation .semicolon
      · rw [decide_eq_true (congrArg some hend)] at hbody
        have hdone : IsLoopAt (pure () : Parse Unit) true (fun ended next => next.isSome && !ended)
            skipStep (fun _ => pure ()) tokens := .stops (Bool.and_false _) rfl
        exact .goesOn rfl hbody hdone (LeftToRight.skipStatement_of_semicolon hend tokens)
      · rw [decide_eq_false fun h => hend (Option.some.inj h)] at hbody
        exact .goesOn rfl hbody ih (LeftToRight.skipStatement_of_ne hend tokens)

/-! ### All loops -/

/-- Every loop of the grammar is a loop whose body takes tokens or fails. Those that parse items
collect what the items give, and the other three keep a state of their own. -/
structure LoopsAdvance : Prop where
  statements :
    IsLoop Parse.statements [] (fun _ next => next.isSome) (appending statement Option.toList) pure
  messageBody : IsBlock (bodyStatement Parse.messageBody)
  oneof (name : Text) : IsBlock (oneofEntry Parse.messageBody name)
  extension : IsBlock (orSemicolon (field Parse.messageBody none))
  enumType : IsBlock enumEntry
  service : IsBlock serviceEntry
  method : IsBlock methodEntry
  bracketOptions :
    IsLoop (get >>= fun tokens => moreSettings tokens.length) []
      (fun _ next => next = some (.punctuation .comma))
      (appending (skip >>= fun _ => optionSetting) fun setting => [setting]) pure
  adjacentStrings :
    IsLoop Parse.adjacentStrings [] (fun _ next => next.any (·.kind = .string))
      (fun joined => expect .string >>= fun value => pure (joined ++ value)) pure
  aggregate :
    IsLoop Parse.aggregate (1, [Punctuation.leftBrace.spelling])
      (fun state next => next.isSome && decide (0 < state.1)) aggregateStep finishAggregate
  skipStatement :
    IsLoop Parse.skipStatement false (fun ended next => next.isSome && !ended) skipStep
      fun _ => pure ()

/-- No loop of the grammar stays where it is. -/
theorem loopsAdvance : LoopsAdvance :=
  have hbody := LeftToRight.messageBody
  { statements := isLoop_statements
    messageBody := isBlock (.bodyStatement hbody) (LeftToRight.takes_bodyStatement hbody)
    oneof := fun name => isBlock (.oneofEntry hbody name) (LeftToRight.takes_oneofEntry hbody name)
    extension := isBlock (.orSemicolon (.field hbody none) nofun)
      (LeftToRight.takes_orSemicolon_field hbody none)
    enumType := isBlock .enumEntry LeftToRight.takes_enumEntry
    service := isBlock .serviceEntry LeftToRight.takes_serviceEntry
    method := isBlock .methodEntry LeftToRight.takes_methodEntry
    bracketOptions := isLoop_furtherSettings
    adjacentStrings := isLoop_adjacentStrings
    aggregate := isLoop_aggregate
    skipStatement := isLoop_skipStatement }

end ProtoSchema.Parse
