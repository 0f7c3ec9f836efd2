import ProtoSchema.Proofs.Parser.Lookahead
import ProtoSchema.Proofs.Schema.Namespace

/-!
# Concatenated inputs

A statement of a file ends with a token of its own, a semicolon or a brace
(`Parse.EndsWith.statement`). So what follows it has no influence on it, and the statements of two
inputs, one after the other, are those of the first and then those of the second
(`Parse.statements_append`).
-/

namespace ProtoSchema

namespace Parse

variable {α β : Type}

/-- What the parse gives where it succeeds on this input depends on the tokens that it takes alone,
and it takes one. -/
def ClosedAt (parse : Parse α) (tokens : List Token) : Prop :=
  ∀ (value : α) (rest : List Token), parse tokens = .ok (value, rest) →
    ∃ taken, taken ≠ [] ∧ tokens = taken ++ rest ∧
      ∀ following, parse (taken ++ following) = .ok (value, following)

/-- Where the parse succeeds, what it gives depends on the tokens that it takes alone. -/
def Closed (parse : Parse α) : Prop :=
  ∀ tokens, ClosedAt parse tokens

/-- What the parse gives where it succeeds on this input depends on the tokens that it takes alone,
and the last one is one of these marks. -/
def EndsWithAt (marks : List Punctuation) (parse : Parse α) (tokens : List Token) : Prop :=
  ∀ (value : α) (rest : List Token), parse tokens = .ok (value, rest) →
    ∃ before last, tokens = before ++ last :: rest ∧
      (∃ mark ∈ marks, last.lexeme = .punctuation mark) ∧
      ∀ following, parse (before ++ last :: following) = .ok (value, following)

/-- Where the parse succeeds, what it gives depends on the tokens that it takes alone, and the last
one is one of these marks. -/
def EndsWith (marks : List Punctuation) (parse : Parse α) : Prop :=
  ∀ tokens, EndsWithAt marks parse tokens

/-- The marks that end a statement. -/
def statementEnds : List Punctuation :=
  [.semicolon, .rightBrace]

variable {marks : List Punctuation}

/-- A parse that ends with a mark is closed. -/
theorem EndsWithAt.closedAt {parse : Parse α} {tokens : List Token}
    (h : EndsWithAt marks parse tokens) : ClosedAt parse tokens := by
  intro value rest hparse
  obtain ⟨before, last, rfl, -, hclosed⟩ := h value rest hparse
  refine ⟨before ++ [last], by simp, List.append_cons .., fun following => ?_⟩
  rw [List.append_assoc]
  exact hclosed following

/-- A choice by the next token ends with a mark if the choice for this token does. -/
theorem EndsWithAt.peekKind {next : Option TokenKind → Parse α} {token : Token}
    {tokens : List Token}
    (hnext : EndsWithAt marks (next (some token.lexeme.kind)) (token :: tokens)) :
    EndsWithAt marks (Parse.peekKind >>= next) (token :: tokens) := by
  intro value rest h
  obtain ⟨before, last, htokens, hmark, hclosed⟩ := hnext value rest h
  refine ⟨before, last, htokens, hmark, fun following => ?_⟩
  cases before with
  | nil =>
      obtain ⟨rfl, -⟩ := List.cons.inj htokens
      exact hclosed following
  | cons head before =>
      obtain ⟨rfl, -⟩ := List.cons.inj htokens
      exact hclosed following

namespace EndsWith

variable {parse : Parse α} {next : α → Parse β}

/-- A parse that ends with a mark is closed. -/
theorem closed (h : EndsWith marks parse) : Closed parse :=
  fun tokens => (h tokens).closedAt

/-- A mark. -/
theorem mark {mark : Punctuation} (hmem : mark ∈ marks) : EndsWith marks (Parse.mark mark) := by
  intro tokens value rest h
  obtain ⟨token, rfl, hlexeme⟩ := mark_eq_ok h
  have hkind : token.lexeme.kind = .punctuation mark := by
    rw [hlexeme]
    rfl
  exact ⟨[], token, rfl, ⟨mark, hmem, hlexeme⟩, fun following => bind_of_ok (if_pos hkind)⟩

/-- A value that is wrapped up. -/
theorem wrap (hparse : EndsWith marks parse) (f : α → β) :
    EndsWith marks (parse >>= fun value => Pure.pure (f value)) := by
  intro tokens result rest h
  obtain ⟨⟨value, middle⟩, hvalue, h⟩ := bind_eq_ok_iff.mp h
  obtain ⟨rfl, rfl⟩ := Prod.mk.inj (Except.ok.inj h)
  obtain ⟨before, last, htokens, hmark, hclosed⟩ := hparse tokens value middle hvalue
  exact ⟨before, last, htokens, hmark, fun following => bind_of_ok (hclosed following)⟩

/-- A chain ends as its last parse does. The parse before it may look at the token that comes next,
which the last one takes. -/
theorem bind (hparse : LeftToRight parse) (hnext : ∀ value, EndsWith marks (next value)) :
    EndsWith marks (parse >>= next) := by
  intro tokens result rest h
  obtain ⟨⟨value, middle⟩, hvalue, hlast⟩ := bind_eq_ok_iff.mp h
  obtain ⟨taken, rfl, htaken⟩ := hparse.ok hvalue
  obtain ⟨before, last, rfl, hmark, hclosed⟩ := hnext value middle result rest hlast
  refine ⟨taken ++ before, last, (List.append_assoc ..).symm, hmark, fun following => ?_⟩
  have hfirst := htaken taken (before ++ last :: following) (.refl taken) (by cases before <;> rfl)
  rw [List.append_assoc]
  exact (bind_of_ok hfirst).trans (hclosed following)

/-- Either branch ends with a mark. -/
theorem ite {condition : Prop} [Decidable condition] {first second : Parse α}
    (hfirst : EndsWith marks first) (hsecond : EndsWith marks second) :
    EndsWith marks (if condition then first else second) := by
  split
  · exact hfirst
  · exact hsecond

/-- A semicolon, behind which a value is wrapped up. -/
theorem semicolon (value : α) :
    EndsWith statementEnds (Parse.mark .semicolon >>= fun _ => Pure.pure value) :=
  wrap (mark List.mem_cons_self) fun _ => value

/-- A closing brace, behind which a value is wrapped up. -/
theorem rightBrace (value : α) :
    EndsWith statementEnds (Parse.mark .rightBrace >>= fun _ => Pure.pure value) :=
  wrap (mark (List.mem_cons_of_mem _ List.mem_cons_self)) fun _ => value

/-- Items between braces. -/
theorem braced {item : Parse α} (hitem : LeftToRight item) (hasks : ¬ AsksConstant item)
    (htakes : Takes item) : EndsWith statementEnds (Parse.braced item) := by
  rw [braced_eq]
  exact bind (.mark _) fun _ => bind (.items hitem hasks htakes) fun found => rightBrace found

/-- Options between brackets. -/
theorem bracketOptions {token : Token} (h : token.lexeme = .punctuation .leftBracket)
    (tokens : List Token) : EndsWithAt [.rightBracket] Parse.bracketOptions (token :: tokens) := by
  have hothers := LeftToRight.moreSettings_rounds.leftToRight_loop .peekKind .furtherSetting nofun
    LeftToRight.takes_furtherSetting
  refine EndsWithAt.peekKind ?_
  rw [h, Lexeme.kind, if_pos rfl]
  refine bind .skip (fun _ => bind .optionSetting fun first => ?_) _
  show EndsWith [.rightBracket] ((get >>= fun tokens : List Token =>
    Parse.moreSettings tokens.length) >>= fun others =>
      Parse.mark .rightBracket >>= fun _ => Pure.pure (first :: others))
  exact bind hothers fun others => wrap (mark List.mem_cons_self) fun _ => first :: others

/-! ### Statements -/

/-- The dialect statement. -/
theorem dialectStatement : EndsWith statementEnds Parse.dialectStatement :=
  bind (.keyword _) fun _ => bind (.mark _) fun _ => bind (.expect _) fun _ => semicolon _

/-- The package statement. -/
theorem packageStatement : EndsWith statementEnds Parse.packageStatement :=
  bind (.keyword _) fun _ => bind (.expect _) fun _ => semicolon _

/-- The import statement. -/
theorem importStatement : EndsWith statementEnds Parse.importStatement :=
  bind (.keyword _) fun _ => bind .importModifier fun _ => bind (.expect _) fun _ => semicolon _

/-- An option statement. -/
theorem optionStatement : EndsWith statementEnds Parse.optionStatement :=
  bind (.keyword _) fun _ => bind .optionSetting fun _ => semicolon _

/-- A message. -/
theorem message : EndsWith statementEnds (Parse.message Parse.messageBody) :=
  bind (.keyword _) fun _ => bind .name fun _ => bind (.mark _) fun _ => bind .messageBody fun _ =>
    rightBrace _

/-- An enumeration. -/
theorem enumType : EndsWith statementEnds Parse.enumType :=
  bind (.keyword _) fun _ => bind .name fun _ =>
    wrap (braced .enumEntry nofun LeftToRight.takes_enumEntry) fun _ => _

/-- A service. -/
theorem service : EndsWith statementEnds Parse.service :=
  bind (.keyword _) fun _ => bind .name fun _ =>
    wrap (braced .serviceEntry nofun LeftToRight.takes_serviceEntry) fun _ => _

/-- An extend block. -/
theorem extension : EndsWith statementEnds (Parse.extension Parse.messageBody) :=
  bind (.keyword _) fun _ => bind (.expect _) fun _ =>
    wrap (braced (.orSemicolon (.field .messageBody none) nofun) nofun
      (LeftToRight.takes_orSemicolon_field .messageBody none)) fun _ => _

/-- A statement at the top level, of any form. -/
theorem statement : EndsWith statementEnds Parse.statement := by
  intro tokens
  cases tokens with
  | nil => exact fun value rest h => ok_error_elim h rfl
  | cons token tokens =>
      refine EndsWithAt.peekKind ?_
      split
      · exact wrap dialectStatement some _
      · exact wrap packageStatement some _
      · exact wrap importStatement some _
      · exact wrap optionStatement (fun setting => _) _
      · exact wrap message (fun members => _) _
      · exact wrap enumType (fun enum => _) _
      · exact wrap service (fun service => _) _
      · exact wrap extension (fun members => _) _
      next hkind =>
        -- A lone semicolon is the whole statement.
        intro value rest h
        obtain ⟨rfl, rfl⟩ := Prod.mk.inj (Except.ok.inj h)
        have hlexeme := Lexeme.eq_punctuation_of_kind (Option.some.inj hkind)
        exact ⟨[], token, rfl, ⟨_, List.mem_cons_self, hlexeme⟩, fun following => rfl⟩
      · exact fun value rest h => ok_error_elim h rfl

end EndsWith

/-- The statements of an input are those of its two parts, if both parts are accepted. -/
theorem statements_append {first second rest : List Token} {firsts seconds : List Statement}
    (hfirst : statements first = .ok (firsts, rest))
    (hsecond : statements second = .ok (seconds, [])) :
    statements (first ++ second) = .ok (firsts ++ seconds, []) := by
  refine (statements_induction
    (motive := fun tokens found => statements (tokens ++ second) = .ok (found ++ seconds, []))
    hsecond (fun tokens found rest others hfound hothers => ?_) hfirst).2
  obtain ⟨taken, htaken, rfl, hclosed⟩ := EndsWith.statement.closed tokens found rest hfound
  obtain ⟨token, taken, rfl⟩ := List.exists_cons_of_ne_nil htaken
  rw [List.append_assoc, List.append_assoc]
  refine (statements_cons token (taken ++ (rest ++ second))).trans ?_
  exact (bind_of_ok (hclosed (rest ++ second))).trans (bind_of_ok hothers)

/-! ### What statements declare -/

/-- Whatever the parse gives satisfies the condition. -/
def Gives (parse : Parse α) (post : α → Prop) : Prop :=
  ∀ (tokens : List Token) (value : α) (rest : List Token),
    parse tokens = .ok (value, rest) → post value

namespace Gives

variable {parse : Parse α} {next : α → Parse β} {post : β → Prop}

/-- A pure parse gives its value. -/
theorem pure {value : β} (h : post value) : Gives (Pure.pure value : Parse β) post := by
  intro tokens found rest hparse
  obtain ⟨rfl, -⟩ := Prod.mk.inj (Except.ok.inj hparse)
  exact h

/-- A chain gives what its last parse gives. -/
theorem after {middle : α → Prop} (hparse : Gives parse middle)
    (hnext : ∀ value, middle value → Gives (next value) post) : Gives (parse >>= next) post := by
  intro tokens result rest h
  obtain ⟨⟨value, following⟩, hvalue, hlast⟩ := bind_eq_ok_iff.mp h
  exact hnext value (hparse tokens value following hvalue) following result rest hlast

/-- A chain gives what its last parse gives, whatever the parses before it give. -/
theorem bind (hnext : ∀ value, Gives (next value) post) : Gives (parse >>= next) post :=
  have hany : Gives parse fun _ => True := fun _ _ _ _ => trivial
  after hany fun value _ => hnext value

/-- The package statement sets a package. -/
theorem packageStatement :
    Gives Parse.packageStatement fun found => ∃ name, found = .package name :=
  bind fun _ => bind fun name => bind fun _ => pure ⟨name, rfl⟩

/-- A statement declares no namespaces. -/
theorem statement : Gives Parse.statement fun found =>
    ∀ statement ∈ found.toList, statement.DeclaresPlain := by
  have hsome {statement : Statement} (h : statement.DeclaresPlain) :
      ∀ other ∈ (some statement).toList, other.DeclaresPlain := by
    intro other hother
    rwa [List.mem_singleton.mp hother]
  have hnone {statement : Statement} (h : statement.declarations = []) :
      statement.DeclaresPlain := by
    simp [Statement.DeclaresPlain, h]
  have hone {declaration : Declaration} (h : declaration.isPlain) :
      (Statement.declare [declaration] []).DeclaresPlain := by
    intro other hother
    rwa [List.mem_singleton.mp hother]
  have hmessages (members : Members) : (declaring members).DeclaresPlain := by
    intro declaration hmem
    obtain ⟨message, -, rfl⟩ := List.mem_map.mp hmem
    rfl
  have hdialect : Gives dialectStatement fun found => found.declarations = [] :=
    bind fun _ => bind fun _ => bind fun _ => bind fun _ => pure rfl
  have himport : Gives importStatement fun found => found.declarations = [] :=
    bind fun _ => bind fun _ => bind fun _ => bind fun _ => pure rfl
  refine bind fun kind? => ?_
  split
  · exact after hdialect fun _ h => pure (hsome (hnone h))
  · refine after packageStatement fun _ h => ?_
    obtain ⟨name, rfl⟩ := h
    exact pure (hsome (hnone rfl))
  · exact after himport fun _ h => pure (hsome (hnone h))
  · exact bind fun _ => pure (hsome (hnone rfl))
  · exact bind fun members => pure (hsome (hmessages members))
  · exact bind fun _ => pure (hsome (hone rfl))
  · exact bind fun _ => pure (hsome (hone rfl))
  · exact bind fun members => pure (hsome (hmessages members))
  · exact bind fun _ => pure fun _ h => absurd h List.not_mem_nil
  · exact fun _ _ _ h => ok_error_elim h rfl

/-- The statements of a file declare no namespaces. -/
theorem statements : Gives Parse.statements fun found =>
    ∀ statement ∈ found, statement.DeclaresPlain := by
  intro tokens found rest h
  refine (statements_induction
    (motive := fun _ found => ∀ statement ∈ found, statement.DeclaresPlain)
    (fun _ h => absurd h List.not_mem_nil) (fun tokens first rest others hfirst hothers => ?_) h).2
  exact List.forall_mem_append.mpr ⟨statement tokens first rest hfirst, hothers⟩

end Gives

/-- Where the first token is the word for the package, the first statement sets the package. -/
theorem statements_of_package {token : Token} {tokens rest : List Token} {found : List Statement}
    (hpackage : token.lexeme = .keyword .package)
    (h : statements (token :: tokens) = .ok (found, rest)) :
    ∃ name others, found = .package name :: others := by
  obtain ⟨lexeme, position⟩ := token
  obtain rfl := hpackage
  rw [statements_cons] at h
  obtain ⟨⟨first, middle⟩, hfirst, h⟩ := bind_eq_ok_iff.mp h
  obtain ⟨⟨others, last⟩, -, h⟩ := bind_eq_ok_iff.mp h
  obtain ⟨rfl, -⟩ := Prod.mk.inj (Except.ok.inj h)
  obtain ⟨⟨statement, following⟩, hstatement, hfirst⟩ := bind_eq_ok_iff.mp
    (show (packageStatement >>= fun statement => pure (some statement)) _ = _ from hfirst)
  obtain ⟨rfl, -⟩ := Prod.mk.inj (Except.ok.inj hfirst)
  obtain ⟨name, rfl⟩ := Gives.packageStatement _ _ _ hstatement
  exact ⟨name, others, rfl⟩

end Parse

end ProtoSchema
