import ProtoSchema.Proofs.Parser.Lookahead
import ProtoSchema.Proofs.Parser.Sourced
import ProtoSchema.Proofs.Schema.Namespace

/-!
# What a parse yields

What is known of the members and statements that a parse gives, whatever the tokens are. `Yields`
has one rule for each way to chain parses and one for each grammar rule that makes members of a
message. `Yields.statements` is the main statement: all messages that a file declares are sourced,
by the braces among its tokens.
-/

namespace ProtoSchema.Parse

open Lexer (IsName IsIdentifier IsWord)

variable {α β : Type}

/-- The tokens come from a scan: every name among them is the word that it is spelled as. -/
def Scanned (tokens : List Token) : Prop :=
  ∀ token ∈ tokens, token.lexeme.isName →
    IsWord token.lexeme.value ∧ Lexeme.ofWord token.lexeme.value = token.lexeme

/-- How many of the tokens are opening braces. -/
def braces (tokens : List Token) : Nat :=
  (tokens.map Token.lexeme).count (.punctuation .leftBrace)

/-- The end of a list has no more braces than the list. -/
theorem braces_le_of_suffix {tokens rest : List Token} (h : rest <:+ tokens) :
    braces rest ≤ braces tokens :=
  (h.sublist.map Token.lexeme).count_le _

/-- The parse leaves the end of its input, and what it gives satisfies `post`, which may count
braces that the parse has taken. -/
def Yields (parse : Parse α) (post : Nat → α → Prop) : Prop :=
  ∀ (tokens : List Token) (value : α) (rest : List Token), Scanned tokens →
    parse tokens = .ok (value, rest) →
      rest <:+ tokens ∧ ∃ cost, braces rest + cost ≤ braces tokens ∧ post cost value

namespace Yields

/-! ### Chains -/

section

variable {parse : Parse α} {next : α → Parse β} {post : Nat → β → Prop}

/-- A pure parse takes no brace. -/
theorem pure {value : β} (h : post 0 value) : Yields (Pure.pure value : Parse β) post := by
  intro tokens found rest _ hparse
  obtain ⟨rfl, rfl⟩ := Prod.mk.inj (Except.ok.inj hparse)
  exact ⟨List.suffix_rfl, 0, Nat.le_refl _, h⟩

/-- What satisfies a stronger condition satisfies a weaker one. -/
theorem mono {first : Nat → β → Prop} {parse : Parse β} (h : Yields parse first)
    (hpost : ∀ cost value, first cost value → post cost value) : Yields parse post := by
  intro tokens value rest hscanned hparse
  obtain ⟨hsuffix, cost, hcost, hfirst⟩ := h tokens value rest hscanned hparse
  exact ⟨hsuffix, cost, hcost, hpost cost value hfirst⟩

/-- The braces of a chain add up. -/
theorem bind {middle : Nat → α → Prop} (hparse : Yields parse middle)
    (hnext : ∀ cost value, middle cost value →
      Yields (next value) fun more => post (cost + more)) : Yields (parse >>= next) post := by
  intro tokens result rest hscanned h
  obtain ⟨⟨value, following⟩, hfirst, hsecond⟩ := bind_eq_ok_iff.mp h
  obtain ⟨hfollowing, cost, hcost, hmiddle⟩ := hparse tokens value following hscanned hfirst
  have hrest : Scanned following := fun token hmem => hscanned token (hfollowing.subset hmem)
  obtain ⟨hsuffix, more, hmore, hpost⟩ :=
    hnext cost value hmiddle following result rest hrest hsecond
  exact ⟨hsuffix.trans hfollowing, cost + more, by omega, hpost⟩

/-- A chain whose first parse gives something of a certain form, whatever braces it takes. -/
theorem after {fact : α → Prop} (hparse : Yields parse fun _ => fact)
    (hnext : ∀ value, fact value → Yields (next value) post) : Yields (parse >>= next) post := by
  -- Braces that nobody counts may be counted as none.
  have hfree : Yields parse fun cost value => cost = 0 ∧ fact value := by
    intro tokens value rest hscanned h
    obtain ⟨hsuffix, -, -, hfact⟩ := hparse tokens value rest hscanned h
    exact ⟨hsuffix, 0, braces_le_of_suffix hsuffix, rfl, hfact⟩
  refine bind hfree fun cost value hvalue => ?_
  obtain ⟨rfl, hfact⟩ := hvalue
  simpa only [Nat.zero_add] using hnext value hfact

/-- A chain whose first parse may give anything. -/
theorem skip (hparse : Consumes parse) (hnext : ∀ value, Yields (next value) post) :
    Yields (parse >>= next) post := by
  have hany : Yields parse fun _ _ => True := by
    intro tokens value rest _ h
    have hsuffix := hparse tokens value rest h
    exact ⟨hsuffix, 0, braces_le_of_suffix hsuffix, trivial⟩
  exact after hany fun value _ => hnext value

/-- Either branch may be taken. -/
theorem ite {condition : Prop} [Decidable condition] {first second : Parse β}
    (hfirst : Yields first post) (hsecond : Yields second post) :
    Yields (if condition then first else second) post := by
  by_cases h : condition
  · rwa [if_pos h]
  · rwa [if_neg h]

end

/-! ### The vocabulary -/

/-- What is taken as a name is a name. -/
theorem name : Yields Parse.name fun _ => IsName := by
  intro tokens value rest hscanned h
  obtain ⟨token, rfl, hname, rfl⟩ := name_eq_ok h
  have hword := (hscanned token List.mem_cons_self hname).1
  refine ⟨List.suffix_cons token rest, 0, ?_, Lexer.isName_iff.mpr hword⟩
  exact braces_le_of_suffix (List.suffix_cons token rest)

/-- What is taken as an identifier is an identifier. -/
theorem identifier : Yields (expect .identifier) fun _ => IsIdentifier := by
  intro tokens value rest hscanned h
  obtain ⟨token, rfl, hkind, rfl⟩ := expect_eq_ok h
  have hlexeme := Lexeme.eq_identifier_of_kind hkind
  have hname : token.lexeme.isName := by
    rw [hlexeme]
    rfl
  obtain ⟨hword, hspelled⟩ := hscanned token List.mem_cons_self hname
  refine ⟨List.suffix_cons token rest, 0, ?_, ?_⟩
  · exact braces_le_of_suffix (List.suffix_cons token rest)
  · exact Lexer.isIdentifier_iff.mpr ⟨hword, hspelled.trans hlexeme⟩

/-- An opening brace is one brace. -/
theorem leftBrace : Yields (mark .leftBrace) fun cost _ => cost = 1 := by
  intro tokens value rest _ h
  obtain ⟨token, rfl, hlexeme⟩ := mark_eq_ok h
  refine ⟨List.suffix_cons token rest, 1, ?_, rfl⟩
  simp [braces, hlexeme]

/-- Items up to a closing brace bring what each of them brings. -/
theorem untilBrace {item : Parse Members} (hitem : Yields item Members.AreSourced) (fuel : Nat) :
    Yields (Parse.untilBrace item fuel) fun cost parts =>
      (Members.concat parts).AreSourced cost := by
  have hnil : (Members.concat []).AreSourced 0 := .of_nil rfl rfl 0
  induction fuel with
  | zero => exact pure hnil
  | succ fuel ih =>
      refine skip LeftToRight.peekKind.consumes fun kind? => ?_
      cases kind? with
      | none => exact pure hnil
      | some kind =>
          refine ite (pure hnil) ?_
          refine bind hitem fun cost first hfirst => ?_
          refine bind ih fun more others hothers => ?_
          exact pure (hfirst.append hothers)

/-- A block brings what its items bring. -/
theorem braced {item : Parse Members} (hitem : Yields item Members.AreSourced) :
    Yields (Parse.braced item) fun cost parts => (Members.concat parts).AreSourced cost := by
  refine skip (LeftToRight.mark _).consumes fun _ => ?_
  refine skip Consumes.input fun tokens => ?_
  refine bind (untilBrace hitem tokens.length) fun cost parts hparts => ?_
  exact skip (LeftToRight.mark _).consumes fun _ => pure hparts

/-! ### Fields -/

/-- A map type is made of two identifiers. -/
theorem mapType : Yields Parse.mapType fun _ type =>
    ∃ key value, IsIdentifier key ∧ IsIdentifier value ∧ type = mapTypeText key value := by
  refine skip (LeftToRight.keyword _).consumes fun _ => ?_
  refine skip (LeftToRight.mark _).consumes fun _ => ?_
  refine after identifier fun key hkey => ?_
  refine skip (LeftToRight.mark _).consumes fun _ => ?_
  refine after identifier fun value hvalue => ?_
  exact skip (LeftToRight.mark _).consumes fun _ => pure ⟨key, value, hkey, hvalue, rfl⟩

/-- A field statement that is no group has a name, and an identifier or a map type as its type. -/
theorem plainField (label : Option Label) (oneof : Option Text) :
    Yields (Parse.plainField label oneof) fun _ members => ∃ field : Field,
      members = { fields := [field] } ∧ IsName field.name ∧ (IsIdentifier field.type ∨
        ∃ key value, IsIdentifier key ∧ IsIdentifier value ∧
          field.type = mapTypeText key value) := by
  have htype : Yields fieldType fun _ type => IsIdentifier type ∨
      ∃ key value, IsIdentifier key ∧ IsIdentifier value ∧ type = mapTypeText key value := by
    refine skip LeftToRight.peekKind.consumes fun kind? => ite ?_ ?_
    · exact mapType.mono fun _ _ => .inr
    · exact identifier.mono fun _ _ => .inl
  refine after htype fun type htype => ?_
  refine after name fun fieldName hname => ?_
  refine skip (LeftToRight.mark _).consumes fun _ => ?_
  refine skip LeftToRight.integer.consumes fun number => ?_
  refine skip LeftToRight.bracketOptions.consumes fun options => ?_
  exact skip (LeftToRight.mark _).consumes fun _ => pure ⟨_, rfl, hname, htype⟩

/-- The word `group` is the type of a field statement only where a group starts. -/
theorem startsGroup_of_plainField {label : Option Label} {oneof : Option Text} {field : Field}
    {tokens rest : List Token} (hscanned : Scanned tokens)
    (h : Parse.plainField label oneof tokens = .ok ({ fields := [field] }, rest))
    (htype : field.type = Text.ofString "group") : startsGroup tokens := by
  obtain ⟨⟨type, afterType⟩, hparse, h⟩ := bind_eq_ok_iff.mp h
  obtain ⟨⟨fieldName, afterName⟩, hname, h⟩ := bind_eq_ok_iff.mp h
  obtain ⟨⟨_, afterMark⟩, hmark, h⟩ := bind_eq_ok_iff.mp h
  obtain ⟨⟨number, afterNumber⟩, -, h⟩ := bind_eq_ok_iff.mp h
  obtain ⟨⟨options, afterOptions⟩, -, h⟩ := bind_eq_ok_iff.mp h
  obtain ⟨⟨_, following⟩, -, h⟩ := bind_eq_ok_iff.mp h
  have hfield := congrArg Members.fields (Prod.mk.inj (Except.ok.inj h)).1
  obtain rfl : type = field.type := congrArg Field.type (List.cons.inj hfield).1
  obtain ⟨second, rfl, -⟩ := name_eq_ok hname
  obtain ⟨third, rfl, hthird⟩ := mark_eq_ok hmark
  change (if tokens.head?.map (Lexeme.kind ∘ Token.lexeme) = some (.keyword .map) then
    Parse.mapType else expect .identifier) tokens = _ at hparse
  by_cases hmap : tokens.head?.map (Lexeme.kind ∘ Token.lexeme) = some (.keyword .map)
  · -- A map type starts with another letter than the word.
    rw [if_pos hmap] at hparse
    obtain ⟨-, -, -, key, value, -, -, hmapType⟩ := mapType tokens _ _ hscanned hparse
    have hhead := congrArg List.head? (hmapType.symm.trans htype)
    exact absurd (Option.some.inj hhead)
      (show CodePoint.ofChar 'm' ≠ CodePoint.ofChar 'g' by decide)
  · rw [if_neg hmap] at hparse
    obtain ⟨first, rfl, hkind, hvalue⟩ := expect_eq_ok hparse
    have hfirst : first.lexeme = .identifier (Text.ofString "group") := by
      rw [Lexeme.eq_identifier_of_kind hkind, hvalue, htype]
    simp [startsGroup, hfirst, hthird]

variable {body : Parse Members}

/-- A group is sourced by its own brace and by those of its body. -/
theorem group (hbody : Yields body Members.AreSourced) (label : Option Label)
    (oneof : Option Text) : Yields (Parse.group body label oneof) Members.AreSourced := by
  refine skip (LeftToRight.expect _).consumes fun _ => ?_
  refine after name fun type htype => ?_
  refine skip (LeftToRight.mark _).consumes fun _ => ?_
  refine skip LeftToRight.integer.consumes fun number => ?_
  refine skip LeftToRight.bracketOptions.consumes fun options => ?_
  refine bind leftBrace fun cost _ hcost => ?_
  refine bind hbody fun more members hmembers => ?_
  refine skip (LeftToRight.mark _).consumes fun _ => pure ?_
  have hfield : Field.IsGroup
      { name := Text.lower type, number, type, isRepeated := repeats label, label, oneof,
        options } := ⟨htype, rfl⟩
  exact (Members.AreSourced.group hfield hmembers).mono (by omega)

/-- A field is plain or that of a group. -/
theorem field (hbody : Yields body Members.AreSourced) (oneof : Option Text) :
    Yields (Parse.field body oneof) Members.AreSourced := by
  refine skip LeftToRight.label.consumes fun label => ?_
  intro tokens members rest hscanned h
  change (if startsGroup tokens then Parse.group body label oneof
    else Parse.plainField label oneof) tokens = _ at h
  by_cases hgroup : startsGroup tokens
  · rw [if_pos hgroup] at h
    exact group hbody label oneof tokens members rest hscanned h
  · -- The word for groups is no type here: with a name and an equals sign it starts a group.
    rw [if_neg hgroup] at h
    obtain ⟨hsuffix, -, -, field, rfl, hname, htype⟩ :=
      plainField label oneof tokens members rest hscanned h
    refine ⟨hsuffix, 0, braces_le_of_suffix hsuffix, .of_readable ⟨hname, ?_⟩⟩
    refine htype.imp_left fun hidentifier => ⟨hidentifier, fun hword => ?_⟩
    exact hgroup (startsGroup_of_plainField hscanned h hword)

/-- A lone semicolon brings nothing. -/
theorem orSemicolon {item : Parse Members} (hitem : Yields item Members.AreSourced) :
    Yields (Parse.orSemicolon item) Members.AreSourced := by
  refine skip LeftToRight.peekKind.consumes fun kind? => ite ?_ hitem
  exact skip LeftToRight.skip.consumes fun _ => pure (.of_nil rfl rfl 0)

/-- A oneof brings its fields. -/
theorem oneof (hbody : Yields body Members.AreSourced) :
    Yields (Parse.oneof body) Members.AreSourced := by
  refine skip (LeftToRight.keyword _).consumes fun _ => ?_
  refine skip LeftToRight.name.consumes fun oneofName => ?_
  have hentry : Yields (oneofEntry body oneofName) Members.AreSourced := by
    refine skip LeftToRight.peekKind.consumes fun kind? => ite ?_ (orSemicolon (field hbody _))
    exact skip LeftToRight.optionStatement.consumes fun _ => pure (.of_nil rfl rfl 0)
  exact bind (braced hentry) fun cost parts hparts => pure hparts

/-- An extend block brings the messages of its groups. -/
theorem extension (hbody : Yields body Members.AreSourced) :
    Yields (Parse.extension body) Members.AreSourced := by
  refine skip (LeftToRight.keyword _).consumes fun _ => ?_
  refine skip (LeftToRight.expect _).consumes fun extendee => ?_
  refine bind (braced (orSemicolon (field hbody none))) fun cost parts hparts => ?_
  exact pure (hparts.extending extendee)

/-! ### Messages and files -/

/-- A message is sourced by its own brace and by those of its body. -/
theorem message (hbody : Yields body Members.AreSourced) :
    Yields (Parse.message body) Members.AreSourced := by
  refine skip (LeftToRight.keyword _).consumes fun _ => ?_
  refine after name fun messageName hname => ?_
  refine bind leftBrace fun cost _ hcost => ?_
  refine bind hbody fun more members hmembers => ?_
  refine skip (LeftToRight.mark _).consumes fun _ => pure ?_
  exact (hmembers.declared hname).mono (by omega)

/-- A statement of a body brings what its form does. -/
theorem bodyStatement (hbody : Yields body Members.AreSourced) :
    Yields (Parse.bodyStatement body) Members.AreSourced := by
  refine skip LeftToRight.peekKind.consumes fun kind? => ?_
  split
  · exact message hbody
  · exact skip LeftToRight.enumType.consumes fun _ => pure (.of_nil rfl rfl 0)
  · exact skip LeftToRight.optionStatement.consumes fun _ => pure (.of_nil rfl rfl 0)
  · exact oneof hbody
  · exact extension hbody
  · exact skip LeftToRight.skipStatement.consumes fun _ => pure (.of_nil rfl rfl 0)
  · exact skip LeftToRight.skipStatement.consumes fun _ => pure (.of_nil rfl rfl 0)
  · exact orSemicolon (field hbody none)

/-- Bodies bring what their statements do, to any depth. -/
theorem messageBodyTo (depth : Nat) : Yields (Parse.messageBodyTo depth) Members.AreSourced := by
  induction depth with
  | zero => exact pure (.of_nil rfl rfl 0)
  | succ depth ih =>
      refine skip Consumes.input fun tokens => ?_
      exact bind (untilBrace (bodyStatement ih) tokens.length) fun cost parts hparts => pure hparts

/-- A body brings what its statements do. -/
theorem messageBody : Yields Parse.messageBody Members.AreSourced :=
  skip Consumes.input fun tokens => messageBodyTo (tokens.length + 1)

/-- Members of a file bring their messages as declarations. -/
theorem messages_declaring (members : Members) :
    (declaring members).messages = members.messages := by
  show Declaration.messagesIn (members.messages.map .message) = members.messages
  induction members.messages with
  | nil => rfl
  | cons first rest ih => exact congrArg (first :: ·) ih

/-- A dialect statement names a dialect. -/
theorem dialectStatement :
    Yields Parse.dialectStatement fun _ statement => ∃ name, statement = .dialect name := by
  refine skip (LeftToRight.keyword _).consumes fun _ => ?_
  refine skip (LeftToRight.mark _).consumes fun _ => ?_
  refine skip (LeftToRight.expect _).consumes fun dialect => ?_
  exact skip (LeftToRight.mark _).consumes fun _ => pure ⟨dialect, rfl⟩

/-- A package statement names a package, which is an identifier. -/
theorem packageStatement : Yields Parse.packageStatement fun _ statement =>
    ∃ name, IsIdentifier name ∧ statement = .package name := by
  refine skip (LeftToRight.keyword _).consumes fun _ => ?_
  refine after identifier fun name hname => ?_
  exact skip (LeftToRight.mark _).consumes fun _ => pure ⟨name, hname, rfl⟩

/-- An import statement names a path. -/
theorem importStatement :
    Yields Parse.importStatement fun _ statement => ∃ path, statement = .imported path := by
  refine skip (LeftToRight.keyword _).consumes fun _ => ?_
  refine skip LeftToRight.importModifier.consumes fun _ => ?_
  refine skip (LeftToRight.expect _).consumes fun path => ?_
  exact skip (LeftToRight.mark _).consumes fun _ => pure ⟨path, rfl⟩

/-- A statement declares sourced messages. -/
theorem statement : Yields Parse.statement fun cost statement? =>
    Message.AreSourced cost (statement?.toList.flatMap Statement.messages) := by
  have hnone {other : Statement} (h : other.messages = []) :
      Message.AreSourced 0 ((some other).toList.flatMap Statement.messages) := by
    simpa [h] using Message.AreSourced.nil 0
  have hdeclaring {cost : Nat} {members : Members} (h : members.AreSourced cost) :
      Message.AreSourced cost ((some (declaring members)).toList.flatMap Statement.messages) := by
    simpa [messages_declaring] using h.messages
  refine skip LeftToRight.peekKind.consumes fun kind? => ?_
  split
  · refine after dialectStatement fun _ h => ?_
    obtain ⟨name, rfl⟩ := h
    exact pure (hnone rfl)
  · refine after packageStatement fun _ h => ?_
    obtain ⟨name, -, rfl⟩ := h
    exact pure (hnone rfl)
  · refine after importStatement fun _ h => ?_
    obtain ⟨path, rfl⟩ := h
    exact pure (hnone rfl)
  · exact skip LeftToRight.optionStatement.consumes fun _ => pure (hnone rfl)
  · exact bind (message messageBody) fun cost members hmembers => pure (hdeclaring hmembers)
  · exact skip LeftToRight.enumType.consumes fun _ => pure (hnone rfl)
  · exact skip LeftToRight.service.consumes fun _ => pure (hnone rfl)
  · exact bind (extension messageBody) fun cost members hmembers => pure (hdeclaring hmembers)
  · exact skip LeftToRight.skip.consumes fun _ => pure (.nil 0)
  · exact fun _ _ _ _ h => ok_error_elim h rfl

/-- A file brings what its statements bring together. -/
theorem statementsOf {post : Nat → List Statement → Prop} (hnil : post 0 [])
    (happend : ∀ cost more first others, post cost first → post more others →
      post (cost + more) (first ++ others))
    (hstatement : Yields Parse.statement fun cost statement? => post cost statement?.toList) :
    Yields Parse.statements post := by
  have hwithin (fuel : Nat) : Yields (statementsWithin Parse.statement fuel) post := by
    induction fuel with
    | zero => exact pure hnil
    | succ fuel ih =>
        refine skip Consumes.input fun tokens => ite (pure hnil) ?_
        refine bind hstatement fun cost first hfirst => ?_
        refine bind ih fun more others hothers => pure ?_
        exact happend cost more _ others hfirst hothers
  exact skip Consumes.input fun tokens => hwithin tokens.length

/-- All messages that a file declares are sourced. -/
theorem statements : Yields Parse.statements fun cost statements =>
    Message.AreSourced cost (statements.flatMap Statement.messages) := by
  refine statementsOf (.nil 0) (fun cost more first others hfirst hothers => ?_) statement
  rw [List.flatMap_append]
  exact hfirst.append hothers

end Yields

end ProtoSchema.Parse

namespace ProtoSchema

/-- A text that is parsed is scanned first, and its file is made of the statements that its tokens
spell. -/
theorem File.exists_statements_of_parse {text path : Text} {file : File}
    (h : File.parse text path = .ok file) :
    ∃ scan statements rest, Lexer.scan text = .ok scan ∧ Parse.Scanned scan.tokens ∧
      Parse.statements scan.tokens = .ok (statements, rest) ∧
      file = .ofStatements path statements := by
  unfold File.parse at h
  split at h
  next => exact absurd h (by simp)
  next scan hscan =>
    split at h
    next => exact absurd h (by simp)
    next statements hstatements =>
      have hlexemes : Lexer.lexemes text = .ok (scan.tokens.map Token.lexeme) := by
        rw [Lexer.lexemes, hscan]
        rfl
      -- Only what a scan has found is parsed, so every name among the tokens is a word.
      have hscanned : Parse.Scanned scan.tokens := by
        intro token hmem hname
        exact Lexer.isWord_of_mem_lexemes hlexemes (List.mem_map_of_mem hmem) hname
      obtain ⟨⟨spelled, rest⟩, hrun, rfl⟩ := map_eq_ok_iff.mp hstatements
      exact ⟨scan, spelled, rest, hscan, hscanned, hrun, (Except.ok.inj h).symm⟩

end ProtoSchema
