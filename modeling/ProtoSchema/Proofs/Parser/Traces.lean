import ProtoSchema.Proofs.Parser.Concatenation

/-!
# What a parse takes

`Traces` relates what a parse gives to the tokens that it takes. There is one rule for each word of
the vocabulary and one for each way to chain parses, so a proof follows the definition of a grammar
rule line by line and names the tokens as it goes. The condition may speak of inputs up to a certain
length only, since a body is traced by induction on the length of the input. What stands between
braces has a token behind it, so `TracesBefore` leaves out the end of the input, where a statement
that is skipped may be cut off.
-/

namespace ProtoSchema

/-- The members with their fields in a oneof. -/
def Members.inOneof (members : Members) (oneof : Option Text) : Members :=
  { members with fields := members.fields.map fun field => { field with oneof } }

/-- A keyword is known by its kind. -/
theorem Lexeme.eq_keyword_of_kind {lexeme : Lexeme} {word : Keyword}
    (h : lexeme.kind = .keyword word) : lexeme = .keyword word := by
  cases lexeme with
  | keyword found => exact congrArg keyword (TokenKind.keyword.inj h)
  | _ => exact TokenKind.noConfusion h

namespace Parse

variable {α β γ : Type}

/-- A keyword that is taken is the first token. -/
theorem keyword_eq_ok {word : Keyword} {tokens rest : List Token} {value : Unit}
    (h : keyword word tokens = .ok (value, rest)) :
    ∃ token, tokens = token :: rest ∧ token.lexeme = .keyword word := by
  obtain ⟨⟨_, following⟩, hexpect, h⟩ := bind_eq_ok_iff.mp h
  obtain ⟨-, rfl⟩ := Prod.mk.inj (Except.ok.inj h)
  obtain ⟨token, rfl, hkind, -⟩ := expect_eq_ok hexpect
  exact ⟨token, rfl, Lexeme.eq_keyword_of_kind hkind⟩

/-- The parse takes these tokens, whatever follows them, and gives this value. -/
def Accepts (parse : Parse α) (tokens : List Token) (value : α) : Prop :=
  ∀ following, parse (tokens ++ following) = .ok (value, following)

/-- The parse takes these tokens in front of a token that is this mark, and gives this value. -/
def AcceptsUpTo (mark : Punctuation) (parse : Parse α) (tokens : List Token) (value : α) : Prop :=
  ∀ token following, token.lexeme = .punctuation mark →
    parse (tokens ++ token :: following) = .ok (value, token :: following)

/-- An integer is one token. -/
theorem integer_eq_ok {tokens rest : List Token} {value : Int}
    (h : integer tokens = .ok (value, rest)) :
    ∃ token, tokens = token :: rest ∧ Accepts integer [token] value := by
  obtain ⟨⟨spelling, following⟩, hexpect, hvalue⟩ := bind_eq_ok_iff.mp h
  obtain ⟨token, rfl, hkind, rfl⟩ := expect_eq_ok hexpect
  have haccepts (others : List Token) : expect .number (token :: others) =
      .ok (token.lexeme.value, others) := if_pos hkind
  dsimp only at hvalue
  cases hspelling : Integer.ofLiteral? token.lexeme.value with
  | some number =>
      rw [hspelling] at hvalue
      obtain ⟨rfl, rfl⟩ := Prod.mk.inj (Except.ok.inj hvalue)
      refine ⟨token, rfl, fun others => bind_eq_ok_iff.mpr ⟨_, haccepts others, ?_⟩⟩
      dsimp only
      rw [hspelling]
  | none =>
      rw [hspelling] at hvalue
      cases hvalue

/-- On inputs of at most this many tokens, the tokens that the parse takes from the front and what
it gives satisfy the condition. -/
def Traces (length : Nat) (parse : Parse α) (post : List Token → α → Prop) : Prop :=
  ∀ (tokens : List Token) (value : α) (rest : List Token), tokens.length ≤ length →
    parse tokens = .ok (value, rest) → ∃ taken, tokens = taken ++ rest ∧ post taken value

/-- As `Traces`, where another token follows those that the parse takes. -/
def TracesBefore (length : Nat) (parse : Parse α) (post : List Token → α → Prop) : Prop :=
  ∀ (tokens : List Token) (value : α) (rest : List Token), tokens.length ≤ length → rest ≠ [] →
    parse tokens = .ok (value, rest) → ∃ taken, tokens = taken ++ rest ∧ post taken value

namespace Traces

variable {length : Nat} {parse : Parse α} {next : α → Parse β} {post : List Token → β → Prop}

/-- What satisfies a condition satisfies a weaker one. -/
theorem mono {first : List Token → β → Prop} {parse : Parse β} (h : Traces length parse first)
    (hpost : ∀ taken value, first taken value → post taken value) : Traces length parse post := by
  intro tokens value rest hlength hparse
  obtain ⟨taken, htokens, hfirst⟩ := h tokens value rest hlength hparse
  exact ⟨taken, htokens, hpost taken value hfirst⟩

/-- A pure parse takes nothing. -/
theorem pure {value : β} (h : post [] value) : Traces length (Pure.pure value : Parse β) post := by
  intro tokens found rest _ hparse
  obtain ⟨rfl, rfl⟩ := Prod.mk.inj (Except.ok.inj hparse)
  exact ⟨[], rfl, h⟩

/-- A chain takes what its first parse takes and then what the next one does. -/
theorem bind {middle : List Token → α → Prop} (hparse : Traces length parse middle)
    (hnext : ∀ taken value, middle taken value →
      Traces length (next value) fun more => post (taken ++ more)) :
    Traces length (parse >>= next) post := by
  intro tokens result rest hlength h
  obtain ⟨⟨value, following⟩, hfirst, hlast⟩ := bind_eq_ok_iff.mp h
  obtain ⟨taken, rfl, hmiddle⟩ := hparse tokens value following hlength hfirst
  rw [List.length_append] at hlength
  obtain ⟨more, rfl, hpost⟩ := hnext taken value hmiddle following result rest (by omega) hlast
  exact ⟨taken ++ more, (List.append_assoc ..).symm, hpost⟩

/-- A chain whose first parse takes one token. What comes next sees a shorter input. -/
theorem token {fact : Token → α → Prop}
    (hparse : ∀ {tokens rest : List Token} {value : α}, parse tokens = .ok (value, rest) →
      ∃ token, tokens = token :: rest ∧ fact token value)
    (hnext : ∀ token value, fact token value →
      Traces (length - 1) (next value) fun more => post (token :: more)) :
    Traces length (parse >>= next) post := by
  intro tokens result rest hlength h
  obtain ⟨⟨value, following⟩, hfirst, hlast⟩ := bind_eq_ok_iff.mp h
  obtain ⟨token, rfl, hfact⟩ := hparse hfirst
  rw [List.length_cons] at hlength
  obtain ⟨more, rfl, hpost⟩ := hnext token value hfact following result rest (by omega) hlast
  exact ⟨token :: more, rfl, hpost⟩

/-- A value that is wrapped up. -/
theorem wrap {middle : List Token → α → Prop} {f : α → β} (hparse : Traces length parse middle)
    (hpost : ∀ taken value, middle taken value → post taken (f value)) :
    Traces length (parse >>= fun value => Pure.pure (f value)) post := by
  refine bind hparse fun taken value hmiddle => pure ?_
  rw [List.append_nil]
  exact hpost taken value hmiddle

/-- A parse that leaves the end of its input takes some tokens, whatever it gives. -/
theorem gives {parse : Parse β} {fact : β → Prop} (h : Consumes parse) (hgives : Gives parse fact) :
    Traces length parse fun _ value => fact value := by
  intro tokens value rest _ hparse
  obtain ⟨taken, rfl⟩ := h tokens value rest hparse
  exact ⟨taken, rfl, hgives _ value rest hparse⟩

/-- A parse that leaves the end of its input may take anything. -/
theorem any {parse : Parse β} (h : Consumes parse) : Traces length parse fun _ _ => True :=
  gives h fun _ _ _ _ => trivial

/-- What is known of all inputs is known where another token follows. -/
theorem before {parse : Parse β} (h : Traces length parse post) : TracesBefore length parse post :=
  fun tokens value rest hlength _ => h tokens value rest hlength

/-- A choice by the next token. The choice is by the first of the tokens that it takes. -/
theorem peekKind {next : Option TokenKind → Parse β}
    (hnext : ∀ kind?, Traces length (next kind?) fun taken value =>
      (∀ token, taken.head? = some token → kind? = some token.lexeme.kind) → post taken value) :
    Traces length (Parse.peekKind >>= next) post := by
  intro tokens value rest hlength h
  obtain ⟨taken, rfl, hpost⟩ := hnext _ tokens value rest hlength h
  refine ⟨taken, rfl, hpost fun token htoken => ?_⟩
  rw [List.head?_append, htoken]
  rfl

/-- A choice by the whole input. -/
theorem input {next : List Token → Parse β}
    (hnext : ∀ tokens, Traces length (next tokens) fun taken value =>
      taken <+: tokens → post taken value) :
    Traces length (get >>= next) post := by
  intro tokens value rest hlength h
  obtain ⟨taken, rfl, hpost⟩ := hnext tokens tokens value rest hlength h
  exact ⟨taken, rfl, hpost (List.prefix_append taken rest)⟩

/-- Either branch may be taken. -/
theorem ite {condition : Prop} [Decidable condition] {first second : Parse β}
    (hfirst : condition → Traces length first post)
    (hsecond : ¬ condition → Traces length second post) :
    Traces length (if condition then first else second) post := by
  by_cases h : condition
  · rw [if_pos h]
    exact hfirst h
  · rw [if_neg h]
    exact hsecond h

/-- A parse of what stands in front of a mark. It gives the same in front of any token that is this
mark. What comes next sees a shorter input. -/
theorem upTo {mark : Punctuation} {middle : List Token → α → Prop} (hleft : LeftToRight parse)
    (hparse : TracesBefore length parse middle)
    (hnext : ∀ taken value token, middle taken value → AcceptsUpTo mark parse taken value →
      token.lexeme = .punctuation mark →
      Traces (length - 1) (next value) fun more => post (taken ++ token :: more)) :
    Traces length (parse >>= fun value => Parse.mark mark >>= fun _ => next value) post := by
  intro tokens result rest hlength h
  obtain ⟨⟨value, middle⟩, hfirst, hrest⟩ := bind_eq_ok_iff.mp h
  obtain ⟨⟨_, following⟩, hmark, hlast⟩ := bind_eq_ok_iff.mp hrest
  obtain ⟨token, rfl, hlexeme⟩ := mark_eq_ok hmark
  obtain ⟨taken, rfl, hmiddle⟩ :=
    hparse tokens value (token :: following) hlength (List.cons_ne_nil _ _) hfirst
  have haccepts : AcceptsUpTo mark parse taken value := by
    intro other others hother
    obtain ⟨same, hsame, hok⟩ := hleft.ok hfirst
    obtain rfl := List.append_cancel_right hsame
    exact hok taken (other :: others) (.refl taken) (by simp [SameLexemes, hother, hlexeme])
  rw [List.length_append, List.length_cons] at hlength
  obtain ⟨more, rfl, hpost⟩ :=
    hnext taken value token hmiddle haccepts hlexeme following result rest (by omega) hlast
  exact ⟨taken ++ token :: more, by simp, hpost⟩

end Traces

namespace TracesBefore

variable {length : Nat} {parse : Parse α} {post : List Token → β → Prop}

/-- What is known of longer inputs is known of shorter ones. -/
theorem of_le {longer : Nat} {parse : Parse β} (h : TracesBefore longer parse post)
    (hle : length ≤ longer) : TracesBefore length parse post :=
  fun tokens value rest hlength => h tokens value rest (Nat.le_trans hlength hle)

/-- A value that is wrapped up. -/
theorem wrap {middle : List Token → α → Prop} {f : α → β}
    (hparse : TracesBefore length parse middle)
    (hpost : ∀ taken value, middle taken value → post taken (f value)) :
    TracesBefore length (parse >>= fun value => Pure.pure (f value)) post := by
  intro tokens result rest hlength hrest h
  obtain ⟨⟨value, following⟩, hfirst, h⟩ := bind_eq_ok_iff.mp h
  obtain ⟨rfl, rfl⟩ := Prod.mk.inj (Except.ok.inj h)
  obtain ⟨taken, htokens, hmiddle⟩ := hparse tokens value following hlength hrest hfirst
  exact ⟨taken, htokens, hpost taken value hmiddle⟩

/-- At most so many items up to a closing brace. What holds of no items and is kept by one more in
front holds of all of them. Every item takes a token. -/
theorem untilBrace {item : Parse α} {first : List Token → α → Prop}
    {all : List Token → List α → Prop} (hitem : TracesBefore length item first)
    (htakes : Takes item) (hnil : all [] []) (hcons : ∀ taken value more values,
      first taken value → all more values → all (taken ++ more) (value :: values)) (fuel : Nat) :
    TracesBefore length (Parse.untilBrace item fuel) all := by
  induction fuel with
  | zero => exact (Traces.pure hnil).before
  | succ fuel ih =>
      intro tokens result rest hlength hrest h
      cases tokens with
      | nil =>
          obtain ⟨rfl, rfl⟩ := Prod.mk.inj (Except.ok.inj h)
          exact ⟨[], rfl, hnil⟩
      | cons token tokens =>
          rw [(untilBrace_rounds item).succ] at h
          replace h : (if (some token.lexeme.kind).all (· = .punctuation .rightBrace) then
              Pure.pure []
            else item >>= fun value => Parse.untilBrace item fuel >>= fun values =>
              Pure.pure (value :: values) : Parse (List α)) (token :: tokens) =
              .ok (result, rest) := h
          split at h
          · obtain ⟨rfl, rfl⟩ := Prod.mk.inj (Except.ok.inj h)
            exact ⟨[], rfl, hnil⟩
          · obtain ⟨⟨value, middle⟩, hvalue, h⟩ := bind_eq_ok_iff.mp h
            obtain ⟨⟨values, last⟩, hvalues, h⟩ := bind_eq_ok_iff.mp h
            obtain ⟨rfl, rfl⟩ := Prod.mk.inj (Except.ok.inj h)
            have hshorter := htakes _ value middle hvalue
            have hle : middle.length ≤ length := by omega
            -- The tokens behind the last item are also behind this one.
            obtain ⟨more, rfl, hall⟩ := ih middle values last hle hrest hvalues
            have hmiddle : more ++ last ≠ [] := List.append_ne_nil_of_right_ne_nil more hrest
            obtain ⟨taken, htokens, hfirst⟩ := hitem _ value (more ++ last) hlength hmiddle hvalue
            refine ⟨taken ++ more, by rw [htokens, List.append_assoc], ?_⟩
            exact hcons taken value more values hfirst hall

/-- Items up to a closing brace. -/
theorem items {item : Parse α} {first : List Token → α → Prop} {all : List Token → List α → Prop}
    (hitem : TracesBefore length item first) (htakes : Takes item) (hnil : all [] [])
    (hcons : ∀ taken value more values, first taken value → all more values →
      all (taken ++ more) (value :: values)) : TracesBefore length (Parse.items item) all :=
  fun tokens => untilBrace hitem htakes hnil hcons tokens.length tokens

end TracesBefore

/-- Items between braces. -/
theorem Traces.braced {length : Nat} {item : Parse α} {all : List Token → List α → Prop}
    (hitem : LeftToRight item) (hasks : ¬ AsksConstant item) (htakes : Takes item)
    (hitems : TracesBefore (length - 1) (Parse.items item) all) :
    Traces length (Parse.braced item) fun taken values => ∃ opening inner closing,
      taken = opening :: (inner ++ [closing]) ∧ opening.lexeme = .punctuation .leftBrace ∧
        closing.lexeme = .punctuation .rightBrace ∧ all inner values := by
  rw [braced_eq]
  refine token mark_eq_ok fun opening _ hopening => ?_
  refine upTo (.items hitem hasks htakes) hitems fun inner values closing hinner _ hclosing => ?_
  exact pure ⟨opening, inner, closing, rfl, hopening, hclosing, hinner⟩

/-! ### Statements before another token -/

/-- Where the parse succeeds and another token follows, what it gives depends on the tokens that it
takes alone, and it takes one. -/
def ClosedBefore (parse : Parse α) : Prop :=
  ∀ (tokens : List Token) (value : α) (rest : List Token), rest ≠ [] →
    parse tokens = .ok (value, rest) →
    ∃ taken, taken ≠ [] ∧ tokens = taken ++ rest ∧ Accepts parse taken value

/-- A closed parse is closed before another token. -/
theorem Closed.before {parse : Parse α} (h : Closed parse) : ClosedBefore parse :=
  fun tokens value rest _ => h tokens value rest

/-- What a closed parse takes it accepts. -/
theorem Traces.accepting {length : Nat} {parse : Parse α} {post : List Token → α → Prop}
    (h : Traces length parse post) (hclosed : ClosedBefore parse) :
    TracesBefore length parse fun taken value =>
      taken ≠ [] ∧ Accepts parse taken value ∧ post taken value := by
  intro tokens value rest hlength hrest hparse
  obtain ⟨taken, htokens, hpost⟩ := h tokens value rest hlength hparse
  obtain ⟨same, hne, hsame, haccepts⟩ := hclosed tokens value rest hrest hparse
  obtain rfl := List.append_cancel_right (htokens.symm.trans hsame)
  exact ⟨taken, htokens, hne, haccepts, hpost⟩

namespace ClosedBefore

/-- A value that is wrapped up. -/
theorem wrap {parse : Parse α} (hparse : ClosedBefore parse) (f : α → β) :
    ClosedBefore (parse >>= fun value => Pure.pure (f value)) := by
  intro tokens result rest hrest h
  obtain ⟨⟨value, following⟩, hvalue, h⟩ := bind_eq_ok_iff.mp h
  obtain ⟨rfl, rfl⟩ := Prod.mk.inj (Except.ok.inj h)
  obtain ⟨taken, hne, htokens, haccepts⟩ := hparse tokens value following hrest hvalue
  exact ⟨taken, hne, htokens, fun following => bind_of_ok (haccepts following)⟩

/-- Either branch is closed. -/
theorem ite {condition : Prop} [Decidable condition] {first second : Parse α}
    (hfirst : ClosedBefore first) (hsecond : ClosedBefore second) :
    ClosedBefore (if condition then first else second) := by
  split
  · exact hfirst
  · exact hsecond

/-- A choice by the next token, which is the first of those that are taken. -/
theorem peekKind {next : Option TokenKind → Parse α} (hnext : ∀ kind?, ClosedBefore (next kind?)) :
    ClosedBefore (Parse.peekKind >>= next) := by
  intro tokens value rest hrest h
  obtain ⟨taken, hne, rfl, haccepts⟩ := hnext _ tokens value rest hrest h
  obtain ⟨head, tail, rfl⟩ := List.exists_cons_of_ne_nil hne
  exact ⟨head :: tail, hne, rfl, haccepts⟩

/-- A token is dropped. -/
theorem skip : ClosedBefore Parse.skip := by
  intro tokens value rest hrest h
  obtain ⟨-, rfl⟩ := Prod.mk.inj (Except.ok.inj h)
  cases tokens with
  | nil => exact absurd rfl hrest
  | cons token tokens => exact ⟨[token], List.cons_ne_nil _ _, rfl, fun following => rfl⟩

/-- A skipped statement that has a token behind it ends with a semicolon. -/
theorem skipStatement : ClosedBefore Parse.skipStatement := by
  intro tokens value rest hrest h
  induction tokens with
  | nil =>
      obtain ⟨-, rfl⟩ := Prod.mk.inj (Except.ok.inj h)
      exact absurd rfl hrest
  | cons token tokens ih =>
      by_cases hsemicolon : token.lexeme = .punctuation .semicolon
      · rw [LeftToRight.skipStatement_of_semicolon hsemicolon] at h
        obtain ⟨-, rfl⟩ := Prod.mk.inj (Except.ok.inj h)
        refine ⟨[token], List.cons_ne_nil _ _, rfl, fun following => ?_⟩
        exact LeftToRight.skipStatement_of_semicolon hsemicolon following
      · rw [LeftToRight.skipStatement_of_ne hsemicolon] at h
        obtain ⟨taken, -, rfl, haccepts⟩ := ih h
        refine ⟨token :: taken, List.cons_ne_nil _ _, rfl, fun following => ?_⟩
        exact (LeftToRight.skipStatement_of_ne hsemicolon _).trans (haccepts following)

end ClosedBefore

/-! ### Fields -/

/-- A closed parse leaves the end of its input. -/
theorem Closed.consumes {parse : Parse α} (hparse : Closed parse) : Consumes parse := by
  intro tokens value rest h
  obtain ⟨taken, -, rfl, -⟩ := hparse tokens value rest h
  exact List.suffix_append taken rest

namespace EndsWith

/-- A field or a group after its label. -/
theorem unlabelledField (label : Option Label) (oneof : Option Text) :
    EndsWith statementEnds (Parse.unlabelledField Parse.messageBody label oneof) := by
  refine bind .peek fun first => bind .fieldType fun type => bind .name fun fieldName => ?_
  refine bind (.mark _) fun _ => bind .integer fun number => bind .bracketOptions fun options => ?_
  refine ite (bind (.mark _) fun _ => ?_) (semicolon _)
  exact bind .messageBody fun members => rightBrace _

/-- A field or a group. -/
theorem field (oneof : Option Text) :
    EndsWith statementEnds (Parse.field Parse.messageBody oneof) := by
  rw [field_eq]
  exact bind .label fun label => unlabelledField label oneof

/-- A oneof block. -/
theorem oneof : EndsWith statementEnds (Parse.oneof Parse.messageBody) :=
  bind (.keyword _) fun _ => bind .name fun name =>
    wrap (braced (.oneofEntry .messageBody name) nofun
      (LeftToRight.takes_oneofEntry .messageBody name)) fun _ => _

end EndsWith

namespace ClosedBefore

/-- A field, or a lone semicolon. -/
theorem orSemicolon_field (oneof : Option Text) :
    ClosedBefore (Parse.orSemicolon (Parse.field Parse.messageBody oneof)) :=
  peekKind fun _ => ite (skip.wrap fun _ => ({} : Members)) (EndsWith.field oneof).closed.before

/-- An entry of a oneof. -/
theorem oneofEntry (name : Text) : ClosedBefore (Parse.oneofEntry Parse.messageBody name) :=
  peekKind fun _ => ite (EndsWith.optionStatement.closed.before.wrap fun _ => ({} : Members))
    (orSemicolon_field (some name))

/-- A statement of a message body. -/
theorem bodyStatement : ClosedBefore (Parse.bodyStatement Parse.messageBody) := by
  refine peekKind fun kind? => ?_
  split
  · exact EndsWith.message.closed.before
  · exact EndsWith.enumType.closed.before.wrap fun _ => _
  · exact EndsWith.optionStatement.closed.before.wrap fun _ => _
  · exact EndsWith.oneof.closed.before
  · exact EndsWith.extension.closed.before
  · exact skipStatement.wrap fun _ => ({} : Members)
  · exact skipStatement.wrap fun _ => ({} : Members)
  · exact orSemicolon_field none

end ClosedBefore

/-- A label is the first token, if that is one. -/
theorem label_eq_ok {tokens rest : List Token} {found : Option Label}
    (h : label tokens = .ok (found, rest)) :
    found = (tokens.head?.map (Lexeme.kind ∘ Token.lexeme)).bind labelOf? := by
  have hkind : peekKind tokens =
      .ok (tokens.head?.map (Lexeme.kind ∘ Token.lexeme), tokens) := rfl
  rw [label, bind_of_ok hkind] at h
  cases hlabel : (tokens.head?.map (Lexeme.kind ∘ Token.lexeme)).bind labelOf? with
  | some label =>
      rw [hlabel] at h
      obtain ⟨rfl, -⟩ := Prod.mk.inj (Except.ok.inj h)
      rfl
  | none =>
      rw [hlabel] at h
      obtain ⟨rfl, -⟩ := Prod.mk.inj (Except.ok.inj h)
      rfl

variable {body : Parse Members} {oneof : Option Text}

/-- The members have one field, which extends nothing and repeats if its label says so. -/
def GivesField (label : Option Label) (oneof : Option Text) (members : Members) : Prop :=
  ∃ found, members.fields = [found] ∧ found.extendee = none ∧ found.oneof = oneof ∧
    found.label = label ∧ found.isRepeated = repeats label

/-- A group gives one field. -/
theorem Gives.group (body : Parse Members) (label : Option Label) (oneof : Option Text) :
    Gives (Parse.group body label oneof) (GivesField label oneof) := by
  refine bind fun _ => bind fun type => bind fun _ => bind fun number => bind fun options => ?_
  exact bind fun _ => bind fun members => bind fun _ => pure ⟨_, rfl, rfl, rfl, rfl, rfl⟩

/-- A plain field is one field. -/
theorem Gives.plainField (label : Option Label) (oneof : Option Text) :
    Gives (Parse.plainField label oneof) (GivesField label oneof) := by
  refine bind fun type => bind fun fieldName => bind fun _ => bind fun number => ?_
  exact bind fun options => bind fun _ => pure ⟨_, rfl, rfl, rfl, rfl, rfl⟩

/-- A field statement gives one field, with the label that stands in front. -/
theorem field_eq_ok {tokens rest : List Token} {members : Members}
    (h : field body oneof tokens = .ok (members, rest)) :
    GivesField ((tokens.head?.map (Lexeme.kind ∘ Token.lexeme)).bind labelOf?) oneof members := by
  obtain ⟨⟨label, middle⟩, hlabel, h⟩ := bind_eq_ok_iff.mp h
  rw [← label_eq_ok hlabel]
  replace h : (if startsGroup middle then group body label oneof else plainField label oneof)
    middle = .ok (members, rest) := h
  split at h
  · exact Gives.group body label oneof _ _ _ h
  · exact Gives.plainField label oneof _ _ _ h

/-- A field of a oneof is read like any other and then put into the oneof. -/
theorem field_inOneof (body : Parse Members) (oneof : Option Text) :
    field body oneof = field body none >>= fun members => pure (members.inOneof oneof) := by
  rw [field, field, fieldWith, fieldWith, bind_assoc]
  refine congrArg (label >>= ·) (funext fun label => ?_)
  rw [bind_assoc]
  refine congrArg (get >>= ·) (funext fun tokens => ?_)
  split
  · simp only [group, bind_assoc, pure_bind]
    rfl
  · simp only [plainField, bind_assoc, pure_bind]
    rfl

end Parse

end ProtoSchema
