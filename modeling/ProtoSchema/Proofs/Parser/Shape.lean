import Mathlib
import ProtoSchema.Proofs.Parser.Depth
import ProtoSchema.Proofs.Parser.Traces
import ProtoSchema.Proofs.Parser.Yields
import ProtoSchema.Proofs.Schema.Concatenation

/-!
# Where fields come from

Every field of a file is told from the tokens that declare it. The tokens of a file are cut into
statements, and the body of a message into parts, each with the fields that it declares: a field
statement, a oneof block, or another statement, which declares none (`Parse.IsBody`). So the fields
of a oneof block stand together and in order in the message, and they are the ones that have its
name. The fields of an extend block go to the extensions of the file, wherever the block stands
(`BlockPart.IsExtend`). Every part is a whole statement: the rule of its block accepts exactly its
tokens, so the tokens cannot be cut in another way. Main statement: `File.fields_of_parse`.

`Members.AreIn` collects what is known of the messages and extensions that a rule of the grammar
brings, and `Parse.StandsIn` says that they stand in a statement, at any depth. A nested body is a
part of the tokens of its statement, so the induction is on the number of tokens
(`TracesBefore.messageBody`).
-/

namespace ProtoSchema

/-- The message is one of the messages or nested in one of them, at any depth. -/
inductive Message.IsIn (message : Message) : List Message → Prop
  | here {messages : List Message} (hmem : message ∈ messages) : IsIn message messages
  | nested {messages : List Message} {outer : Message} (hmem : outer ∈ messages)
      (h : IsIn message outer.messages) : IsIn message messages

/-- A message among several ones is among the first or the second of them. -/
theorem Message.isIn_append {message : Message} {first second : List Message}
    (h : message.IsIn (first ++ second)) : message.IsIn first ∨ message.IsIn second := by
  cases h with
  | here hmem => exact (List.mem_append.mp hmem).imp .here .here
  | nested hmem hinner =>
      exact (List.mem_append.mp hmem).imp (.nested · hinner) (.nested · hinner)

/-- The order of the messages does not matter. -/
theorem Message.IsIn.of_perm {message : Message} {first second : List Message}
    (h : message.IsIn first) (hperm : first.Perm second) : message.IsIn second := by
  cases h with
  | here hmem => exact .here (hperm.mem_iff.mp hmem)
  | nested hmem hinner => exact .nested (hperm.mem_iff.mp hmem) hinner

/-- A part of a block: its tokens and the fields that it declares. -/
structure BlockPart where
  tokens : List Token
  fields : List Field

open Parse (Accepts AcceptsUpTo messageBody)

namespace BlockPart

/-- The part declares one field, a group among them, that extends nothing and is in no oneof. It
repeats if the word for that stands in front, and then its label says so. -/
def IsField (part : BlockPart) : Prop :=
  ∃ members found, Accepts (Parse.field messageBody none) part.tokens members ∧
    members.fields = [found] ∧ part.fields = [found] ∧ found.extendee = none ∧ found.oneof = none ∧
    (found.isRepeated ↔ found.label = some .repeated) ∧
    (found.isRepeated ↔ part.tokens.head?.map Token.lexeme = some (.keyword .repeated))

/-- The part declares no field and starts with a token of one of these kinds. -/
def StartsWith (kinds : List TokenKind) (part : BlockPart) : Prop :=
  part.fields = [] ∧ ∃ token, part.tokens.head? = some token ∧ token.lexeme.kind ∈ kinds

/-- The part is a whole statement that the rule accepts. It starts with a token of one of these
kinds and declares no field. -/
def IsOther (rule : Parse Members) (kinds : List TokenKind) (part : BlockPart) : Prop :=
  part.StartsWith kinds ∧ ∃ members, Accepts rule part.tokens members ∧ members.fields = []

/-- The part is a block: a keyword, a name, and entries between braces, which are fields or other
entries that the rule accepts. It declares what its entries do, one after the other, with the same
change to every field. -/
def IsBlock (word : Keyword) (name : Text) (rule : Parse Members) (others : List TokenKind)
    (change : Field → Field) (part : BlockPart) : Prop :=
  ∃ (first second opening closing : Token) (entries : List BlockPart),
    part.tokens = first :: second :: opening :: (entries.flatMap tokens ++ [closing]) ∧
    first.lexeme = .keyword word ∧ second.lexeme.isName ∧ second.lexeme.value = name ∧
    opening.lexeme = .punctuation .leftBrace ∧ closing.lexeme = .punctuation .rightBrace ∧
    part.fields = (entries.flatMap fields).map change ∧
    ∀ entry ∈ entries, entry.IsField ∨ entry.IsOther rule others

/-- The part is a oneof block of this name. -/
def IsOneof (name : Text) : BlockPart → Prop :=
  IsBlock .oneof name (Parse.oneofEntry messageBody name)
    [.keyword .option, .punctuation .semicolon] fun field => { field with oneof := some name }

/-- The part is an extend block for this message. -/
def IsExtend (extendee : Text) : BlockPart → Prop :=
  IsBlock .extend extendee (Parse.orSemicolon (Parse.field messageBody none))
    [.punctuation .semicolon] fun field => { field with extendee := some extendee }

/-- The kinds of token that start a statement of a message body without fields. -/
def otherStatements : List TokenKind :=
  [.keyword .message, .keyword .enum, .keyword .option, .keyword .extend, .keyword .reserved,
    .keyword .extensions, .punctuation .semicolon]

/-- The part is a statement of a message body. -/
def IsStatement (part : BlockPart) : Prop :=
  part.IsField ∨ (∃ name, part.IsOneof name) ∨
    part.IsOther (Parse.bodyStatement messageBody) otherStatements

end BlockPart

namespace Parse

/-- The tokens are the parts of a message body, and the fields are those of the parts, in order. -/
structure IsBody (tokens : List Token) (fields : List Field) (parts : List BlockPart) : Prop where
  tokens_eq : tokens = parts.flatMap BlockPart.tokens
  fields_eq : fields = parts.flatMap BlockPart.fields
  statements : ∀ part ∈ parts, part.IsStatement

/-- The tokens are the label of a field, if it has one. -/
def IsLabel (tokens : List Token) : Prop :=
  tokens = [] ∨ ∃ token, tokens = [token] ∧ (labelOf? token.lexeme.kind).isSome

/-- The tokens name a message in front of its body: a message statement or a group. -/
inductive NamesMessage (name : Text) : List Token → Prop
  | message {first second : Token} (hfirst : first.lexeme = .keyword .message)
      (hname : second.lexeme.isName) (hvalue : second.lexeme.value = name) :
      NamesMessage name [first, second]
  | group {labels settings : List Token} {first second third fourth : Token} {number : Int}
      {options : List OptionSetting} (hlabels : IsLabel labels)
      (hfirst : first.lexeme = .identifier (Text.ofString "group"))
      (hname : second.lexeme.isName) (hvalue : second.lexeme.value = name)
      (hthird : third.lexeme = .punctuation .equals) (hfourth : Accepts integer [fourth] number)
      (hsettings : AcceptsUpTo .leftBrace bracketOptions settings options) :
      NamesMessage name (labels ++ first :: second :: third :: fourth :: settings)

/-- The tokens open a block whose entries this rule accepts: the body of a message, a oneof block or
an extend block. -/
inductive Opens : List Token → Parse Members → Prop
  | body {name : Text} {header : List Token} (hnames : NamesMessage name header) :
      Opens header (bodyStatement messageBody)
  | oneof {first second : Token} (hfirst : first.lexeme = .keyword .oneof)
      (hname : second.lexeme.isName) :
      Opens [first, second] (oneofEntry messageBody second.lexeme.value)
  | extend {first second : Token} (hfirst : first.lexeme = .keyword .extend)
      (hname : second.lexeme.isName) :
      Opens [first, second] (orSemicolon (field messageBody none))

/-- The piece is a statement that stands in these tokens: the whole of them, or in an entry of the
block that they are. -/
inductive StandsIn (piece : List Token) : List Token → Prop
  | here : StandsIn piece piece
  | entry {header : List Token} {rule : Parse Members} {opening closing : Token}
      {entries : List BlockPart} {entry : BlockPart} (hopens : Opens header rule)
      (hopening : opening.lexeme = .punctuation .leftBrace)
      (hclosing : closing.lexeme = .punctuation .rightBrace)
      (hentries : ∀ entry ∈ entries, ∃ members, Accepts rule entry.tokens members)
      (hmem : entry ∈ entries) (h : StandsIn piece entry.tokens) :
      StandsIn piece (header ++ opening :: (entries.flatMap BlockPart.tokens ++ [closing]))

/-- The piece is a statement that stands in one of the parts. -/
def StandsAmong (parts : List BlockPart) (piece : List Token) : Prop :=
  ∃ part ∈ parts, StandsIn piece part.tokens

end Parse

/-- The tokens declare the message: its name, and a body of these parts between braces, which gives
all that the message has. -/
def Message.IsDeclaredBy (message : Message) (tokens : List Token) (parts : List BlockPart) :
    Prop :=
  ∃ (header body : List Token) (opening closing : Token) (members : Members),
    tokens = header ++ opening :: (body ++ [closing]) ∧ Parse.NamesMessage message.name header ∧
    opening.lexeme = .punctuation .leftBrace ∧ closing.lexeme = .punctuation .rightBrace ∧
    AcceptsUpTo .rightBrace messageBody body members ∧ message = members.toMessage message.name ∧
    Parse.IsBody body message.fields parts

namespace Members

/-- The messages and extensions are declared by pieces that stand here. -/
structure AreIn (stands : List Token → Prop) (members : Members) : Prop where
  messages : ∀ message : Message, message.IsIn members.messages →
    ∃ declared parts, stands declared ∧ message.IsDeclaredBy declared parts
  extensions : ∀ field ∈ members.extensions, ∃ (block : BlockPart) (extendee : Text),
    stands block.tokens ∧ block.IsExtend extendee ∧ field ∈ block.fields

namespace AreIn

variable {stands other : List Token → Prop} {members first second : Members}

/-- Members without messages and extensions are anywhere. -/
theorem of_nil (hmessages : members.messages = []) (hextensions : members.extensions = []) :
    members.AreIn stands where
  messages message h := by
    rw [hmessages] at h
    cases h with
    | here hmem => cases hmem
    | nested hmem => cases hmem
  extensions field hmem := by
    rw [hextensions] at hmem
    cases hmem

/-- What stands here stands in a wider place. -/
theorem mono (h : members.AreIn stands) (hstands : ∀ piece, stands piece → other piece) :
    members.AreIn other where
  messages message hmessage := by
    obtain ⟨declared, parts, hdeclared, hparts⟩ := h.messages message hmessage
    exact ⟨declared, parts, hstands declared hdeclared, hparts⟩
  extensions field hmem := by
    obtain ⟨block, extendee, hblock, hextend⟩ := h.extensions field hmem
    exact ⟨block, extendee, hstands block.tokens hblock, hextend⟩

/-- The fields do not matter. -/
theorem congr (h : first.AreIn stands) (hmessages : second.messages = first.messages)
    (hextensions : second.extensions = first.extensions) : second.AreIn stands where
  messages := hmessages ▸ h.messages
  extensions := hextensions ▸ h.extensions

/-- The members of two statements. -/
theorem append (hfirst : first.AreIn stands) (hsecond : second.AreIn stands) :
    (first ++ second).AreIn stands := by
  refine ⟨fun message h => ?_, fun field hmem => ?_⟩
  · exact (Message.isIn_append h).elim (hfirst.messages message) (hsecond.messages message)
  · exact (List.mem_append.mp hmem).elim (hfirst.extensions field) (hsecond.extensions field)

/-- The members of one more item in front, where all of them stand in one of the items. -/
theorem cons {α : Type} {place : α → List Token → Prop} {item : α} {items : List α}
    (hfirst : first.AreIn (place item))
    (hothers : second.AreIn fun piece => ∃ found ∈ items, place found piece) :
    (first ++ second).AreIn fun piece => ∃ found ∈ item :: items, place found piece := by
  refine append (hfirst.mono fun piece hpiece => ?_) (hothers.mono fun piece hpiece => ?_)
  · exact ⟨item, List.mem_cons_self, hpiece⟩
  · obtain ⟨found, hmem, hfound⟩ := hpiece
    exact ⟨found, List.mem_cons_of_mem item hmem, hfound⟩

/-- A message is declared by its name and its body, and so are those in it. -/
theorem declared {tokens : List Token} {parts : List BlockPart} {name : Text}
    (h : members.AreIn fun piece => Parse.StandsIn piece tokens)
    (hdeclared : (members.toMessage name).IsDeclaredBy tokens parts) :
    (members.declared name).AreIn fun piece => Parse.StandsIn piece tokens where
  messages message hmessage := by
    cases hmessage with
    | here hmem =>
        obtain rfl := List.mem_singleton.mp hmem
        exact ⟨tokens, parts, .here, hdeclared⟩
    | nested hmem hinner =>
        obtain rfl := List.mem_singleton.mp hmem
        exact h.messages message hinner
  extensions := h.extensions

/-- The fields of an extend block are extensions. -/
theorem extending {block : BlockPart} {extendee : Text}
    (h : members.AreIn fun piece => Parse.StandsIn piece block.tokens)
    (hblock : block.IsExtend extendee)
    (hfields : block.fields = members.fields.map fun field =>
      { field with extendee := some extendee }) :
    (members.extending extendee).AreIn fun piece => Parse.StandsIn piece block.tokens where
  messages := h.messages
  extensions field hmem := by
    rcases List.mem_append.mp hmem with hinner | hown
    · exact h.extensions field hinner
    · exact ⟨block, extendee, .here, hblock, hfields ▸ hown⟩

end AreIn

end Members

/-! ### The grammar -/

namespace Parse

open Members (AreIn)

/-- The members are those of a part of this kind, with the same change to every field, and their
messages and extensions stand in its tokens. -/
def PartOf (kind : BlockPart → Prop) (change : Field → Field) (taken : List Token)
    (members : Members) : Prop :=
  members.AreIn (fun piece => StandsIn piece taken) ∧
    (taken ≠ [] → ∃ part : BlockPart, part.tokens = taken ∧
      members.fields = part.fields.map change ∧ kind part)

/-- A part of one kind is one of any kind that it is, too. -/
theorem PartOf.mono {kind other : BlockPart → Prop} {change : Field → Field} {taken : List Token}
    {members : Members} (h : PartOf kind change taken members)
    (hkind : ∀ part, kind part → other part) : PartOf other change taken members := by
  refine ⟨h.1, fun hne => ?_⟩
  obtain ⟨part, htokens, hfields, hpart⟩ := h.2 hne
  exact ⟨part, htokens, hfields, hkind part hpart⟩

/-- A statement without fields is a part that is known by its first token, which chose it. -/
theorem PartOf.other {kind? : Option TokenKind} {kind : TokenKind} {kinds : List TokenKind}
    {change : Field → Field} {taken : List Token} {members : Members}
    (hhead : ∀ token, taken.head? = some token → kind? = some token.lexeme.kind)
    (hkind : kind? = some kind) (hmem : kind ∈ kinds)
    (hin : members.AreIn fun piece => StandsIn piece taken) (hfields : members.fields = []) :
    PartOf (BlockPart.StartsWith kinds) change taken members := by
  refine ⟨hin, fun hne => ⟨⟨taken, []⟩, rfl, hfields, rfl, taken.head hne, ?_⟩⟩
  have hfirst := List.head?_eq_some_head hne
  obtain rfl := Option.some.inj (hkind.symm.trans (hhead _ hfirst))
  exact ⟨hfirst, hmem⟩

/-- The members are those of parts of this kind one after the other, each accepted by the rule. -/
def PartsOf (rule : Parse Members) (kind : BlockPart → Prop) (change : Field → Field)
    (taken : List Token) (members : Members) : Prop :=
  ∃ parts : List BlockPart, members.AreIn (StandsAmong parts) ∧
    taken = parts.flatMap BlockPart.tokens ∧
    members.fields = (parts.flatMap BlockPart.fields).map change ∧
    ∀ part ∈ parts, kind part ∧ ∃ members, Accepts rule part.tokens members

/-- The members are those of a message body. -/
def BodyOf (taken : List Token) (members : Members) : Prop :=
  ∃ parts, members.AreIn (StandsAmong parts) ∧ IsBody taken members.fields parts ∧
    ∀ part ∈ parts, ∃ members, Accepts (bodyStatement messageBody) part.tokens members

/-- What stands among the entries of a block stands in the block. -/
theorem StandsAmong.standsIn {header : List Token} {rule : Parse Members} {opening closing : Token}
    {entries : List BlockPart} (hopens : Opens header rule)
    (hopening : opening.lexeme = .punctuation .leftBrace)
    (hclosing : closing.lexeme = .punctuation .rightBrace)
    (hentries : ∀ entry ∈ entries, ∃ members, Accepts rule entry.tokens members) :
    ∀ piece, StandsAmong entries piece →
      StandsIn piece (header ++ opening :: (entries.flatMap BlockPart.tokens ++ [closing])) := by
  intro piece h
  obtain ⟨entry, hmem, hpiece⟩ := h
  exact .entry hopens hopening hclosing hentries hmem hpiece

/-- A body between braces, behind the name of a message, declares the message. -/
theorem BodyOf.declared {header body : List Token} {opening closing : Token} {members : Members}
    {name : Text} (h : BodyOf body members) (hnames : NamesMessage name header)
    (hopening : opening.lexeme = .punctuation .leftBrace)
    (haccepts : AcceptsUpTo .rightBrace messageBody body members)
    (hclosing : closing.lexeme = .punctuation .rightBrace) :
    (members.declared name).AreIn fun piece =>
      StandsIn piece (header ++ opening :: (body ++ [closing])) := by
  obtain ⟨parts, hin, hbody, hparts⟩ := h
  obtain rfl := hbody.tokens_eq
  have hdeclared : (members.toMessage name).IsDeclaredBy
      (header ++ opening :: (parts.flatMap BlockPart.tokens ++ [closing])) parts :=
    ⟨header, _, opening, closing, members, rfl, hnames, hopening, hclosing, haccepts, rfl, hbody⟩
  exact (hin.mono (StandsAmong.standsIn (.body hnames) hopening hclosing hparts)).declared hdeclared

namespace TracesBefore

variable {length : Nat} {kind other : BlockPart → Prop} {change : Field → Field}
  {item : Parse Members}

/-- Items that are parts give the members of all parts. Each of them is accepted as a whole. -/
theorem parts (hitem : Traces length item (PartOf kind change)) (hclosed : ClosedBefore item)
    (htakes : Takes item) (hkind : ∀ part members, kind part → Accepts item part.tokens members →
      members.fields = part.fields.map change → other part) :
    TracesBefore length (Parse.items item) fun taken values =>
      PartsOf item other change taken (Members.concat values) := by
  refine items (hitem.accepting hclosed) htakes ⟨[], .of_nil rfl rfl, rfl, rfl, nofun⟩ ?_
  intro taken value more values hvalue hvalues
  obtain ⟨hne, haccepts, hin, hpart⟩ := hvalue
  obtain ⟨part, rfl, hfields, hfirst⟩ := hpart hne
  obtain ⟨parts, hothers, rfl, hmore, hkinds⟩ := hvalues
  have hall : (value ++ Members.concat values).AreIn (StandsAmong (part :: parts)) :=
    .cons hin hothers
  have hfirst : other part ∧ ∃ members, Accepts item part.tokens members :=
    ⟨hkind part value hfirst haccepts hfields, value, haccepts⟩
  refine ⟨part :: parts, hall, rfl, ?_, List.forall_mem_cons.mpr ⟨hfirst, hkinds⟩⟩
  show value.fields ++ (Members.concat values).fields = _
  rw [List.flatMap_cons, List.map_append, hfields, hmore]

end TracesBefore

namespace Traces

variable {length : Nat} {change : Field → Field} {item : Parse Members}

/-! ### Fields -/

/-- A group starts with the word for it. -/
theorem lexeme_of_startsGroup {tokens : List Token} {token : Token} (h : startsGroup tokens)
    (htoken : tokens.head? = some token) : token.lexeme = .identifier (Text.ofString "group") := by
  match tokens, h, htoken with
  | first :: _ :: third :: _, h, htoken =>
      obtain rfl := Option.some.inj htoken
      exact of_decide_eq_true (Bool.and_eq_true_iff.mp h).1

/-- Only one word is the label for a repeated field. -/
theorem labelOf?_eq_repeated_iff {token : Token} {tokens : List Token} :
    ((token :: tokens).head?.map (Lexeme.kind ∘ Token.lexeme)).bind labelOf? = some .repeated ↔
      (token :: tokens).head?.map Token.lexeme = some (.keyword .repeated) := by
  obtain ⟨lexeme, position⟩ := token
  cases lexeme with
  | keyword word => cases word <;> simp [labelOf?, Lexeme.kind]
  | punctuation | identifier | number | string => simp [labelOf?, Lexeme.kind]

/-- A label takes its word, and none takes nothing. -/
theorem label : Traces length Parse.label fun taken _ => IsLabel taken := by
  intro tokens found rest _ h
  cases tokens with
  | nil =>
      obtain ⟨-, rfl⟩ := Prod.mk.inj (Except.ok.inj h)
      exact ⟨[], rfl, .inl rfl⟩
  | cons token tokens =>
      have hkind : Parse.peekKind (token :: tokens) =
          .ok (some token.lexeme.kind, token :: tokens) := rfl
      rw [Parse.label, bind_of_ok hkind, Option.bind_some] at h
      cases hlabel : labelOf? token.lexeme.kind with
      | some label =>
          rw [hlabel] at h
          obtain ⟨-, rfl⟩ := Prod.mk.inj (Except.ok.inj h)
          exact ⟨[token], rfl, .inr ⟨token, rfl, hlabel ▸ rfl⟩⟩
      | none =>
          rw [hlabel] at h
          obtain ⟨-, rfl⟩ := Prod.mk.inj (Except.ok.inj h)
          exact ⟨[], rfl, .inl rfl⟩

variable (hbody : TracesBefore (length - 1) messageBody BodyOf)

include hbody

/-- A group behind its label declares a message, if it starts with the word for it. -/
theorem group (label : Option Label) (oneof : Option Text) :
    Traces length (Parse.group messageBody label oneof) fun taken members =>
      (∀ token, taken.head? = some token → token.lexeme = .identifier (Text.ofString "group")) →
        ∀ labels, IsLabel labels → members.AreIn fun piece => StandsIn piece (labels ++ taken) := by
  refine token expect_eq_ok fun first _ hfirst => ?_
  refine token name_eq_ok fun second type hsecond => ?_
  refine token mark_eq_ok fun third _ hthird => ?_
  refine token integer_eq_ok fun fourth number hfourth => ?_
  have hoptions : TracesBefore (length - 1 - 1 - 1 - 1) bracketOptions fun _ _ => True :=
    (any LeftToRight.bracketOptions.consumes).before
  refine upTo .bracketOptions hoptions fun settings options opening _ hsettings hopening => ?_
  refine upTo .messageBody (hbody.of_le (by omega))
    fun body members closing hmembers haccepts hclosing => pure fun hgroup labels hlabels => ?_
  have hnames : NamesMessage type
      (labels ++ first :: second :: third :: fourth :: settings) :=
    .group hlabels (hgroup first rfl) hsecond.1 hsecond.2 hthird hfourth hsettings
  have hin := hmembers.declared hnames hopening haccepts hclosing
  have htaken : labels ++ first :: second :: third :: fourth :: settings ++
      opening :: (body ++ [closing]) = labels ++ first :: second :: third :: fourth ::
        (settings ++ opening :: (body ++ [closing])) := by
    simp
  rw [htaken] at hin
  exact hin.congr rfl rfl

omit hbody in
/-- A plain field declares no message. -/
theorem plainField (label : Option Label) (oneof : Option Text) :
    Traces length (Parse.plainField label oneof) fun _ members =>
      ∀ stands, members.AreIn stands := by
  refine bind (any LeftToRight.fieldType.consumes) fun _ type _ => ?_
  refine bind (any LeftToRight.name.consumes) fun _ fieldName _ => ?_
  refine bind (any (LeftToRight.mark _).consumes) fun _ _ _ => ?_
  refine bind (any LeftToRight.integer.consumes) fun _ number _ => ?_
  refine bind (any LeftToRight.bracketOptions.consumes) fun _ options _ => ?_
  exact bind (any (LeftToRight.mark _).consumes) fun _ _ _ => pure fun _ => .of_nil rfl rfl

/-- A field statement is a part, and it goes into the oneof. -/
theorem field (oneof : Option Text) :
    Traces length (Parse.field messageBody oneof)
      (PartOf BlockPart.IsField fun field => { field with oneof }) := by
  have hplain : Traces length (Parse.field messageBody none) fun taken members =>
      members.AreIn fun piece => StandsIn piece taken := by
    refine bind label fun word label hword => input fun tokens => ?_
    refine ite (fun hstarts => ?_) fun _ => ?_
    · refine (group hbody label none).mono fun taken members hin hprefix => ?_
      refine hin (fun token htoken => ?_) word hword
      obtain ⟨more, rfl⟩ := hprefix
      rw [lexeme_of_startsGroup hstarts (by rw [List.head?_append, htoken]; rfl)]
    · exact (plainField label none).mono fun taken members hin _ => hin _
  rw [field_inOneof]
  intro tokens result rest hlength h
  obtain ⟨⟨members, middle⟩, hfield, h⟩ := bind_eq_ok_iff.mp h
  obtain ⟨rfl, rfl⟩ := Prod.mk.inj (Except.ok.inj h)
  obtain ⟨taken, htokens, hin⟩ := hplain tokens members middle hlength hfield
  obtain ⟨same, -, hsame, haccepts⟩ := (EndsWith.field none).closed _ _ _ hfield
  obtain rfl := List.append_cancel_right (htokens.symm.trans hsame)
  obtain ⟨found, hfields, hextendee, honeof, hlabel, hrepeated⟩ := field_eq_ok hfield
  have hflag : found.isRepeated ↔ found.label = some .repeated := by
    rw [hrepeated, hlabel, repeats, decide_eq_true_iff]
  refine ⟨taken, htokens, hin.congr rfl rfl, fun hne => ⟨⟨taken, [found]⟩, rfl, ?_, ?_⟩⟩
  · rw [Members.inOneof, hfields]
  · refine ⟨members, found, haccepts, hfields, rfl, hextendee, honeof, hflag, hflag.trans ?_⟩
    obtain ⟨head, tail, rfl⟩ := List.exists_cons_of_ne_nil hne
    rw [hlabel, htokens]
    exact labelOf?_eq_repeated_iff

/-- A field statement outside of a oneof is a part as it is. -/
theorem plainPart :
    Traces length (Parse.field messageBody none) (PartOf BlockPart.IsField id) := by
  refine (field hbody none).mono fun taken members h => ⟨h.1, fun hne => ?_⟩
  obtain ⟨part, htokens, hfields, hpart⟩ := h.2 hne
  refine ⟨part, htokens, ?_, hpart⟩
  obtain ⟨-, found, -, -, hfound, -, honeof, -⟩ := hpart
  rw [hfields, hfound, List.map_singleton, List.map_id, ← honeof]

omit hbody in
/-- A lone semicolon is a part without fields. -/
theorem orSemicolon {others : List TokenKind} (hmem : .punctuation .semicolon ∈ others)
    (hitem : Traces length item (PartOf BlockPart.IsField change)) :
    Traces length (Parse.orSemicolon item)
      (PartOf (fun part => part.IsField ∨ part.StartsWith others) change) := by
  refine peekKind fun kind? => ite (fun hsemicolon => ?_) fun _ => ?_
  · refine wrap (any LeftToRight.skip.consumes) fun taken _ _ hhead => ?_
    exact (PartOf.other hhead hsemicolon hmem (.of_nil rfl rfl) rfl).mono fun _ => .inr
  · exact hitem.mono fun taken members h _ => h.mono fun _ => .inl

/-- An entry of a oneof is a field in it, or declares none. -/
theorem oneofEntry (name : Text) :
    Traces length (Parse.oneofEntry messageBody name)
      (PartOf (fun part => part.IsField ∨
        part.StartsWith [.keyword .option, .punctuation .semicolon])
        fun field => { field with oneof := some name }) := by
  refine peekKind fun kind? => ite (fun hoption => ?_) fun _ => ?_
  · refine wrap (any LeftToRight.optionStatement.consumes) fun taken _ _ hhead => ?_
    exact (PartOf.other hhead hoption List.mem_cons_self (.of_nil rfl rfl) rfl).mono fun _ => .inr
  · have hmem : TokenKind.punctuation .semicolon ∈
        [TokenKind.keyword .option, .punctuation .semicolon] := by simp
    exact (orSemicolon hmem (field hbody (some name))).mono fun taken members h _ => h

omit hbody in
/-- An entry that is accepted as a whole is a field or another entry. -/
theorem isField_or_isOther {rule : Parse Members} {others : List TokenKind} {part : BlockPart}
    {members : Members} (h : part.IsField ∨ part.StartsWith others)
    (haccepts : Accepts rule part.tokens members)
    (hfields : members.fields = part.fields.map change) :
    part.IsField ∨ part.IsOther rule others := by
  refine h.imp_right fun hstarts => ⟨hstarts, members, haccepts, ?_⟩
  rw [hfields, hstarts.1, List.map_nil]

/-- A oneof block has the fields of its entries. -/
theorem oneof :
    Traces length (Parse.oneof messageBody) fun taken members =>
      members.AreIn (fun piece => StandsIn piece taken) ∧
        ∃ name, BlockPart.IsOneof name ⟨taken, members.fields⟩ := by
  refine token keyword_eq_ok fun first _ hfirst => token name_eq_ok fun second name hsecond => ?_
  obtain ⟨hname, rfl⟩ := hsecond
  have hinner : TracesBefore (length - 1 - 1 - 1 - 1) Parse.messageBody BodyOf :=
    hbody.of_le (by omega)
  have htakes := LeftToRight.takes_oneofEntry .messageBody second.lexeme.value
  have hentries := TracesBefore.parts (oneofEntry hinner second.lexeme.value)
    (.oneofEntry second.lexeme.value) htakes fun _ _ => isField_or_isOther
  refine wrap (braced (.oneofEntry .messageBody _) nofun htakes hentries) fun taken values h => ?_
  obtain ⟨opening, inner, closing, rfl, hopening, hclosing, entries, hin, rfl, hfields, hkinds⟩ := h
  have hstands := StandsAmong.standsIn (.oneof hfirst hname) hopening hclosing fun entry hentry =>
    (hkinds entry hentry).2
  refine ⟨hin.mono hstands, second.lexeme.value, ?_⟩
  exact ⟨first, second, opening, closing, entries, rfl, hfirst, hname, rfl, hopening, hclosing,
    hfields, fun entry hentry => (hkinds entry hentry).1⟩

/-- An extend block brings the fields of its entries as extensions. -/
theorem extension :
    Traces length (Parse.extension messageBody) fun taken members =>
      members.AreIn (fun piece => StandsIn piece taken) ∧ members.fields = [] := by
  refine token keyword_eq_ok fun first _ hfirst => ?_
  refine token expect_eq_ok fun second extendee hsecond => ?_
  have hinner : TracesBefore (length - 1 - 1 - 1 - 1) Parse.messageBody BodyOf :=
    hbody.of_le (by omega)
  have htakes := LeftToRight.takes_orSemicolon_field .messageBody none
  have hentries := TracesBefore.parts
    (orSemicolon (List.mem_singleton_self _) (plainPart hinner)) (.orSemicolon_field none) htakes
    fun _ _ => isField_or_isOther
  refine wrap (braced (.orSemicolon (.field .messageBody none) nofun) nofun htakes hentries)
    fun taken values h => ⟨?_, rfl⟩
  obtain ⟨opening, inner, closing, rfl, hopening, hclosing, entries, hin, rfl, hfields, hkinds⟩ := h
  have hname : second.lexeme.isName := by
    rw [Lexeme.eq_identifier_of_kind hsecond.1]
    rfl
  have hstands := StandsAmong.standsIn (.extend hfirst hname) hopening hclosing fun entry hentry =>
    (hkinds entry hentry).2
  have hblock : BlockPart.IsExtend extendee ⟨_, _⟩ :=
    ⟨first, second, opening, closing, entries, rfl, hfirst, hname, hsecond.2, hopening, hclosing,
      rfl, fun entry hentry => (hkinds entry hentry).1⟩
  refine AreIn.extending (hin.mono hstands) hblock ?_
  rw [hfields, List.map_id]

/-- A message brings itself and the messages in it. -/
theorem message :
    Traces length (Parse.message messageBody) fun taken members =>
      members.AreIn (fun piece => StandsIn piece taken) ∧ members.fields = [] := by
  refine token keyword_eq_ok fun first _ hfirst => token name_eq_ok fun second name hsecond => ?_
  refine token mark_eq_ok fun opening _ hopening => ?_
  refine upTo .messageBody (hbody.of_le (by omega))
    fun body members closing hmembers haccepts hclosing => pure ⟨?_, rfl⟩
  have hnames : NamesMessage name [first, second] := .message hfirst hsecond.1 hsecond.2
  exact hmembers.declared hnames hopening haccepts hclosing

/-- A statement of a message body is a part of it. -/
theorem bodyStatement :
    Traces length (Parse.bodyStatement messageBody)
      (PartOf (fun part => part.IsField ∨ (∃ name, part.IsOneof name) ∨
        part.StartsWith BlockPart.otherStatements) id) := by
  -- A statement that declares no field is known by its first token.
  have hother {kind? : Option TokenKind} {kind : TokenKind} {taken : List Token} {members : Members}
      (hhead : ∀ token, taken.head? = some token → kind? = some token.lexeme.kind)
      (hkind : kind? = some kind) (hmem : kind ∈ BlockPart.otherStatements)
      (hin : members.AreIn fun piece => StandsIn piece taken) (hfields : members.fields = []) :
      PartOf (fun part => part.IsField ∨ (∃ name, part.IsOneof name) ∨
        part.StartsWith BlockPart.otherStatements) id taken members :=
    (PartOf.other hhead hkind hmem hin hfields).mono fun _ h => .inr (.inr h)
  refine peekKind fun kind? => ?_
  split
  · exact (message hbody).mono fun taken members h hhead => hother hhead rfl (by decide) h.1 h.2
  · refine wrap (any LeftToRight.enumType.consumes) fun taken enum _ hhead => ?_
    exact hother hhead rfl (by decide) (.of_nil rfl rfl) rfl
  · refine wrap (any LeftToRight.optionStatement.consumes) fun taken setting _ hhead => ?_
    exact hother hhead rfl (by decide) (.of_nil rfl rfl) rfl
  · refine (oneof hbody).mono fun taken members h _ => ⟨h.1, fun _ => ?_⟩
    exact ⟨⟨taken, members.fields⟩, rfl, (List.map_id _).symm, .inr (.inl h.2)⟩
  · exact (extension hbody).mono fun taken members h hhead => hother hhead rfl (by decide) h.1 h.2
  · refine wrap (any LeftToRight.skipStatement.consumes) fun taken _ _ hhead => ?_
    exact hother hhead rfl (by decide) (.of_nil rfl rfl) rfl
  · refine wrap (any LeftToRight.skipStatement.consumes) fun taken _ _ hhead => ?_
    exact hother hhead rfl (by decide) (.of_nil rfl rfl) rfl
  · have hmem : TokenKind.punctuation .semicolon ∈ BlockPart.otherStatements := by decide
    refine (orSemicolon hmem (plainPart hbody)).mono fun taken members h _ => ?_
    exact h.mono fun part hpart => hpart.imp_right .inr

end Traces

/-- A message body consists of parts. -/
theorem TracesBefore.messageBody (length : Nat) : TracesBefore length Parse.messageBody BodyOf := by
  induction length with
  | zero =>
      intro tokens members rest hlength _ h
      obtain rfl := List.length_eq_zero_iff.mp (Nat.le_zero.mp hlength)
      obtain ⟨rfl, rfl⟩ := Prod.mk.inj (Except.ok.inj h)
      exact ⟨[], rfl, [], .of_nil rfl rfl, ⟨rfl, rfl, nofun⟩, nofun⟩
  | succ length ih =>
      have hstatement : Traces (length + 1) (Parse.bodyStatement Parse.messageBody) _ :=
        Traces.bodyStatement ih
      have hparts : TracesBefore (length + 1)
          (Parse.items (Parse.bodyStatement Parse.messageBody)) fun taken values =>
            PartsOf (Parse.bodyStatement Parse.messageBody) BlockPart.IsStatement id taken
              (Members.concat values) := by
        refine parts hstatement .bodyStatement (LeftToRight.takes_bodyStatement .messageBody) ?_
        intro part members h haccepts hfields
        refine h.imp_right fun hothers => hothers.imp_right fun hstarts => ?_
        exact ⟨hstarts, members, haccepts, by rw [hfields, hstarts.1, List.map_nil]⟩
      rw [Rules.messageBody_eq]
      refine wrap hparts fun taken values hvalues => ?_
      obtain ⟨found, hin, htaken, hfields, hkinds⟩ := hvalues
      rw [List.map_id] at hfields
      exact ⟨found, hin, ⟨htaken, hfields, fun part hpart => (hkinds part hpart).1⟩,
        fun part hpart => (hkinds part hpart).2⟩

/-- The messages and extensions of statements. -/
def membersOf (statements : List Statement) : Members where
  messages := statements.flatMap Statement.messages
  extensions := statements.flatMap Statement.extensions

/-- A statement of a file declares its messages and extensions by the tokens that it takes. -/
theorem Traces.statement (length : Nat) :
    Traces length Parse.statement fun taken found =>
      (membersOf found.toList).AreIn fun piece => StandsIn piece taken := by
  have hbody : TracesBefore (length - 1) Parse.messageBody BodyOf := .messageBody _
  have hnone {taken : List Token} {statement : Statement}
      (h : statement.messages = [] ∧ statement.extensions = []) :
      (membersOf [statement]).AreIn fun piece => StandsIn piece taken :=
    .of_nil (by simp [membersOf, h.1]) (by simp [membersOf, h.2])
  have hdeclaring {taken : List Token} {members : Members}
      (h : members.AreIn fun piece => StandsIn piece taken) :
      (membersOf [declaring members]).AreIn fun piece => StandsIn piece taken :=
    h.congr (by simp [membersOf, Yields.messages_declaring])
      (by simp [membersOf, declaring, Statement.extensions])
  have hdialect : Gives dialectStatement fun found => found.messages = [] ∧ found.extensions = [] :=
    .bind fun _ => .bind fun _ => .bind fun _ => .bind fun _ => .pure ⟨rfl, rfl⟩
  have hpackage : Gives packageStatement fun found => found.messages = [] ∧ found.extensions = [] :=
    .bind fun _ => .bind fun _ => .bind fun _ => .pure ⟨rfl, rfl⟩
  have himport : Gives importStatement fun found => found.messages = [] ∧ found.extensions = [] :=
    .bind fun _ => .bind fun _ => .bind fun _ => .bind fun _ => .pure ⟨rfl, rfl⟩
  refine peekKind fun kind? => ?_
  split
  · exact wrap (gives EndsWith.dialectStatement.closed.consumes hdialect) fun _ _ h _ => hnone h
  · exact wrap (gives EndsWith.packageStatement.closed.consumes hpackage) fun _ _ h _ => hnone h
  · exact wrap (gives EndsWith.importStatement.closed.consumes himport) fun _ _ h _ => hnone h
  · exact wrap (any LeftToRight.optionStatement.consumes) fun _ _ _ _ => hnone ⟨rfl, rfl⟩
  · exact wrap (message hbody) fun _ _ h _ => hdeclaring h.1
  · exact wrap (any LeftToRight.enumType.consumes) fun _ _ _ _ => hnone ⟨rfl, rfl⟩
  · exact wrap (any LeftToRight.service.consumes) fun _ _ _ _ => hnone ⟨rfl, rfl⟩
  · exact wrap (extension hbody) fun _ _ h _ => hdeclaring h.1
  · exact wrap (any LeftToRight.skip.consumes) fun _ _ _ _ => .of_nil rfl rfl
  · exact fun tokens found rest _ h => ok_error_elim h rfl

/-- The tokens of a file are those of its statements, each with what the grammar gives for it. -/
structure AreStatements (tokens : List Token) (pieces : List (List Token × Option Statement)) :
    Prop where
  tokens_eq : tokens = pieces.flatMap Prod.fst
  accepted : ∀ piece ∈ pieces, Accepts statement piece.1 piece.2

/-- The statements of a file declare their messages and extensions. -/
theorem areIn_of_statements {tokens rest : List Token} {found : List Statement}
    (h : statements tokens = .ok (found, rest)) :
    ∃ pieces, AreStatements tokens pieces ∧ found = pieces.flatMap (fun piece => piece.2.toList) ∧
      (membersOf found).AreIn fun declared =>
        ∃ piece ∈ pieces, StandsIn declared piece.1 := by
  refine (statements_induction (motive := fun tokens found => ∃ pieces,
    AreStatements tokens pieces ∧ found = pieces.flatMap (fun piece => piece.2.toList) ∧
      (membersOf found).AreIn fun declared => ∃ piece ∈ pieces, StandsIn declared piece.1)
    ⟨[], ⟨rfl, nofun⟩, rfl, .of_nil rfl rfl⟩ (fun tokens first middle others hfirst h => ?_) h).2
  obtain ⟨pieces, hpieces, rfl, hothers⟩ := h
  obtain ⟨taken, rfl, hin⟩ := Traces.statement _ tokens first middle (Nat.le_refl _) hfirst
  obtain ⟨same, -, hsame, haccepts⟩ := EndsWith.statement.closed _ _ _ hfirst
  obtain rfl := List.append_cancel_right hsame
  have hall : (membersOf first.toList ++ membersOf _).AreIn fun declared =>
      ∃ piece ∈ (taken, first) :: pieces, StandsIn declared piece.1 :=
    .cons hin hothers
  refine ⟨(taken, first) :: pieces, ⟨?_, ?_⟩, rfl, ?_⟩
  · rw [hpieces.tokens_eq, List.flatMap_cons]
  · exact List.forall_mem_cons.mpr ⟨haccepts, hpieces.accepted⟩
  · exact hall.congr (List.flatMap_append ..) (List.flatMap_append ..)

end Parse

/-! ### Files -/

namespace BlockPart

variable {part : BlockPart} {field : Field}

/-- The field of a field statement extends nothing and is in no oneof, and it repeats exactly if its
label says so. -/
theorem IsField.plain (h : part.IsField) (hmem : field ∈ part.fields) :
    field.extendee = none ∧ field.oneof = none ∧
      (field.isRepeated ↔ field.label = some .repeated) := by
  obtain ⟨members, found, -, -, hfields, hextendee, honeof, hflag, -⟩ := h
  rw [hfields] at hmem
  obtain rfl := List.mem_singleton.mp hmem
  exact ⟨hextendee, honeof, hflag⟩

/-- A field of a block is a field of one of its entries, changed as the block says. -/
theorem IsBlock.exists_field {word : Keyword} {name : Text} {rule : Parse Members}
    {others : List TokenKind} {change : Field → Field}
    (h : part.IsBlock word name rule others change) (hmem : field ∈ part.fields) :
    ∃ found : Field, field = change found ∧ found.extendee = none ∧ found.oneof = none ∧
      (found.isRepeated ↔ found.label = some .repeated) := by
  obtain ⟨first, second, opening, closing, entries, -, -, -, -, -, -, hfields, hentries⟩ := h
  rw [hfields] at hmem
  obtain ⟨found, hfound, rfl⟩ := List.mem_map.mp hmem
  obtain ⟨entry, hentry, hfound⟩ := List.mem_flatMap.mp hfound
  rcases hentries entry hentry with hfield | hother
  · exact ⟨found, rfl, hfield.plain hfound⟩
  · rw [hother.1.1] at hfound
    cases hfound

/-- A field of an extend block extends its message and is in no oneof. -/
theorem IsExtend.extends {extendee : Text} (h : part.IsExtend extendee)
    (hmem : field ∈ part.fields) :
    field.extendee = some extendee ∧ field.oneof = none ∧
      (field.isRepeated ↔ field.label = some .repeated) := by
  obtain ⟨found, rfl, -, honeof, hflag⟩ := h.exists_field hmem
  exact ⟨rfl, honeof, hflag⟩

/-- A field of a statement of a body extends nothing. -/
theorem IsStatement.plain (h : part.IsStatement) (hmem : field ∈ part.fields) :
    field.extendee = none ∧ (field.isRepeated ↔ field.label = some .repeated) := by
  rcases h with hfield | ⟨name, honeof⟩ | hother
  · obtain ⟨hextendee, -, hflag⟩ := hfield.plain hmem
    exact ⟨hextendee, hflag⟩
  · obtain ⟨found, rfl, hextendee, -, hflag⟩ := honeof.exists_field hmem
    exact ⟨hextendee, hflag⟩
  · rw [hother.1.1] at hmem
    cases hmem

/-- A field of a statement of a body is in a oneof exactly if the statement is the block of this
name. -/
theorem IsStatement.oneof_iff (h : part.IsStatement) (hmem : field ∈ part.fields) (name : Text) :
    field.oneof = some name ↔ part.IsOneof name := by
  constructor
  · intro hname
    rcases h with hfield | ⟨other, honeof⟩ | hother
    · rw [(hfield.plain hmem).2.1] at hname
      cases hname
    · obtain ⟨found, rfl, -⟩ := honeof.exists_field hmem
      obtain rfl := Option.some.inj hname
      exact honeof
    · rw [hother.1.1] at hmem
      cases hmem
  · intro honeof
    obtain ⟨found, rfl, -⟩ := honeof.exists_field hmem
    rfl

end BlockPart

/-- What is known of the fields of a file from its statements. -/
structure File.FieldsAreDeclaredBy (pieces : List (List Token × Option Statement)) (file : File) :
    Prop where
  /-- The messages that no other message holds are those of the statements. -/
  messages : (Declaration.messagesIn file.root.members).Perm
    (pieces.flatMap fun piece => piece.2.toList.flatMap Statement.messages)
  /-- The extensions are those of the statements, in order. -/
  extensions : file.extensions =
    pieces.flatMap fun piece => piece.2.toList.flatMap Statement.extensions
  /-- Every message at any depth is declared by a piece that stands in one of the statements, whose
  parts give its fields in order. A field is in a oneof exactly if its part is the oneof block of
  this name. -/
  message : ∀ message : Message, message.IsIn (Declaration.messagesIn file.root.members) →
    ∃ piece ∈ pieces, ∃ declared parts, Parse.StandsIn declared piece.1 ∧
      message.IsDeclaredBy declared parts ∧
      (∀ field ∈ message.fields, field.extendee = none ∧
        (field.isRepeated ↔ field.label = some .repeated)) ∧
      ∀ part ∈ parts, ∀ field ∈ part.fields, ∀ name,
        (field.oneof = some name ↔ part.IsOneof name)
  /-- Every extension comes from an extend block that stands in one of the statements, which names
  the message that it extends. -/
  extension : ∀ field ∈ file.extensions, ∃ piece ∈ pieces, ∃ (block : BlockPart) (extendee : Text),
    Parse.StandsIn block.tokens piece.1 ∧ block.IsExtend extendee ∧ field ∈ block.fields ∧
    field.extendee = some extendee ∧ field.oneof = none ∧
    (field.isRepeated ↔ field.label = some .repeated)

/-- The extensions of a file are those of its statements. -/
theorem File.extensions_ofStatements (path : Text) (statements : List Statement) :
    (ofStatements path statements).extensions = statements.flatMap Statement.extensions := by
  have hfold (file : File) : (statements.foldl apply file).extensions =
      file.extensions ++ statements.flatMap Statement.extensions := by
    induction statements generalizing file with
    | nil => exact (List.append_nil _).symm
    | cons statement rest ih =>
        rw [List.foldl_cons, ih, apply_extensions, List.append_assoc, List.flatMap_cons]
  exact hfold { path := path }

/-- Every field of an accepted text is declared by its tokens: the fields of messages by the
statements of their bodies, and the extensions by extend blocks. -/
theorem File.fields_of_parse {text path : Text} {file : File}
    (h : File.parse text path = .ok file) :
    ∃ scan pieces, Lexer.scan text = .ok scan ∧ Parse.AreStatements scan.tokens pieces ∧
      file.FieldsAreDeclaredBy pieces := by
  obtain ⟨scan, statements, rest, hscan, -, hstatements, rfl⟩ := File.exists_statements_of_parse h
  obtain ⟨pieces, hpieces, rfl, hin⟩ := Parse.areIn_of_statements hstatements
  have hmessages := File.messagesIn_ofStatements path (pieces.flatMap fun piece => piece.2.toList)
  have hextensions :=
    File.extensions_ofStatements path (pieces.flatMap fun piece => piece.2.toList)
  refine ⟨scan, pieces, hscan, hpieces, ⟨?_, ?_, fun message hmessage => ?_,
    fun field hfield => ?_⟩⟩
  · rwa [List.flatMap_assoc] at hmessages
  · rwa [List.flatMap_assoc] at hextensions
  · obtain ⟨declared, parts, ⟨piece, hpiece, hdeclared⟩, hparts⟩ :=
      hin.messages message (hmessage.of_perm hmessages)
    refine ⟨piece, hpiece, declared, parts, hdeclared, hparts, ?_⟩
    obtain ⟨header, body, opening, closing, members, -, -, -, -, -, -, hbody⟩ := hparts
    refine ⟨fun field hfield => ?_, fun part hpart field hfield => ?_⟩
    · rw [hbody.fields_eq] at hfield
      obtain ⟨part, hpart, hmem⟩ := List.mem_flatMap.mp hfield
      exact (hbody.statements part hpart).plain hmem
    · exact (hbody.statements part hpart).oneof_iff hfield
  · rw [hextensions] at hfield
    obtain ⟨block, extendee, ⟨piece, hpiece, hblock⟩, hextend, hmem⟩ :=
      hin.extensions field hfield
    exact ⟨piece, hpiece, block, extendee, hblock, hextend, hmem, hextend.extends hmem⟩

/-- A group in a oneof, and a group in an extend block. -/
def groupsText : Text :=
  "message M\x7boneof o\x7bgroup A=1\x7b\x7d\x7d\x7dextend M\x7brepeated group B=3\x7b\x7d\x7d"

/-- The group in the oneof is a field of the message, and the other one is an extension. -/
theorem File.fields_of_parse_groupsText :
    ∃ file, File.parse groupsText [] = .ok file ∧
      ∃ scan pieces, Lexer.scan groupsText = .ok scan ∧ Parse.AreStatements scan.tokens pieces ∧
        file.FieldsAreDeclaredBy pieces := by
  have hparse : File.parse groupsText [] = .ok
      { extensions := [
          { name := "b", number := 3, type := "B", isRepeated := true, label := some .repeated
            extendee := some "M" }]
        root := { members := [
          .message
            { name := "M"
              fields := [{ name := "a", number := 1, type := "A", oneof := some "o" }]
              messages := [{ name := "A" }] },
          .message { name := "B" }] } } := by
    cbv
  exact ⟨_, hparse, File.fields_of_parse hparse⟩

end ProtoSchema
