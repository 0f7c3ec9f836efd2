import ProtoSchema.Proofs.Parser.Body
import ProtoSchema.Proofs.Parser.Concatenation
import ProtoSchema.Proofs.Parser.Continue

/-!
# Groups as fields and messages

A group is a short form: it stands for a field and for a message that is the type of the field. Main
statement: `File.parse_group`. Wherever a group may stand in the body of a message, a file with
the group and the file with the field and the message in its place are parsed as the same file, or
neither of them is a file.
-/

namespace ProtoSchema

open Parse

/-- What a group and a field have in common: the label, the literal of the number, and options that
are read in full as these settings. -/
structure FieldHead where
  label : Option Label
  number : Text
  options : List Lexeme
  settings : List OptionSetting
  reads_options : Reads Parse.bracketOptions options settings []

namespace FieldHead

variable (head : FieldHead)

/-- A group of this type, up to its opening brace. -/
def group (type : Lexeme) : List Lexeme :=
  Label.lexemes head.label ++ .identifier (Text.ofString "group") :: type :: .punctuation .equals ::
    .number head.number :: (head.options ++ [.punctuation .leftBrace])

/-- A field of this type and name. -/
def field (type name : Lexeme) : List Lexeme :=
  Label.lexemes head.label ++ type :: name :: .punctuation .equals :: .number head.number ::
    (head.options ++ [.punctuation .semicolon])

/-- The field that is declared. -/
def declared (number : Int) (type name : Text) (oneof : Option Text) : Field :=
  { name, number, type, isRepeated := repeats head.label, label := head.label, oneof,
    options := head.settings }

end FieldHead

/-- A group contributes its field and then its message. -/
theorem Members.group_eq (members : Members) (type : Text) (field : Field) :
    { members.declared type with fields := [field] } =
      ({ fields := [field] } : Members) ++ members.declared type :=
  rfl

/-- Contributions may be put together in any grouping. -/
theorem Members.append_assoc (first second third : Members) :
    first ++ second ++ third = first ++ (second ++ third) := by
  show Members.mk _ _ _ _ _ = Members.mk _ _ _ _ _
  congr 1 <;> exact List.append_assoc _ _ _

/-- A message of this name, up to its opening brace. -/
def messageOpening (name : Lexeme) : List Lexeme :=
  [.keyword .message, name, .punctuation .leftBrace]

namespace Parse

variable {α β : Type} {body : Parse Members} {following : List Lexeme}

/-- Only a bracket starts options. -/
theorem bracketOptions_of_ne {token : Token} (h : token.lexeme ≠ .punctuation .leftBracket)
    (tokens : List Token) : bracketOptions (token :: tokens) = .ok ([], token :: tokens) := by
  have hkind : some token.lexeme.kind ≠ some (.punctuation .leftBracket) :=
    fun hkind => h (Lexeme.eq_punctuation_of_kind (Option.some.inj hkind))
  rw [bracketOptions, peekKind_bind, if_neg hkind]
  rfl

/-- Options that are read in full are read in front of every mark but another bracket. -/
theorem Reads.options (head : FieldHead) {mark : Punctuation} (hmark : mark ≠ .leftBracket)
    (following : List Lexeme) :
    Reads Parse.bracketOptions head.options head.settings (.punctuation mark :: following) := by
  intro tokens htokens
  obtain ⟨taken, rest, rfl, htaken, hrest⟩ := List.map_eq_append_iff.mp htokens
  obtain ⟨left, hleft, hparse⟩ := head.reads_options taken (by rw [htaken, List.append_nil])
  obtain rfl := List.map_eq_nil_iff.mp hleft
  refine ⟨rest, hrest, ?_⟩
  cases taken with
  | nil =>
      obtain ⟨hsettings, -⟩ := Prod.mk.inj (Except.ok.inj hparse)
      obtain ⟨token, rest, rfl, htoken, -⟩ := List.map_eq_cons_iff.mp hrest
      rw [← hsettings]
      refine bracketOptions_of_ne (fun hbracket => hmark ?_) rest
      exact Lexeme.punctuation.inj (htoken.symm.trans hbracket)
  | cons token taken =>
      by_cases htoken : token.lexeme = .punctuation .leftBracket
      · have hoptions := (EndsWith.bracketOptions htoken taken).closedAt
        obtain ⟨all, -, hall, hclosed⟩ := hoptions _ _ hparse
        rw [List.append_nil] at hall
        rw [hall]
        exact hclosed rest
      · rw [bracketOptions_of_ne htoken] at hparse
        exact absurd (Prod.mk.inj (Except.ok.inj hparse)).2 (List.cons_ne_nil _ _)

/-- The word for groups, any lexeme and an equals sign start a group. -/
theorem startsGroup_of_lexemes {tokens : List Token} {second : Lexeme} {rest : List Lexeme}
    (h : tokens.map Token.lexeme =
      .identifier (Text.ofString "group") :: second :: .punctuation .equals :: rest) :
    startsGroup tokens := by
  obtain ⟨first, tokens, rfl, hfirst, h⟩ := List.map_eq_cons_iff.mp h
  obtain ⟨second, tokens, rfl, -, h⟩ := List.map_eq_cons_iff.mp h
  obtain ⟨third, tokens, rfl, hthird, -⟩ := List.map_eq_cons_iff.mp h
  simp [startsGroup, hfirst, hthird]

namespace StartsWithField

/-- A group starts as a field does. -/
theorem group (head : FieldHead) (type : Lexeme) : StartsWithField (head.group type) :=
  label head.label ⟨_, _, rfl, .inl rfl⟩

/-- A field starts as a field does. -/
theorem field (head : FieldHead) (type : Text) (name : Lexeme) :
    StartsWithField (head.field (.identifier type) name) :=
  label head.label ⟨_, _, rfl, .inl rfl⟩

end StartsWithField

/-- The lexemes of a group in front of its number. -/
def groupFront (label : Option Label) (type : Lexeme) : List Lexeme :=
  Label.lexemes label ++ [.identifier (Text.ofString "group"), type, .punctuation .equals]

/-- A group takes its number behind its type. -/
theorem TakesNumber.group (label : Option Label) {type : Lexeme} (htype : type.isName)
    (oneof : Option Text) :
    TakesNumber (Parse.field body oneof) (groupFront label type) fun number => do
      let options ← bracketOptions
      mark .leftBrace
      let members ← body
      mark .rightBrace
      let field : Field :=
        { name := Text.lower type.value, number, type := type.value, isRepeated := repeats label,
          label, oneof, options }
      return { members.declared type.value with fields := [field] } := by
  refine .read (fun following => .label label rfl) (.input fun following tokens htokens => ?_)
  rw [if_pos (startsGroup_of_lexemes htokens)]
  refine .cons (fun _ => .expect rfl _) ?_
  exact .cons (fun _ => .nameOf htype _) (.cons (fun _ => .mark .equals _) (.here _))

namespace Continues

/-! ### Fields and groups -/

/-- A group is read up to its opening brace, and then its body comes. -/
theorem group (head : FieldHead) (oneof : Option Text) {type : Lexeme} (htype : type.isName)
    (following : List Lexeme) :
    Continues (field body oneof) (head.group type)
      (withInteger head.number fun number => do
        let members ← body
        mark .rightBrace
        return { members.declared type.value with
          fields := [head.declared number type.value (Text.lower type.value) oneof] })
      following := by
  have hlexemes : head.group type = groupFront head.label type ++
      .number head.number :: (head.options ++ [.punctuation .leftBrace]) := by
    simp [FieldHead.group, groupFront]
  rw [hlexemes]
  refine (TakesNumber.group head.label htype oneof).continues fun number => ?_
  exact .read (.options head (by decide) _) (.cons (.mark .leftBrace _) (.refl _ _))

/-- A field is read. -/
theorem field (head : FieldHead) (oneof : Option Text) {type : Text} {name : Lexeme}
    (htype : type ≠ Text.ofString "group") (hname : name.isName) (following : List Lexeme) :
    Continues (Parse.field body oneof) (head.field (.identifier type) name)
      (withInteger head.number fun number =>
        pure { fields := [head.declared number type name.value oneof] }) following := by
  have hlexemes : head.field (.identifier type) name =
      fieldFront head.label [.identifier type] name ++
        .number head.number :: (head.options ++ [.punctuation .semicolon]) := by
    simp [FieldHead.field, fieldFront]
  have hstarts : StartsType [.identifier type] :=
    ⟨_, [], rfl, fun h => htype (Lexeme.identifier.inj h), .inl rfl⟩
  have hread (following : List Lexeme) :
      Reads fieldType [.identifier type] type following := .peekKind (.expect rfl _)
  rw [hlexemes]
  refine (TakesNumber.field head.label hstarts hread hname oneof).continues fun number => ?_
  exact .read (.options head (by decide) _) (.cons (.mark .semicolon _) (.refl _ _))

/-- A message is read up to its opening brace, and then its body comes. -/
theorem message {name : Lexeme} (h : name.isName) (following : List Lexeme) :
    Continues (Parse.message body) (messageOpening name)
      (do
        let members ← body
        mark .rightBrace
        return members.declared name.value) following :=
  .cons (.keyword .message _) (.cons (.nameOf h _) (.cons (.mark .leftBrace _) (.refl _ _)))

/-- What starts as a field goes on as one wherever a field may stand. -/
theorem fieldBy {parse : Parse Members} {oneof : Option Text}
    (hparse : ∀ token tokens, StartsField token.lexeme.kind →
      parse (token :: tokens) = Parse.field body oneof (token :: tokens))
    (hstarts : StartsWithField following) :
    Continues parse [] (Parse.field body oneof) following := by
  intro tokens htokens
  obtain ⟨first, rest, rfl, hfirst⟩ := hstarts
  obtain ⟨token, others, rfl, rfl, -⟩ := List.map_eq_cons_iff.mp htokens
  exact ⟨_, htokens, congrArg Except.toOption (hparse token others hfirst)⟩

/-- What starts as a field is read as one in the body of a message, and then the body goes on. -/
theorem fieldStatement {written : List Lexeme} {next : Parse Members}
    (hstarts : StartsWithField written)
    (h : Continues (Parse.field messageBody none) written next following) :
    Continues messageBody written
      (next >>= fun first => messageBody >>= fun others => pure (first ++ others)) following := by
  refine repeats_messageBody.round hstarts.startsItem (.nothing (.fieldBy ?_ ?_) h)
  · exact fun _ tokens hfield => hfield.bodyStatement tokens
  · exact hstarts.append following

end Continues

/-! ### Places in a body -/

/-- If two inputs are treated alike as bodies of a message, then the parse treats them alike behind
these lexemes. -/
def Carries (parse : Parse α) (front : List Lexeme) : Prop :=
  ∀ first second, Alike messageBody first second → Alike parse (front ++ first) (front ++ second)

namespace Carries

variable {parse next : Parse α} {written front : List Lexeme}

/-- Nothing stands in front of a body. -/
theorem messageBody : Carries Parse.messageBody [] :=
  fun _ _ h => h

/-- A parse carries what it reads and what the parse carries that it goes on with. -/
theorem after (h : ∀ following, Continues parse written next (front ++ following))
    (hnext : Carries next front) : Carries parse (written ++ front) := by
  intro first second hbodies
  rw [List.append_assoc, List.append_assoc]
  exact .of_continues (h first) (h second) (hnext first second hbodies)

/-- A parse carries what the parse does that it goes on with at once. -/
theorem nothing (h : ∀ following, Continues parse [] next (front ++ following))
    (hnext : Carries next front) : Carries parse front :=
  @after _ _ next [] front h hnext

/-- A look at the kind of the next lexeme reads nothing. -/
theorem peekKind {next : Option TokenKind → Parse α} {lexeme : Lexeme}
    (h : Carries (next (some lexeme.kind)) (lexeme :: front)) :
    Carries (Parse.peekKind >>= next) (lexeme :: front) :=
  nothing (fun _ => .peekKind (.refl _ _)) h

/-- A chain carries what its first parse does. -/
theorem bind (h : Carries parse front) {further : α → Parse β}
    (hfurther : ∀ value, LeftToRight (further value)) : Carries (parse >>= further) front :=
  fun first second hbodies => (h first second hbodies).bind hfurther

/-- Behind a number literal, it is enough to carry with every number. -/
theorem withInteger {next : Int → Parse α} (h : ∀ number, Carries (next number) front)
    (spelling : Text) : Carries (Parse.withInteger spelling next) front := by
  intro first second hbodies
  unfold Parse.withInteger
  split
  next number _ => exact h number first second hbodies
  next => exact .refuse _ _ _

/-- A loop carries its items, and then what an item carries. -/
theorem repeats {loop : Parse β} {item : Parse α} {add : α → β → β} {values : List α}
    (hloop : Repeats loop item add) (hleft : LeftToRight loop)
    (hitems : ReadsEach item written values) (hstarts : StartsItem front)
    (hitem : Carries item front) : Carries loop (written ++ front) := by
  have hround := hitem.bind fun first => hleft.wrap (add first)
  have hfront : Carries loop front :=
    nothing (fun following => hloop _ (hstarts.append following)) hround
  exact after (fun following => hloop.continues hitems _) (hfront.bind fun _ => .pure _)

/-- A group carries its head, and then what its body carries. -/
theorem group (head : FieldHead) (oneof : Option Text) {type : Lexeme} (htype : type.isName)
    (h : Carries Parse.messageBody front) :
    Carries (Parse.field Parse.messageBody oneof) (head.group type ++ front) :=
  after (fun _ => .group head oneof htype _)
    (withInteger (fun _ => h.bind fun _ => .wrap (.mark _) _) head.number)

/-- A group where a field may stand. -/
theorem groupBy {parse : Parse Members} {oneof : Option Text}
    (hparse : ∀ token tokens, StartsField token.lexeme.kind →
      parse (token :: tokens) = Parse.field Parse.messageBody oneof (token :: tokens))
    (head : FieldHead) {type : Lexeme} (htype : type.isName)
    (h : Carries Parse.messageBody front) : Carries parse (head.group type ++ front) := by
  refine nothing (fun following => .fieldBy hparse ?_) (group head oneof htype h)
  exact ((StartsWithField.group head type).append _).append _

/-- A block carries its entries up to a group. -/
theorem braced {item : Parse Members} {oneof : Option Text} {values : List Members}
    (hitem : LeftToRight item) (hasks : ¬ AsksConstant item) (htakes : Takes item)
    (hparse : ∀ token tokens, StartsField token.lexeme.kind →
      item (token :: tokens) = Parse.field Parse.messageBody oneof (token :: tokens))
    (hentries : ReadsEach item written values) (head : FieldHead) {type : Lexeme}
    (htype : type.isName) (h : Carries Parse.messageBody front) :
    Carries (Parse.braced item)
      (.punctuation .leftBrace :: (written ++ head.group type) ++ front) := by
  have hgroup : Carries item (head.group type ++ front) := groupBy hparse head htype h
  have hstarts := ((StartsWithField.group head type).append front).startsItem
  have hitems : Carries (items item) (written ++ (head.group type ++ front)) :=
    repeats (repeats_items htakes) (.items hitem hasks htakes) hentries hstarts hgroup
  rw [braced_eq, List.cons_append, List.append_assoc]
  show Carries _ ([.punctuation .leftBrace] ++ (written ++ (head.group type ++ front)))
  exact after (fun _ => .after (.mark .leftBrace _))
    (hitems.bind fun found => .wrap (.mark _) fun _ => found)

end Carries

/-- Lexemes that open a body in a file: a message, or an extend block with entries up to a group. -/
inductive OpensInFile : List Lexeme → Prop
  | message {name : Lexeme} (hname : name.isName) : OpensInFile (messageOpening name)
  | extension {extendee : Text} {entries : List Lexeme} {values : List Members} {head : FieldHead}
      {type : Lexeme} (hentries : ReadsEach (orSemicolon (field messageBody none)) entries values)
      (htype : type.isName) :
      OpensInFile (.keyword .extend :: .identifier extendee :: .punctuation .leftBrace ::
        (entries ++ head.group type))

/-- Lexemes that open a body in a body: what does so in a file, or a group, which may come after
entries of a oneof. -/
inductive OpensInBody : List Lexeme → Prop
  | file {opening : List Lexeme} (hopening : OpensInFile opening) : OpensInBody opening
  | group {head : FieldHead} {type : Lexeme} (htype : type.isName) : OpensInBody (head.group type)
  | oneof {name : Lexeme} {entries : List Lexeme} {values : List Members} {head : FieldHead}
      {type : Lexeme} (hname : name.isName)
      (hentries : ReadsEach (oneofEntry messageBody name.value) entries values)
      (htype : type.isName) :
      OpensInBody (.keyword .oneof :: name :: .punctuation .leftBrace ::
        (entries ++ head.group type))

/-- Lexemes that lead from the start of a body to a statement of it, or to one of a body in it:
complete statements, which an open body may follow. -/
inductive LeadsInBody : List Lexeme → Prop
  | here {statements : List Lexeme} {values : List Members}
      (hstatements : ReadsEach (bodyStatement messageBody) statements values) :
      LeadsInBody statements
  | deeper {statements opening front : List Lexeme} {values : List Members}
      (hstatements : ReadsEach (bodyStatement messageBody) statements values)
      (hopening : OpensInBody opening) (hfront : LeadsInBody front) :
      LeadsInBody (statements ++ (opening ++ front))

/-- Lexemes that lead from the start of a file to a statement of a body: complete statements, an
open body, and what leads on in it. -/
inductive LeadsInFile : List Lexeme → Prop
  | mk {statements opening front : List Lexeme} {values : List (Option Statement)}
      (hstatements : ReadsEach statement statements values) (hopening : OpensInFile opening)
      (hfront : LeadsInBody front) : LeadsInFile (statements ++ (opening ++ front))

namespace Carries

variable {opening front : List Lexeme}

/-- What opens a body in a file carries it, in a body too. -/
theorem opensInFile (hopening : OpensInFile opening) (h : Carries Parse.messageBody front) :
    Carries statement (opening ++ front) ∧
      Carries (bodyStatement Parse.messageBody) (opening ++ front) := by
  cases hopening with
  | @message name hname =>
      have hmessage : Carries (message Parse.messageBody) (messageOpening name ++ front) :=
        after (fun _ => .message hname _) (h.bind fun _ => .wrap (.mark _) _)
      exact ⟨peekKind (hmessage.bind fun _ => .pure _), peekKind hmessage⟩
  | @extension extendee entries values head type hentries htype =>
      have hblock := braced (.orSemicolon (.field .messageBody none) nofun) nofun
        (LeftToRight.takes_orSemicolon_field .messageBody none)
        (fun _ tokens hstarts => hstarts.orSemicolon _ tokens) hentries head htype h
      have hextension : Carries (extension Parse.messageBody) ([.keyword .extend] ++
          ([.identifier extendee] ++
            (.punctuation .leftBrace :: (entries ++ head.group type) ++ front))) :=
        after (fun _ => .after (.keyword .extend _)) (after (fun _ => .after (.expect rfl _))
          (hblock.bind fun _ => .pure _))
      exact ⟨peekKind (hextension.bind fun _ => .pure _), peekKind hextension⟩

/-- What opens a body in a body carries it. -/
theorem opensInBody (hopening : OpensInBody opening) (h : Carries Parse.messageBody front) :
    Carries (bodyStatement Parse.messageBody) (opening ++ front) := by
  cases hopening with
  | file hopening => exact (opensInFile hopening h).2
  | group htype => exact groupBy (fun _ tokens hstarts => hstarts.bodyStatement tokens) _ htype h
  | @oneof name entries values head type hname hentries htype =>
      have hblock := braced (.oneofEntry .messageBody name.value) nofun
        (LeftToRight.takes_oneofEntry .messageBody name.value)
        (fun _ tokens hstarts => hstarts.oneofEntry name.value tokens) hentries head htype h
      have honeof : Carries (oneof Parse.messageBody) ([.keyword .oneof] ++ ([name] ++
          (.punctuation .leftBrace :: (entries ++ head.group type) ++ front))) :=
        after (fun _ => .after (.keyword .oneof _)) (after (fun _ => .after (.nameOf hname _))
          (hblock.bind fun _ => .pure _))
      exact peekKind honeof

end Carries

/-- What opens a body starts an item of the block that it stands in. -/
theorem OpensInFile.startsItem {opening : List Lexeme} (h : OpensInFile opening) :
    StartsItem opening := by
  cases h <;> exact Lexeme.noConfusion

/-- What opens a body in a body starts a statement. -/
theorem OpensInBody.startsItem {opening : List Lexeme} (h : OpensInBody opening) :
    StartsItem opening := by
  cases h with
  | file h => exact h.startsItem
  | group => exact (StartsWithField.group _ _).startsItem
  | oneof => exact Lexeme.noConfusion

/-- What leads to a statement of a body carries the body from there. -/
theorem LeadsInBody.carries {front : List Lexeme} (h : LeadsInBody front) :
    Carries messageBody front := by
  induction h with
  | @here written values hstatements =>
      have hbody : Carries messageBody (written ++ []) :=
        .after (fun _ => repeats_messageBody.continues hstatements _)
          (Carries.messageBody.bind fun _ => .pure _)
      rwa [List.append_nil] at hbody
  | deeper hstatements hopening _ ih =>
      exact .repeats repeats_messageBody .messageBody hstatements (hopening.startsItem.append _)
        (.opensInBody hopening ih)

/-- What leads to a statement of a body in a file carries the body from there. -/
theorem LeadsInFile.carries {front : List Lexeme} (h : LeadsInFile front) :
    Carries statements front := by
  obtain ⟨hstatements, hopening, hfront⟩ := h
  exact .repeats repeats_statements .statements hstatements (hopening.startsItem.append _)
    (Carries.opensInFile hopening hfront.carries).1

/-! ### The group and its long form -/

/-- A group and its field and message are treated alike in the body of a message: the same field and
the same message are declared, and then the body goes on. -/
theorem alike_group (head : FieldHead) {type : Text} {name : Lexeme}
    (htype : type ≠ Text.ofString "group") (hname : name.isName)
    (hvalue : name.value = Text.lower type) (rest : List Lexeme) :
    Alike messageBody (head.group (.identifier type) ++ rest)
      (head.field (.identifier type) name ++ (messageOpening (.identifier type) ++ rest)) := by
  have hgroup := Continues.fieldStatement (StartsWithField.group head (.identifier type))
    (.group head none rfl rest)
  have hfield := Continues.fieldStatement (StartsWithField.field head type name)
    (.field head none htype hname (messageOpening (.identifier type) ++ rest))
  have hopening : Continues (bodyStatement messageBody) (messageOpening (.identifier type)) _
      rest := .peekKind (.message rfl rest)
  have hmessage := repeats_messageBody.round Lexeme.noConfusion hopening
  cases hnumber : Integer.ofLiteral? head.number with
  | none =>
      -- The number is refused in the group and in the field.
      simp only [withInteger, hnumber] at hgroup hfield
      exact .of_continues hgroup hfield (.refuse _ _ _)
  | some number =>
      simp only [withInteger, hnumber, pure_bind] at hgroup hfield
      have hboth := Continues.trans hfield (hmessage.bind _)
      rw [hvalue] at hboth
      -- Both go on with the body of the new message, and then with the rest of the body around it.
      have hrest := LeftToRight.messageBody.alike rest
      rw [← List.append_assoc]
      refine .of_continues hgroup ?_ ((hrest.bind fun _ => .wrap (.mark _) _).bind fun _ =>
        .wrap .messageBody _)
      simp only [bind_assoc, pure_bind, Members.group_eq, Members.append_assoc] at hboth ⊢
      exact hboth

end Parse

open Parse

/-- Texts whose lexemes are treated alike are the same file, or both are none. -/
theorem File.parse_of_alike {text other : Text} {first second : List Lexeme}
    (hfirst : Lexer.lexemes text = .ok first) (hsecond : Lexer.lexemes other = .ok second)
    (h : Alike statements first second) (path : Text) :
    (File.parse text path).toOption = (File.parse other path).toOption := by
  have hfile {text : Text} {scan : Lexer.Scan} (hscan : Lexer.scan text = .ok scan) :
      (File.parse text path).toOption =
        (outcome (statements scan.tokens)).map fun found => .ofStatements path found.1 := by
    rw [File.parse_of_scan hscan]
    cases statements scan.tokens <;> rfl
  obtain ⟨found, hfound, hlexemes⟩ := Lexer.scan_of_lexemes hfirst
  obtain ⟨again, hagain, hothers⟩ := Lexer.scan_of_lexemes hsecond
  rw [hfile hfound, hfile hagain, h found.tokens again.tokens hlexemes hothers]

/-- A group may be written as a field and a message instead. In the body of a message, behind
complete statements, and wherever this body stands in the file: the file with the group and the file
with the field and the message in its place are both no file, or they are the same file. The name of
the field is the type in lower case, and `rest` is what the group and the message share, the body
and all that comes after it. -/
theorem File.parse_group {front rest : List Lexeme} (hfront : LeadsInFile front)
    (head : FieldHead) {type : Text} {name : Lexeme} (htype : type ≠ Text.ofString "group")
    (hname : name.isName) (hvalue : name.value = Text.lower type) {grouped spread : Text}
    (hgrouped : Lexer.lexemes grouped = .ok (front ++ (head.group (.identifier type) ++ rest)))
    (hspread : Lexer.lexemes spread = .ok (front ++ (head.field (.identifier type) name ++
      (messageOpening (.identifier type) ++ rest)))) (path : Text) :
    (File.parse grouped path).toOption = (File.parse spread path).toOption :=
  File.parse_of_alike hgrouped hspread
    (hfront.carries _ _ (alike_group head htype hname hvalue rest)) path

/-- A group whose field has the name of a keyword, with a label and an option. It stands in the
group of a oneof, behind a field of the message, and an extend block with a group of its own stands
in it. -/
theorem File.parse_group_keyword :
    let grouped : Text := Text.ofString "message M \x7b T t = 1; oneof o \x7b group P = 2 \x7b" ++
      Text.ofString "repeated group Message = 3 [x = y] \x7b extend M \x7b group E = 4 \x7b" ++
      Text.ofString "\x7d \x7d \x7d T u = 5; \x7d \x7d \x7d"
    let spread : Text := Text.ofString "message M \x7b T t = 1; oneof o \x7b group P = 2 \x7b" ++
      Text.ofString "repeated Message message = 3 [x = y]; message Message \x7b" ++
      Text.ofString "extend M \x7b group E = 4 \x7b \x7d \x7d \x7d T u = 5; \x7d \x7d \x7d"
    (File.parse grouped "f").toOption = (File.parse spread "f").toOption ∧
      (File.parse spread "f").toOption.isSome := by
  intro grouped spread
  have hplain : Field.Printable { name := "t", number := 1, type := "T" } := by
    refine ⟨⟨⟨⟨_, rfl, rfl, rfl⟩, .inl ⟨rfl, by decide⟩⟩, by decide⟩, by decide, ?_⟩
    exact fun _ h => absurd h List.not_mem_nil
  have hstatement : ReadsEach (bodyStatement messageBody) _ _ :=
    .single (startsWithField_of_printable hplain).startsItem (Reads.bodyStatement_field hplain)
  let plain : FieldHead := ⟨none, "2", [], [], .peekKind (.pure [] [])⟩
  have honeof : OpensInBody (.keyword .oneof :: .identifier "o" :: .punctuation .leftBrace ::
      ([] ++ plain.group (.identifier "P"))) := .oneof rfl .nil rfl
  have hmessage : OpensInFile (messageOpening (.identifier "M")) := .message rfl
  have hfront := LeadsInFile.mk .nil hmessage (.deeper hstatement honeof (.here .nil))
  let options : List Lexeme := [.punctuation .leftBracket, .identifier "x", .punctuation .equals,
    .identifier "y", .punctuation .rightBracket]
  let head : FieldHead :=
    ⟨some .repeated, "3", options, [⟨"x", .text "y"⟩],
      have hoptions : bracketOptions (options.map (⟨·, Position.start⟩)) =
        .ok ([⟨"x", .text "y"⟩], []) := rfl
      LeftToRight.bracketOptions.reads hoptions rfl⟩
  let rest : List Lexeme := [.keyword .extend, .identifier "M", .punctuation .leftBrace,
    .identifier "group", .identifier "E", .punctuation .equals, .number "4",
    .punctuation .leftBrace, .punctuation .rightBrace, .punctuation .rightBrace,
    .punctuation .rightBrace, .identifier "T", .identifier "u", .punctuation .equals, .number "5",
    .punctuation .semicolon, .punctuation .rightBrace, .punctuation .rightBrace,
    .punctuation .rightBrace]
  refine ⟨?_, by decide +kernel⟩
  exact @File.parse_group _ rest hfront head "Message" (.keyword .message) (by decide) rfl
    (by decide +kernel) grouped spread (by decide +kernel) (by decide +kernel) "f"

end ProtoSchema
