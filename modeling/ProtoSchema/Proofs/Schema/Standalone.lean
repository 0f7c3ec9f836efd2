import ProtoSchema.Proofs.Parser.Yields
import ProtoSchema.Proofs.Schema.Rendered
import ProtoSchema.Proofs.Token.Marks

/-!
# Texts that stand alone

Sourced messages are rendered as a text with one opening brace for each message, and a group takes a
brace besides that of its message. So no field of such a text is read as that of a group, and
`Message.areStandalone_iff_isReadable` says that sourced messages are read back from their text
exactly when every field of theirs has a name and a type as in a field statement.
-/

namespace ProtoSchema

open Lexer (IsName IsIdentifier IsWord)

/-! ### Reading back -/

/-- What is compared of a field: its name, its number, its type and whether it repeats. -/
def Field.shape (field : Field) : Text × Int × Text × Bool :=
  (field.name, field.number, field.type, field.isRepeated)

/-- What is compared of a message: its name and its fields. -/
def Message.shape (message : Message) : Text × List (Text × Int × Text × Bool) :=
  (message.name, message.fields.map Field.shape)

/-- The messages are rendered as a text that is parsed, as a file whose messages have the same names
and the same fields in the same order. -/
def Message.AreStandalone (messages : List Message) (path : Text) : Prop :=
  ∃ text file, Message.renderAll? messages = some text ∧ File.parse text path = .ok file ∧
    file.messages.map Message.shape = messages.map Message.shape

/-- Whether a field is readable shows in its shape. -/
theorem Field.IsReadable.of_shape {field other : Field} (h : field.IsReadable)
    (hshape : field.shape = other.shape) : other.IsReadable := by
  obtain ⟨hname, -, htype, -⟩ : field.name = other.name ∧ field.number = other.number ∧
      field.type = other.type ∧ field.isRepeated = other.isRepeated := by
    simpa [Field.shape] using hshape
  exact ⟨hname ▸ h.name, htype ▸ h.type⟩

/-- The shape of a field shows in its rendered form. -/
theorem Field.shape_rendered (field : Field) : field.rendered.shape = field.shape :=
  rfl

/-- The messages of a rendered file have the shapes of those that were rendered. -/
theorem File.shape_messages_ofRendered (messages : List Message) (path : Text) :
    (File.ofRendered messages path).messages.map Message.shape = messages.map Message.shape := by
  have hmessages : (File.ofRendered messages path).messages = messages.map Message.rendered := by
    show (messages.map fun message => Declaration.message message.rendered).filterMap
      Declaration.message? = _
    rw [List.filterMap_map]
    show messages.filterMap (some ∘ Message.rendered) = _
    rw [List.filterMap_eq_map]
  rw [hmessages, List.map_map]
  refine List.map_congr_left fun message _ => ?_
  simp [Message.shape, Message.rendered, Field.shape_rendered]

/-! ### The braces of a text -/

/-- The code point of an opening brace. -/
def CodePoint.leftBrace : CodePoint :=
  .ofChar Punctuation.leftBrace.char

/-- An integer has no brace in it. -/
theorem Integer.leftBrace_notMem_numeral (value : Int) : CodePoint.leftBrace ∉ numeral value := by
  have hdigits : CodePoint.leftBrace ∉ digits value.natAbs := by
    intro hmem
    exact absurd (isAsciiDigit_of_mem_digits hmem) (by decide)
  have hminus : CodePoint.leftBrace ≠ '-' := by decide
  unfold numeral
  split
  · simp [hdigits, hminus]
  · exact hdigits

/-- A field type has no brace in it. -/
theorem IsFieldType.leftBrace_notMem {type : Text} (h : IsFieldType type) :
    CodePoint.leftBrace ∉ type := by
  have hword {text : Text} (h : IsIdentifier text) : CodePoint.leftBrace ∉ text :=
    (Lexer.isIdentifier_iff.mp h).1.mark_notMem .leftBrace
  rcases h with ⟨hidentifier, -⟩ | ⟨key, value, hkey, hvalue, rfl⟩
  · exact hword hidentifier
  · have hfixed : CodePoint.leftBrace ∉ Text.ofString "map<" ∧
        CodePoint.leftBrace ∉ Text.ofString ", " ∧ CodePoint.leftBrace ∉ Text.ofString ">" := by
      decide
    simp [mapTypeText, hfixed, hword hkey, hword hvalue]

/-- The line of a sourced field has no brace in it. -/
theorem Field.leftBrace_notMem_line {field : Field} (h : field.IsReadable ∨ field.IsGroup) :
    CodePoint.leftBrace ∉ field.line := by
  have hname : CodePoint.leftBrace ∉ field.name := by
    rcases h with h | ⟨htype, hlower⟩
    · exact (Lexer.isName_iff.mp h.name).mark_notMem .leftBrace
    · rw [hlower]
      exact (Lexer.isName_iff.mp htype).mark_notMem_lower .leftBrace
  have htype : CodePoint.leftBrace ∉ field.type := by
    rcases h with h | ⟨htype, -⟩
    · exact h.type.leftBrace_notMem
    · exact (Lexer.isName_iff.mp htype).mark_notMem .leftBrace
  have hlabel : CodePoint.leftBrace ∉
      (if field.isRepeated then Text.ofString "repeated " else []) := by
    split
    · decide
    · exact List.not_mem_nil
  have hfixed : CodePoint.leftBrace ∉ Text.ofString "  " ∧
      CodePoint.leftBrace ∉ Text.ofString " " ∧ CodePoint.leftBrace ∉ Text.ofString " = " ∧
      CodePoint.leftBrace ∉ Text.ofString ";\n" := by
    decide
  have hnumber := Integer.leftBrace_notMem_numeral field.number
  simp only [Field.line, List.mem_append, hfixed, hlabel, htype, hname, hnumber, or_false,
    not_false_eq_true]

/-- The block of a sourced message has one brace. -/
theorem Message.count_block {message : Message} (hname : IsName message.name)
    (hfields : ∀ field ∈ message.fields, field.IsReadable ∨ field.IsGroup) :
    message.block.count CodePoint.leftBrace = 1 := by
  have hnameCount : message.name.count CodePoint.leftBrace = 0 :=
    List.count_eq_zero.mpr ((Lexer.isName_iff.mp hname).mark_notMem .leftBrace)
  have hlines : (message.fields.flatMap Field.line).count CodePoint.leftBrace = 0 := by
    rw [List.count_eq_zero, List.mem_flatMap]
    rintro ⟨field, hfield, hmem⟩
    exact Field.leftBrace_notMem_line (hfields field hfield) hmem
  have hstart : (Text.ofString "\nmessage ").count CodePoint.leftBrace = 0 := by decide
  have hopen : (Text.ofString " \x7b\n").count CodePoint.leftBrace = 1 := by decide
  have hclose : (Text.ofString "\x7d\n").count CodePoint.leftBrace = 0 := by decide
  simp only [Message.block, List.count_append, hstart, hnameCount, hopen, hlines, hclose]

/-- The text of sourced messages has one brace for each of them. -/
theorem Message.count_renderedText {messages : List Message}
    (hnames : ∀ message ∈ messages, IsName message.name)
    (hfields : ∀ message ∈ messages, ∀ field ∈ message.fields,
      field.IsReadable ∨ field.IsGroup) :
    (Message.renderedText messages).count CodePoint.leftBrace = messages.length := by
  have hheader : (Text.ofString "syntax = \"proto3\";\n").count CodePoint.leftBrace = 0 := by
    decide
  rw [Message.renderedText, List.count_append, hheader, Nat.zero_add]
  induction messages with
  | nil => rfl
  | cons message messages ih =>
      obtain ⟨hname, hnames⟩ := List.forall_mem_cons.mp hnames
      obtain ⟨hfirst, hfields⟩ := List.forall_mem_cons.mp hfields
      rw [List.flatMap_cons, List.count_append, Message.count_block hname hfirst,
        ih hnames hfields, List.length_cons]
      omega

/-- The messages that a text declares are sourced by its braces. -/
theorem File.areSourced_of_parse {text path : Text} {file : File}
    (h : File.parse text path = .ok file) :
    Message.AreSourced (text.count CodePoint.leftBrace)
      (Declaration.messagesIn file.root.members) := by
  obtain ⟨scan, statements, rest, hscan, hscanned, hrun, rfl⟩ := File.exists_statements_of_parse h
  have hlexemes : Lexer.lexemes text = .ok (scan.tokens.map Token.lexeme) := by
    rw [Lexer.lexemes, hscan]
    rfl
  obtain ⟨-, cost, hcost, hsourced⟩ :=
    Parse.Yields.statements scan.tokens statements rest hscanned hrun
  have hbraces : Parse.braces scan.tokens ≤ text.count CodePoint.leftBrace :=
    Lexer.count_mark_le hlexemes .leftBrace
  exact (hsourced.mono (by omega)).of_perm (messagesIn_ofStatements path statements).symm

/-! ### When messages stand alone -/

/-- A text with only one brace for each message has no groups, so its fields are readable. -/
theorem Message.isReadable_of_parse {messages : List Message} {path : Text} {file : File}
    (hnames : ∀ message ∈ messages, IsName message.name)
    (hfields : ∀ message ∈ messages, ∀ field ∈ message.fields, field.IsReadable ∨ field.IsGroup)
    (hparse : File.parse (Message.renderedText messages) path = .ok file)
    (hshape : file.messages.map Message.shape = messages.map Message.shape) :
    ∀ message ∈ messages, ∀ field ∈ message.fields, field.IsReadable := by
  have hsourced := (File.areSourced_of_parse hparse).exceptions
  rw [Message.count_renderedText hnames hfields] at hsourced
  obtain ⟨groups, hgroups, hreadable⟩ := hsourced
  -- The braces of the text are all taken by its messages, and none is left for a group.
  have hlength : messages.length = file.messages.length := by
    simpa using congrArg List.length hshape.symm
  have hsublist := file.messages_sublist
  have hnone : groups = [] := by
    have hle := hsublist.length_le
    exact List.length_eq_zero_iff.mp (by omega)
  intro message hmessage field hfield
  have hfound : message.shape ∈ file.messages.map Message.shape := by
    rw [hshape]
    exact List.mem_map_of_mem hmessage
  obtain ⟨other, hother, hothershape⟩ := List.mem_map.mp hfound
  have hfieldshape : field.shape ∈ other.fields.map Field.shape := by
    rw [(Prod.mk.inj hothershape).2]
    exact List.mem_map_of_mem hfield
  obtain ⟨read, hread, hreadshape⟩ := List.mem_map.mp hfieldshape
  have hmem := List.mem_flatMap.mpr ⟨other, hsublist.subset hother, hread⟩
  rcases hreadable read hmem with h | h
  · exact h.of_shape hreadshape
  · rw [hnone] at h
    exact absurd h List.not_mem_nil

/-- Sourced messages whose numbers can be written are read back from their text exactly when all
their fields have names and types as in field statements. -/
theorem Message.areStandalone_iff_isReadable {messages : List Message}
    (hnames : ∀ message ∈ messages, IsName message.name)
    (hfields : ∀ message ∈ messages, ∀ field ∈ message.fields, field.IsReadable ∨ field.IsGroup)
    (hshort : ∀ message ∈ messages, ∀ field ∈ message.fields, Integer.IsShort field.number)
    (path : Text) :
    Message.AreStandalone messages path ↔
      ∀ message ∈ messages, ∀ field ∈ message.fields, field.IsReadable := by
  have hrendered := Message.renderAll?_of_isShort hshort
  constructor
  · rintro ⟨text, file, htext, hparse, hshape⟩
    obtain rfl := Option.some.inj (hrendered.symm.trans htext)
    exact Message.isReadable_of_parse hnames hfields hparse hshape
  · intro h
    have hplain : ∀ message ∈ messages, ∀ field ∈ message.fields, field.IsPlain :=
      fun message hmessage field hfield =>
        ⟨h message hmessage field hfield, hshort message hmessage field hfield⟩
    exact ⟨_, _, hrendered, File.parse_renderedText hnames hplain path,
      File.shape_messages_ofRendered messages path⟩

end ProtoSchema
