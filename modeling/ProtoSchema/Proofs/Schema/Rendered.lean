import ProtoSchema.Proofs.Mixin.Expansion
import ProtoSchema.Proofs.Parser.File
import ProtoSchema.Schema.Printer

/-!
# Reading rendered messages

Messages are rendered as a file of their own. `File.parse_renderAll` says what this file is parsed
as when every name is a name and every type is a field type: the same messages in order,
with the same fields, and nothing else. The layout of the renderer is not that of `Schema.written`,
so the proof first finds its lexemes, which are those of a schema of these messages.
-/

namespace ProtoSchema

open Lexer (IsName)

/-! ### The rendered text -/

/-- The line of a field, however long its number is. -/
def Field.line (field : Field) : Text :=
  Text.ofString "  " ++ (if field.isRepeated then Text.ofString "repeated " else []) ++
    field.type ++ Text.ofString " " ++ field.name ++ Text.ofString " = " ++
    Integer.numeral field.number ++ Text.ofString ";\n"

/-- The lines of a message. -/
def Message.block (message : Message) : Text :=
  Text.ofString "\nmessage " ++ message.name ++ Text.ofString " \x7b\n" ++
    message.fields.flatMap Field.line ++ Text.ofString "\x7d\n"

/-- The text of a file that declares these messages. -/
def Message.renderedText (messages : List Message) : Text :=
  Text.ofString "syntax = \"proto3\";\n" ++ messages.flatMap Message.block

/-- Messages are rendered when all their numbers can be written. -/
theorem Message.renderAll?_of_isShort {messages : List Message}
    (h : ∀ message ∈ messages, ∀ field ∈ message.fields, Integer.IsShort field.number) :
    Message.renderAll? messages = some (Message.renderedText messages) := by
  have hline (field : Field) (hshort : Integer.IsShort field.number) :
      field.line? = some field.line := by
    rw [Field.line?, Integer.decimal?_of_isShort hshort]
    rfl
  have hblock (message : Message) (hmem : message ∈ messages) :
      message.block? = some message.block := by
    have hlines := mapM_eq_some fun field hfield => hline field (h message hmem field hfield)
    rw [Message.block?, hlines]
    rfl
  rw [Message.renderAll?, mapM_eq_some hblock]
  rfl

/-! ### The rendered schema -/

/-- What a rendered file says about a field. The label is that of a field that repeats or none,
whatever label the field has. -/
def Field.rendered (field : Field) : Field :=
  { name := field.name
    number := field.number
    type := field.type
    isRepeated := field.isRepeated
    label := if field.isRepeated then some .repeated else none
    extendee := none
    oneof := none
    options := [] }

/-- What a rendered file says about a message. -/
def Message.rendered (message : Message) : Message :=
  { name := message.name
    fields := message.fields.map Field.rendered
    messages := []
    enums := []
    options := [] }

/-- A rendered file as a schema. -/
def Schema.ofRendered (messages : List Message) : Schema :=
  { dialect := Text.ofString "proto3"
    package := none
    imports := []
    options := []
    extensions := []
    declarations := messages.map fun message => .message message.rendered }

/-- A rendered field can be written. -/
theorem Field.IsPlain.printable_rendered {field : Field} (h : field.IsPlain) :
    field.rendered.Printable where
  name := h.name
  type := h.type
  number := h.number
  repeats := by cases hrepeated : field.isRepeated <;> simp [Field.rendered, hrepeated]
  options _ hmem := absurd hmem List.not_mem_nil

/-- A rendered message can be written. -/
theorem Message.printable_rendered {message : Message} (hname : IsName message.name)
    (hfields : ∀ field ∈ message.fields, field.IsPlain) : message.rendered.Printable := by
  refine .mk hname ?_ ?_ ?_ ?_
  · refine List.forall_mem_map.mpr fun field hmem => ?_
    refine ⟨(hfields field hmem).printable_rendered, rfl, ?_⟩
    exact fun oneof honeof => absurd honeof (Option.not_mem_none oneof)
  · exact fun _ hmem => absurd hmem List.not_mem_nil
  · exact fun _ hmem => absurd hmem List.not_mem_nil
  · exact fun _ hmem => absurd hmem List.not_mem_nil

/-- Fields outside of every oneof are written one after the other. -/
theorem Field.listLexemes_of_oneof_none {fields : List Field}
    (h : ∀ field ∈ fields, field.oneof = none) :
    Field.listLexemes fields = fields.flatMap Field.lexemes := by
  have hrun : ∀ run ∈ runs Field.oneof fields,
      Field.oneofLexemes run = run.2.flatMap Field.lexemes := by
    intro run hmem
    obtain ⟨field, hfield⟩ := exists_mem_of_mem_runs hmem
    obtain ⟨hmember, hkey⟩ := key_of_mem_runs hmem field hfield
    rw [Field.oneofLexemes, ← hkey, h field hmember]
  rw [Field.listLexemes, List.flatMap_congr hrun, ← List.flatMap_assoc, flatMap_snd_runs]

/-- A rendered message is written as its fields between braces. -/
theorem Message.lexemes_rendered (message : Message) :
    message.rendered.lexemes = .keyword .message :: .ofWord message.name ::
      Lexeme.block (message.fields.flatMap fun field => field.rendered.lexemes) := by
  have hfields : ∀ field ∈ message.fields.map Field.rendered, field.oneof = none :=
    List.forall_mem_map.mpr fun _ _ => rfl
  rw [Message.lexemes, Message.rendered, Message.bodyLexemes,
    Field.listLexemes_of_oneof_none hfields, List.flatMap_map]
  simp [Message.listLexemes]

/-! ### The lexemes of the rendered text -/

namespace Lexer

/-- The line of a field has the lexemes of the field. -/
theorem lexemes_line {field : Field} (h : field.IsPlain) (rest : Text) :
    lexemes (field.line ++ rest) = (lexemes rest).map (field.rendered.lexemes ++ ·) := by
  have hname : IsWord field.name := isName_iff.mp h.name
  have hlabel (rest : Text) :
      lexemes ((if field.isRepeated then Text.ofString "repeated " else []) ++ rest) =
        (lexemes rest).map (Label.lexemes field.rendered.label ++ ·) := by
    unfold Field.rendered
    split
    · show lexemes (Keyword.repeated.spelling ++ (CodePoint.ofChar ' ' :: rest)) = _
      rw [lexemes_keyword .repeated rfl, lexemes_blank (.inl rfl)]
      rfl
    · show lexemes rest = (lexemes rest).map ([] ++ ·)
      cases lexemes rest <;> rfl
  -- The line cut into pieces that each have a lemma about what they are scanned as.
  have htext : field.line ++ rest = CodePoint.ofChar ' ' :: CodePoint.ofChar ' ' ::
      ((if field.isRepeated then Text.ofString "repeated " else []) ++ (field.type ++
        (CodePoint.ofChar ' ' :: (field.name ++ (CodePoint.ofChar ' ' ::
          CodePoint.ofChar Punctuation.equals.char :: CodePoint.ofChar ' ' ::
            (Integer.numeral field.number ++ (CodePoint.ofChar Punctuation.semicolon.char ::
              CodePoint.ofChar '\n' :: rest))))))) := by
    simp only [Field.line, List.append_assoc]
    rfl
  rw [htext, lexemes_blank (.inl rfl), lexemes_blank (.inl rfl), hlabel,
    h.type.lexemes_append rfl, lexemes_blank (.inl rfl), lexemes_word hname rfl,
    lexemes_blank (.inl rfl), lexemes_mark, lexemes_blank (.inl rfl), lexemes_numeral _ rfl,
    lexemes_mark, lexemes_blank (.inr rfl)]
  cases lexemes rest with
  | error cause => rfl
  | ok found =>
      simp [Except.map, Field.lexemes, Field.rendered, OptionSetting.bracketed]

/-- Lines that each have the lexemes of their element have them together. -/
theorem lexemes_flatMap {α : Type} {write : α → Text} {found : α → List Lexeme} {source : List α}
    (h : ∀ element ∈ source, ∀ rest,
      lexemes (write element ++ rest) = (lexemes rest).map (found element ++ ·)) (rest : Text) :
    lexemes (source.flatMap write ++ rest) = (lexemes rest).map (source.flatMap found ++ ·) := by
  induction source with
  | nil =>
      show lexemes rest = (lexemes rest).map ([] ++ ·)
      cases lexemes rest <;> rfl
  | cons element source ih =>
      obtain ⟨helement, hsource⟩ := List.forall_mem_cons.mp h
      rw [List.flatMap_cons, List.append_assoc, helement, ih hsource]
      cases lexemes rest with
      | error cause => rfl
      | ok following => simp [Except.map]

/-- The lines of a message have the lexemes of the message. -/
theorem lexemes_block {message : Message} (hname : IsName message.name)
    (hfields : ∀ field ∈ message.fields, field.IsPlain) (rest : Text) :
    lexemes (message.block ++ rest) = (lexemes rest).map (message.rendered.lexemes ++ ·) := by
  have htext : message.block ++ rest = CodePoint.ofChar '\n' :: (Keyword.message.spelling ++
      (CodePoint.ofChar ' ' :: (message.name ++ (CodePoint.ofChar ' ' ::
        CodePoint.ofChar Punctuation.leftBrace.char :: CodePoint.ofChar '\n' ::
          (message.fields.flatMap Field.line ++ (CodePoint.ofChar Punctuation.rightBrace.char ::
            CodePoint.ofChar '\n' :: rest)))))) := by
    simp only [Message.block, List.append_assoc]
    rfl
  rw [htext, lexemes_blank (.inr rfl), lexemes_keyword .message rfl, lexemes_blank (.inl rfl),
    lexemes_word (isName_iff.mp hname) rfl, lexemes_blank (.inl rfl), lexemes_mark,
    lexemes_blank (.inr rfl), lexemes_flatMap fun field hmem => lexemes_line (hfields field hmem),
    lexemes_mark, lexemes_blank (.inr rfl), Message.lexemes_rendered]
  cases lexemes rest with
  | error cause => rfl
  | ok found => simp [Except.map, Lexeme.block]

/-- The rendered text has the lexemes of the rendered schema. -/
theorem lexemes_renderedText {messages : List Message}
    (hnames : ∀ message ∈ messages, IsName message.name)
    (hfields : ∀ message ∈ messages, ∀ field ∈ message.fields, field.IsPlain) :
    lexemes (Message.renderedText messages) = .ok (Schema.ofRendered messages).lexemes := by
  have htext : Message.renderedText messages = Keyword.dialect.spelling ++ (CodePoint.ofChar ' ' ::
      CodePoint.ofChar Punctuation.equals.char :: CodePoint.ofChar ' ' ::
        (Text.literal (Text.ofString "proto3") ++
          (CodePoint.ofChar Punctuation.semicolon.char :: CodePoint.ofChar '\n' ::
            (messages.flatMap Message.block ++ [])))) := by
    rw [List.append_nil]
    rfl
  have hblocks := lexemes_flatMap (fun message hmem =>
    lexemes_block (hnames message hmem) (hfields message hmem)) []
  rw [htext, lexemes_keyword .dialect rfl, lexemes_blank (.inl rfl), lexemes_mark,
    lexemes_blank (.inl rfl), lexemes_literal, lexemes_mark, lexemes_blank (.inr rfl), hblocks]
  simp [Except.map, lexemes_nil, Schema.lexemes, Schema.ofRendered, Schema.dialectLexemes, runs,
    List.flatMap_map, Declaration.lexemes]

end Lexer

/-! ### The parsed file -/

namespace File

/-- The file that rendered messages are parsed as: these messages in the third dialect, and nothing
else. -/
def ofRendered (messages : List Message) (path : Text) : File :=
  { path
    dialect := Text.ofString "proto3"
    package := none
    imports := []
    options := []
    extensions := []
    root := { name := [], members := messages.map fun message => .message message.rendered } }

/-- The schema of rendered messages makes their file. -/
theorem schema_ofRendered (messages : List Message) (path : Text) :
    (Schema.ofRendered messages).file path = ofRendered messages path := by
  cases messages <;> rfl

/-- The entries of a rendered file are its messages. -/
theorem entries_ofRendered (messages : List Message) (path : Text) (names : List Text) :
    (ofRendered messages path).entries names =
      messages.map fun message => ⟨path, names, message.rendered⟩ := by
  show Declaration.entriesOfList path names _ = _
  unfold ofRendered
  induction messages with
  | nil => rfl
  | cons message messages ih =>
      rw [List.map_cons, Declaration.entriesOfList, ih]
      rfl

/-- A rendered file declares no mixins. -/
theorem expand_entries_ofRendered (messages : List Message) (path : Text) (names : List Text) :
    expand ((ofRendered messages path).entries names) = .ok [] := by
  refine expandWith_of_not_isHost fun entry hmem => ?_
  rw [entries_ofRendered] at hmem
  obtain ⟨message, -, rfl⟩ := List.mem_map.mp hmem
  exact Bool.false_ne_true

/-- Messages whose names are names and whose fields have field types are rendered as a text that is
parsed as their file. -/
theorem parse_renderedText {messages : List Message}
    (hnames : ∀ message ∈ messages, IsName message.name)
    (hfields : ∀ message ∈ messages, ∀ field ∈ message.fields, field.IsPlain) (path : Text) :
    File.parse (Message.renderedText messages) path = .ok (ofRendered messages path) := by
  have hprintable : (Schema.ofRendered messages).Printable :=
    { package := fun name hmem => absurd hmem (Option.not_mem_none name)
      options := fun _ hmem => absurd hmem List.not_mem_nil
      extensions := fun _ hmem => absurd hmem List.not_mem_nil
      declarations := List.forall_mem_map.mpr fun message hmem =>
        Message.printable_rendered (hnames message hmem) (hfields message hmem) }
  rw [Schema.parse_of_lexemes hprintable (Lexer.lexemes_renderedText hnames hfields) path,
    schema_ofRendered]

/-- Messages whose names are names and whose fields have field types and numbers that can be written
are rendered, and the text is parsed as a file of the third dialect that declares one message for
each of them, in order, with the same fields, and nothing else. Expanding this file gives nothing.
-/
theorem parse_renderAll (messages : List Message)
    (hnames : ∀ message ∈ messages, IsName message.name)
    (hfields : ∀ message ∈ messages, ∀ field ∈ message.fields, field.IsPlain) (path : Text) :
    ∃ text, Message.renderAll? messages = some text ∧
      File.parse text path = .ok (ofRendered messages path) ∧
      ∀ names, expand ((ofRendered messages path).entries names) = .ok [] :=
  ⟨Message.renderedText messages,
    Message.renderAll?_of_isShort fun message hmem field hfield =>
      (hfields message hmem field hfield).number,
    parse_renderedText hnames hfields path, expand_entries_ofRendered messages path⟩

/-- A message whose fields have a negative number, a map type and a special value as their types.
One of them repeats without a label, and another does not repeat under the label for it. -/
def signedMessage : Message :=
  { name := "message"
    fields :=
      [{ name := "repeated", number := -7, type := "-inf", label := some .repeated },
        { name := "map", number := 0, type := "map<a.b, .c>", isRepeated := true,
          oneof := some "o" }] }

/-- An empty message and one with keywords as names are read back. -/
theorem parse_renderAll_signedMessage :
    ((∀ message ∈ [{ name := "A" }, signedMessage], IsName message.name) ∧
      ∀ message ∈ [{ name := "A" }, signedMessage], ∀ field ∈ message.fields, field.IsPlain) ∧
    ∃ text, Message.renderAll? [{ name := "A" }, signedMessage] = some text ∧
      File.parse text [] = .ok (ofRendered [{ name := "A" }, signedMessage] []) ∧
      ∀ names, expand ((ofRendered [{ name := "A" }, signedMessage] []).entries names) =
        .ok [] := by
  have hnames : ∀ message ∈ [({ name := "A" } : Message), signedMessage], IsName message.name := by
    intro message hmem
    rcases List.mem_pair.mp hmem with rfl | rfl
    · exact ⟨.identifier "A", rfl, rfl, rfl⟩
    · exact ⟨.keyword .message, rfl, rfl, rfl⟩
  have hfields : ∀ message ∈ [({ name := "A" } : Message), signedMessage],
      ∀ field ∈ message.fields, field.IsPlain := by
    intro message hmem field hfield
    rcases List.mem_pair.mp hmem with rfl | rfl
    · exact absurd hfield List.not_mem_nil
    · rcases List.mem_pair.mp hfield with rfl | rfl
      · exact ⟨⟨⟨.keyword .repeated, rfl, rfl, rfl⟩, .inl ⟨rfl, by decide⟩⟩, by decide⟩
      · exact ⟨⟨⟨.keyword .map, rfl, rfl, rfl⟩, .inr ⟨"a.b", ".c", rfl, rfl, rfl⟩⟩, by decide⟩
  exact ⟨⟨hnames, hfields⟩, parse_renderAll _ hnames hfields []⟩

end File

end ProtoSchema
