import ProtoSchema.Proofs.Parser.Message

/-!
# Reading message bodies

The body of every message that can be written is read back, however deep messages are nested in it
(`Reads.messageBodyTo`). The depth to which bodies may nest is bounded by the lexemes of the body,
because every nested body stands between lexemes of its own.
-/

namespace ProtoSchema

open Lexer (IsName)

/-- The fields of a group of neighbours, with the key of the group as their oneof. -/
theorem Field.map_of_mem_runs {fields : List Field} {run : Option Text × List Field}
    (hrun : run ∈ runs Field.oneof fields) (h : ∀ field ∈ fields, field.extendee = none) :
    run.2.map (fun field => { field with oneof := run.1, extendee := none }) = run.2 := by
  refine (List.map_congr_left fun field hmem => ?_).trans (List.map_id _)
  obtain ⟨hfield, hkey⟩ := key_of_mem_runs hrun field hmem
  rw [← hkey, ← h field hfield]
  rfl

/-- One statement for each field contributes the fields. -/
theorem Members.concat_map_fields {α : Type} (field : α → Field) (source : List α) :
    Members.concat (source.map fun element => { fields := [field element] }) =
      { fields := source.map field } := by
  induction source with
  | nil => rfl
  | cons first rest ih =>
      show ({ fields := [field first] } : Members) ++ Members.concat _ = _
      rw [ih]
      rfl

/-- A message is declared with its members. -/
theorem Message.declared_members (message : Message) :
    message.members.declared message.name = { messages := [message] } := by
  cases message
  rfl

/-- The body of a nested message is shorter than that of the message. -/
theorem Message.length_bodyLexemes_lt {message nested : Message} (h : nested ∈ message.messages) :
    nested.bodyLexemes.length < message.bodyLexemes.length := by
  obtain ⟨name, fields, messages, enums, options⟩ := message
  have hnested : nested.lexemes.length ≤ (messages.flatMap Message.lexemes).length :=
    List.Sublist.length_le (List.sublist_flatten_of_mem (List.mem_map_of_mem h))
  have hblock : nested.lexemes.length = nested.bodyLexemes.length + 4 := by
    simp [Message.lexemes, Lexeme.block]
  rw [Message.bodyLexemes, Message.listLexemes_eq]
  simp only [List.length_append]
  omega

namespace Parse

variable {following : List Lexeme} {body : Parse Members}

namespace Reads

/-! ### Statements of a body -/

/-- An option is read back as a statement of a body. -/
theorem bodyStatement_option {setting : OptionSetting} (h : setting.Printable)
    (following : List Lexeme) :
    Reads (bodyStatement body) setting.statement { options := [setting] } following :=
  Reads.peekKind (Reads.wrap (optionStatement h following) fun setting =>
    ({ options := [setting] } : Members))

/-- An enumeration is read back as a statement of a body. -/
theorem bodyStatement_enum {enum : EnumType} (h : enum.Printable) (following : List Lexeme) :
    Reads (bodyStatement body) enum.lexemes { enums := [enum] } following :=
  Reads.peekKind (Reads.wrap (enumType h following) fun enum => ({ enums := [enum] } : Members))

/-- A field is read back as a statement of a body, outside of every oneof. -/
theorem bodyStatement_field {field : Field} (h : field.Printable) (following : List Lexeme) :
    Reads (bodyStatement body) field.lexemes
      { fields := [{ field with oneof := none, extendee := none }] } following :=
  fieldBy (fun _ tokens hstarts => hstarts.bodyStatement tokens) (startsWithField_of_printable h)
    (Reads.field h none following)

/-- A oneof block is read back. -/
theorem oneof {name : Text} {fields : List Field} (h : ∀ field ∈ fields, field.Printable)
    (hfields : fields.map (fun field => { field with oneof := some name, extendee := none }) =
      fields) (following : List Lexeme) :
    Reads (Parse.oneof body) (Field.oneofLexemes (some name, fields)) { fields } following := by
  have hentries : ReadsEach (Parse.oneofEntry body name) (fields.flatMap Field.lexemes)
      (fields.map fun field =>
        { fields := [{ field with oneof := some name, extendee := none }] }) :=
    ReadsEach.map fun field hmem =>
      ⟨(startsWithField_of_printable (h field hmem)).startsItem, oneofEntry (h field hmem) name⟩
  refine Reads.cons (Reads.keyword .oneof _) ?_
  refine Reads.cons (Reads.name name _) ?_
  refine Reads.finish (hentries.braced following) ?_
  rw [Members.concat_map_fields, hfields]

/-- A message is read back, if its body is. -/
theorem message {message : Message}
    (hbody : ∀ following, Reads body message.bodyLexemes message.members
      (.punctuation .rightBrace :: following)) (following : List Lexeme) :
    Reads (Parse.message body) message.lexemes { messages := [message] } following := by
  refine Reads.cons (Reads.keyword .message _) ?_
  refine Reads.cons (Reads.name message.name _) ?_
  refine Reads.cons (Reads.mark .leftBrace _) ?_
  refine Reads.bind (hbody following) ?_
  rw [← Message.declared_members]
  exact Reads.cons (Reads.mark .rightBrace _) (Reads.pure _ _)

/-! ### Bodies -/

/-- Neighbouring fields of a message are read back as statements of its body. -/
theorem each_run {fields : List Field}
    (h : ∀ field ∈ fields, field.Printable ∧ field.extendee = none)
    {run : Option Text × List Field} (hrun : run ∈ runs Field.oneof fields) :
    ReadsEach (bodyStatement body) (Field.oneofLexemes run) (Field.runMembers run) := by
  have hprintable : ∀ field ∈ run.2, field.Printable :=
    fun field hmem => (h field (key_of_mem_runs hrun field hmem).1).1
  have hfields := Field.map_of_mem_runs hrun fun field hmem => (h field hmem).2
  obtain ⟨oneofName, fields⟩ := run
  cases oneofName with
  | none =>
      have hread : ReadsEach (bodyStatement body) (fields.flatMap Field.lexemes)
          (fields.map fun field =>
            { fields := [{ field with oneof := none, extendee := none }] }) :=
        ReadsEach.map fun field hmem =>
          ⟨(startsWithField_of_printable (hprintable field hmem)).startsItem,
            bodyStatement_field (hprintable field hmem)⟩
      -- Fields outside of a oneof are read as they are, since they have no oneof to lose.
      have hvalues : fields.map (fun field =>
          ({ fields := [{ field with oneof := none, extendee := none }] } : Members)) =
            Field.runMembers (none, fields) := by
        refine Eq.trans ?_
          (congrArg (List.map fun field => ({ fields := [field] } : Members)) hfields)
        rw [List.map_map]
        rfl
      rw [hvalues] at hread
      exact hread
  | some name =>
      exact ReadsEach.single Lexeme.noConfusion fun following =>
        Reads.peekKind (oneof hprintable hfields following)

/-- The body of a message is read back where bodies may nest as deep as it has lexemes. -/
theorem messageBodyTo {message : Message} (h : message.Printable) {depth : Nat}
    (hdepth : message.bodyLexemes.length < depth) (following : List Lexeme) :
    Reads (Parse.messageBodyTo depth) message.bodyLexemes message.members
      (.punctuation .rightBrace :: following) := by
  induction h generalizing depth following with
  | @mk name fields messages enums options hname hfields hmessages henums hoptions ih =>
      cases depth with
      | zero => exact absurd hdepth (Nat.not_lt_zero _)
      | succ depth =>
          have hparts : ReadsEach (bodyStatement (Parse.messageBodyTo depth))
              (Message.bodyLexemes ⟨name, fields, messages, enums, options⟩)
              (Message.parts ⟨name, fields, messages, enums, options⟩) := by
            rw [Message.bodyLexemes, Message.listLexemes_eq]
            refine ReadsEach.append ?_ (ReadsEach.append ?_ (ReadsEach.append ?_ ?_))
            · exact ReadsEach.map fun setting hmem =>
                ⟨Lexeme.noConfusion, bodyStatement_option (hoptions setting hmem)⟩
            · exact ReadsEach.flatMap fun run hrun =>
                each_run (fun field hmem => ⟨(hfields field hmem).1, (hfields field hmem).2.1⟩) hrun
            · -- A nested body lacks at least its own braces, so the depth suffices for it too.
              refine ReadsEach.map fun nested hmem => ⟨Lexeme.noConfusion, fun following => ?_⟩
              have hlength : nested.bodyLexemes.length <
                  (Message.bodyLexemes ⟨name, fields, messages, enums, options⟩).length :=
                Message.length_bodyLexemes_lt hmem
              have hnested : nested.bodyLexemes.length < depth := by omega
              exact Reads.peekKind (Reads.message (ih nested hmem hnested) following)
            · exact ReadsEach.map fun enum hmem =>
                ⟨Lexeme.noConfusion, bodyStatement_enum (henums enum hmem)⟩
          refine Reads.input fun tokens htokens => ?_
          have hfuel : (Message.parts ⟨name, fields, messages, enums, options⟩).length ≤
              tokens.length := Nat.le_trans hparts.length_le (length_le_of_input htokens)
          exact Reads.finish (hparts.untilBrace hfuel following) (Message.concat_parts _)

/-- The body of a message is read back. -/
theorem messageBody {message : Message} (h : message.Printable) (following : List Lexeme) :
    Reads Parse.messageBody message.bodyLexemes message.members
      (.punctuation .rightBrace :: following) := by
  refine Reads.input fun tokens htokens => messageBodyTo h ?_ following
  exact Nat.lt_succ_of_le (length_le_of_input htokens)

/-- An extend block is read back. -/
theorem extension {run : Option Text × List Field} {extendee : Text}
    (hextendee : run.1 = some extendee) (h : ∀ field ∈ run.2, field.Printable)
    (hfields : ∀ field ∈ run.2, field.extendee = some extendee ∧ field.oneof = none)
    (following : List Lexeme) :
    Reads (Parse.extension body) (Field.extendLexemes run) { extensions := run.2 } following := by
  have hentries : ReadsEach (Parse.orSemicolon (Parse.field body none))
      (run.2.flatMap Field.lexemes)
      (run.2.map fun field => { fields := [{ field with oneof := none, extendee := none }] }) :=
    ReadsEach.map fun field hmem =>
      ⟨(startsWithField_of_printable (h field hmem)).startsItem,
        fieldOrSemicolon (h field hmem) none⟩
  have hextensions : run.2.map (fun field =>
      { field with oneof := none, extendee := some extendee }) = run.2 := by
    refine (List.map_congr_left fun field hmem => ?_).trans (List.map_id _)
    obtain ⟨hfield, honeof⟩ := hfields field hmem
    rw [← hfield, ← honeof]
    rfl
  rw [Field.extendLexemes, hextendee]
  refine Reads.cons (Reads.keyword .extend _) ?_
  refine Reads.cons (Reads.expect rfl _) ?_
  refine Reads.finish (hentries.braced following) ?_
  rw [Members.concat_map_fields, Members.extending, List.map_map]
  exact congrArg (fun fields => ({ extensions := fields } : Members)) hextensions

end Reads

end Parse

end ProtoSchema
