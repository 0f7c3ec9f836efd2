import ProtoSchema.Parser.File
import ProtoSchema.Proofs.Parser.Body
import ProtoSchema.Proofs.Parser.Service
import ProtoSchema.Proofs.Schema.Namespace

/-!
# Reading schemas

Printing and parsing are inverse: `Schema.parse_written` says that the text of a printable schema is
parsed as exactly this schema. Only the lexemes of the text matter for that
(`Schema.parse_of_lexemes`), so the same holds for any other layout.
-/

namespace ProtoSchema

namespace Schema

/-- What each block of the schema declares: an extend block its fields, and a declaration itself. -/
def parts (schema : Schema) : List (List Declaration × List Field) :=
  (runs Field.extendee schema.extensions).map (fun run => ([], run.2)) ++
    schema.declarations.map fun declaration => ([declaration], [])

/-- The statements of the schema. -/
def statements (schema : Schema) : List Statement :=
  .dialect schema.dialect :: (schema.package.toList.map .package ++
    (schema.imports.map .imported ++ (schema.options.map .option ++
      schema.parts.map fun part => .declare part.1 part.2)))

end Schema

/-! ### Statements -/

namespace Parse

/-- Statements are read up to the end of the input. -/
theorem ReadsEach.statementsWithin {written : List Lexeme} {values : List (Option Statement)}
    (h : ReadsEach statement written values) {fuel : Nat} (hfuel : values.length ≤ fuel) :
    Reads (Parse.statementsWithin statement fuel) written (values.flatMap Option.toList) [] := by
  induction h generalizing fuel with
  | nil =>
      cases fuel with
      | zero => exact Reads.pure [] _
      | succ fuel =>
          refine Reads.input fun tokens htokens => ?_
          obtain rfl := List.map_eq_nil_iff.mp htokens
          exact Reads.pure [] _
  | @cons first rest value values hstarts hfirst _ ih =>
      cases fuel with
      | zero => exact absurd hfuel (by simp)
      | succ fuel =>
          refine Reads.input fun tokens htokens => ?_
          -- Every statement has a lexeme, so the input is not at its end.
          have hinput : tokens.isEmpty = false := by
            cases tokens with
            | nil =>
                cases first with
                | nil => exact hstarts.elim
                | cons lexeme first => exact absurd htokens.symm (List.cons_ne_nil _ _)
            | cons token tokens => rfl
          rw [hinput, if_neg Bool.false_ne_true]
          refine Reads.bind (hfirst _) ?_
          exact Reads.wrap (ih (Nat.le_of_succ_le_succ hfuel)) (value.toList ++ ·)

/-- All statements of a file are read. -/
theorem ReadsEach.statements {written : List Lexeme} {values : List (Option Statement)}
    (h : ReadsEach statement written values) :
    Reads Parse.statements written (values.flatMap Option.toList) [] := by
  refine Reads.input fun tokens htokens => h.statementsWithin ?_
  exact Nat.le_trans h.length_le (Reads.length_le_of_input htokens)

namespace Reads

/-- The dialect statement is read back. -/
theorem statement_dialect (dialect : Text) (following : List Lexeme) :
    Reads Parse.statement (Schema.dialectLexemes dialect) (some (.dialect dialect)) following := by
  have h : Reads dialectStatement (Schema.dialectLexemes dialect) (Statement.dialect dialect)
      following := by
    refine Reads.cons (Reads.keyword .dialect _) ?_
    refine Reads.cons (Reads.mark .equals _) ?_
    refine Reads.cons (Reads.expect rfl _) ?_
    exact Reads.cons (Reads.mark .semicolon _) (Reads.pure (Statement.dialect dialect) _)
  exact Reads.peekKind (Reads.wrap h some)

/-- The package statement is read back. -/
theorem statement_package (name : Text) (following : List Lexeme) :
    Reads Parse.statement (Schema.packageLexemes name) (some (.package name)) following := by
  have h : Reads packageStatement (Schema.packageLexemes name) (Statement.package name)
      following := by
    refine Reads.cons (Reads.keyword .package _) ?_
    refine Reads.cons (Reads.expect rfl _) ?_
    exact Reads.cons (Reads.mark .semicolon _) (Reads.pure (Statement.package name) _)
  exact Reads.peekKind (Reads.wrap h some)

/-- An import statement is read back. -/
theorem statement_import (path : Text) (following : List Lexeme) :
    Reads Parse.statement (Schema.importLexemes path) (some (.imported path)) following := by
  have h : Reads importStatement (Schema.importLexemes path) (Statement.imported path)
      following := by
    refine Reads.cons (Reads.keyword .imports _) ?_
    refine Reads.nothing (Reads.peek (Reads.pure () _)) ?_
    refine Reads.cons (Reads.expect rfl _) ?_
    exact Reads.cons (Reads.mark .semicolon _) (Reads.pure (Statement.imported path) _)
  exact Reads.peekKind (Reads.wrap h some)

/-- An option statement is read back. -/
theorem statement_option {setting : OptionSetting} (h : setting.Printable)
    (following : List Lexeme) :
    Reads Parse.statement setting.statement (some (.option setting)) following :=
  Reads.peekKind (Reads.wrap (optionStatement h following) fun setting =>
    some (Statement.option setting))

/-- A declaration is read back. -/
theorem statement_declaration {declaration : Declaration} (h : declaration.Printable)
    (following : List Lexeme) :
    Reads Parse.statement declaration.lexemes (some (.declare [declaration] [])) following := by
  cases declaration with
  | message declared =>
      have hdeclared : declared.Printable := h
      have hmessage := Reads.message (messageBody hdeclared) following
      exact Reads.peekKind (Reads.wrap hmessage fun members => some (declaring members))
  | enum declared =>
      exact Reads.peekKind (Reads.wrap (enumType h following) fun enum =>
        some (Statement.declare [.enum enum] []))
  | service declared =>
      exact Reads.peekKind (Reads.wrap (service h following) fun service =>
        some (Statement.declare [.service service] []))
  | scope name members => exact h.elim

/-- An extend block is read back. -/
theorem statement_extend {fields : List Field}
    (h : ∀ field ∈ fields, field.Printable ∧ field.oneof = none ∧
      ∃ extendee, field.extendee = some extendee ∧ Lexer.IsIdentifier extendee)
    {run : Option Text × List Field} (hrun : run ∈ runs Field.extendee fields)
    (following : List Lexeme) :
    Reads Parse.statement (Field.extendLexemes run) (some (.declare [] run.2)) following := by
  have hkey := key_of_mem_runs hrun
  obtain ⟨field, hmem⟩ := exists_mem_of_mem_runs hrun
  obtain ⟨-, -, extendee, hextendee, -⟩ := h field (hkey field hmem).1
  have hrunkey : run.1 = some extendee := (hkey field hmem).2.symm.trans hextendee
  have hblock : Reads (Parse.extension Parse.messageBody) (Field.extendLexemes run)
      { extensions := run.2 } following := by
    refine extension hrunkey (fun field hmem => (h field (hkey field hmem).1).1) ?_ following
    exact fun field hmem =>
      ⟨(hkey field hmem).2.trans hrunkey, (h field (hkey field hmem).1).2.1⟩
  exact Reads.peekKind (Reads.wrap hblock fun members => some (declaring members))

/-- The statements of a schema are read back. -/
theorem statements {schema : Schema} (h : schema.Printable) :
    Reads Parse.statements schema.lexemes schema.statements [] := by
  have hdialect : ReadsEach Parse.statement (Schema.dialectLexemes schema.dialect)
      [some (Statement.dialect schema.dialect)] :=
    ReadsEach.single Lexeme.noConfusion (statement_dialect schema.dialect)
  have hpackage : ReadsEach Parse.statement (schema.package.toList.flatMap Schema.packageLexemes)
      (schema.package.toList.map fun name => some (Statement.package name)) :=
    ReadsEach.map fun name _ => ⟨Lexeme.noConfusion, statement_package name⟩
  have himports : ReadsEach Parse.statement (schema.imports.flatMap Schema.importLexemes)
      (schema.imports.map fun path => some (Statement.imported path)) :=
    ReadsEach.map fun path _ => ⟨Lexeme.noConfusion, statement_import path⟩
  have hoptions : ReadsEach Parse.statement (schema.options.flatMap OptionSetting.statement)
      (schema.options.map fun setting => some (Statement.option setting)) :=
    ReadsEach.map fun setting hmem =>
      ⟨Lexeme.noConfusion, statement_option (h.options setting hmem)⟩
  have hextensions : ReadsEach Parse.statement
      ((runs Field.extendee schema.extensions).flatMap Field.extendLexemes)
      ((runs Field.extendee schema.extensions).map fun run => some (Statement.declare [] run.2)) :=
    ReadsEach.map fun run hrun => ⟨Lexeme.noConfusion, statement_extend h.extensions hrun⟩
  have hdeclarations : ReadsEach Parse.statement (schema.declarations.flatMap Declaration.lexemes)
      (schema.declarations.map fun declaration => some (Statement.declare [declaration] [])) := by
    refine ReadsEach.map fun declaration hmem => ⟨?_, statement_declaration (h.declarations _ hmem)⟩
    have hprintable := h.declarations declaration hmem
    cases declaration with
    | scope name members => exact hprintable.elim
    | _ => exact Lexeme.noConfusion
  have hread := ReadsEach.statements (hdialect.append (hpackage.append (himports.append
    (hoptions.append (hextensions.append hdeclarations)))))
  refine (congrArg (Reads Parse.statements schema.lexemes · []) ?_).mp hread
  simp [Schema.statements, Schema.parts, List.flatMap_append, List.flatMap_map,
    ← List.map_eq_flatMap, Function.comp_def]

end Reads

end Parse

/-! ### Files -/

namespace Schema

/-- An element of a list makes a group. -/
theorem runs_eq_nil_iff {α κ : Type} [DecidableEq κ] {key : α → κ} {elements : List α} :
    runs key elements = [] ↔ elements = [] := by
  constructor
  · intro h
    rw [← flatMap_snd_runs key elements, h]
    rfl
  · rintro rfl
    rfl

/-- The namespaces of the package of a printable schema are the parts of its name. -/
theorem packagePath_of_printable {schema : Schema} (h : schema.Printable) {file : File}
    (hpackage : file.package = schema.package) :
    file.packagePath = (schema.package.map (Text.split '.')).getD [] := by
  rw [File.packagePath, hpackage]
  cases hname : schema.package with
  | none => rfl
  | some name =>
      have hword := (Lexer.isIdentifier_iff.mp (h.package name hname)).1
      cases name with
      | nil => exact hword.elim
      | cons c name => rfl

/-- The effect of the package statement, if there is one. -/
theorem foldl_apply_package (package : Option Text) {file : File} (h : file.package = none) :
    (package.toList.map Statement.package).foldl File.apply file =
      { file with package := package } := by
  cases package with
  | none =>
      show file = _
      rw [← h]
  | some name => rfl

/-- The blocks of a schema declare its declarations. -/
theorem flatMap_parts_declarations (schema : Schema) :
    schema.parts.flatMap Prod.fst = schema.declarations := by
  simp [parts, List.flatMap_append, List.flatMap_map]

/-- The blocks of a schema declare its extensions. -/
theorem flatMap_parts_extensions (schema : Schema) :
    schema.parts.flatMap Prod.snd = schema.extensions := by
  have hruns := flatMap_snd_runs Field.extendee schema.extensions
  simpa [parts, List.flatMap_append, List.flatMap_map] using hruns

/-- A schema without blocks declares nothing. -/
theorem parts_eq_nil_iff {schema : Schema} :
    schema.parts = [] ↔ schema.extensions = [] ∧ schema.declarations.isEmpty := by
  rw [parts, List.append_eq_nil_iff, List.map_eq_nil_iff, List.map_eq_nil_iff, runs_eq_nil_iff,
    List.isEmpty_iff]

/-- The statements of a schema make its file. -/
theorem ofStatements_statements {schema : Schema} (h : schema.Printable) (path : Text) :
    File.ofStatements path schema.statements = schema.file path := by
  rw [File.ofStatements, statements, List.foldl_cons, List.foldl_append,
    foldl_apply_package schema.package rfl, List.foldl_append, File.foldl_apply_imported,
    List.foldl_append, File.foldl_apply_option]
  cases hparts : schema.parts with
  | nil =>
      obtain ⟨hextensions, hdeclarations⟩ := parts_eq_nil_iff.mp hparts
      rw [file, root, if_pos ⟨hextensions, hdeclarations⟩, hextensions]
      rfl
  | cons first rest =>
      have hsome : ¬ (schema.extensions = [] ∧ schema.declarations.isEmpty) := by
        rw [← parts_eq_nil_iff, hparts]
        exact List.cons_ne_nil first rest
      have hpath : (schema.file path).packagePath = _ := packagePath_of_printable h rfl
      rw [File.foldl_apply_declare, ← hparts, flatMap_parts_declarations, flatMap_parts_extensions,
        file, root, if_neg hsome, ← hpath]
      rfl

/-- Every text with the lexemes of a printable schema is parsed as the schema. -/
theorem parse_of_lexemes {schema : Schema} (h : schema.Printable) {text : Text}
    (htext : Lexer.lexemes text = .ok schema.lexemes) (path : Text) :
    File.parse text path = .ok (schema.file path) := by
  obtain ⟨scanned, hscan, htokens⟩ := Lexer.scan_of_lexemes htext
  rw [← List.append_nil schema.lexemes] at htokens
  obtain ⟨rest, -, hparse⟩ := Parse.Reads.statements h scanned.tokens htokens
  have hstatements : Statement.ofTokens scanned.tokens = .ok schema.statements := by
    rw [Statement.ofTokens]
    show (Parse.statements scanned.tokens).map Prod.fst = _
    rw [hparse]
    rfl
  rw [File.parse, hscan]
  dsimp only
  rw [hstatements, ← ofStatements_statements h]

/-- A printable schema that is written as text is parsed as exactly this schema. -/
theorem parse_written (schema : Schema) (h : schema.Printable) (path : Text) :
    File.parse schema.written path = .ok (schema.file path) :=
  parse_of_lexemes h (lexemes_written h) path

/-- A message whose names are keywords, with a map and a oneof. -/
def keywordMessage : Message :=
  { name := "message"
    fields :=
      [{ name := "option", number := 1, type := "map<K, V>" },
        { name := "stream", number := -2, type := "T", oneof := some "oneof" }]
    messages := [{ name := "enum" }]
    options := [⟨"(x).y", .text "a \\ \"b\""⟩] }

/-- A schema of one message whose names are keywords. -/
def keywordSchema : Schema :=
  { dialect := "proto3"
    package := some "p.q"
    imports := ["r"]
    options := [⟨"map", .bool true⟩]
    extensions := []
    declarations := [.message keywordMessage] }

/-- Keywords are names. -/
theorem printable_keywordMessage : keywordMessage.Printable := by
  refine .mk ⟨_, rfl, rfl, rfl⟩ ?_ ?_ (fun _ h => absurd h List.not_mem_nil) ?_
  · intro field h
    rcases List.mem_pair.mp h with rfl | rfl
    · refine ⟨⟨⟨⟨⟨_, rfl, rfl, rfl⟩, .inr ⟨"K", "V", rfl, rfl, rfl⟩⟩, by decide⟩, by decide, ?_⟩,
        rfl, ?_⟩
      · exact fun _ h => absurd h List.not_mem_nil
      · exact fun oneof h => absurd h (Option.not_mem_none oneof)
    · refine ⟨⟨⟨⟨⟨_, rfl, rfl, rfl⟩, .inl ⟨rfl, by decide⟩⟩, by decide⟩, by decide, ?_⟩, rfl, ?_⟩
      · exact fun _ h => absurd h List.not_mem_nil
      · exact fun _ h => Option.some.inj h ▸ ⟨.keyword .oneof, rfl, rfl, rfl⟩
  · intro message h
    obtain rfl := List.mem_singleton.mp h
    refine .mk ⟨_, rfl, rfl, rfl⟩ ?_ ?_ ?_ ?_ <;> exact fun _ h => absurd h List.not_mem_nil
  · intro setting h
    obtain rfl := List.mem_singleton.mp h
    exact ⟨.inr ⟨"x", ".y", rfl, .inr ⟨rfl, rfl⟩, rfl⟩, trivial⟩

/-- The schema of a message whose names are keywords can be written. -/
theorem printable_keywordSchema : keywordSchema.Printable where
  package _ h := Option.some.inj h ▸ rfl
  options setting h := by
    obtain rfl := List.mem_singleton.mp h
    exact ⟨.inl ⟨.keyword .map, rfl, rfl, rfl⟩, trivial⟩
  extensions _ h := absurd h List.not_mem_nil
  declarations declaration h := by
    obtain rfl := List.mem_singleton.mp h
    exact printable_keywordMessage

/-- Keywords that are used as names are read back from the text. -/
theorem parse_written_keywordSchema :
    keywordSchema.written =
        Text.ofString "syntax = \"proto3\";\npackage p.q;\nimport \"r\";\noption map = true;\n" ++
          Text.ofString "message message \x7b\noption (x).y = \"a \\\\ \\\"b\\\"\";\n" ++
          Text.ofString "map<K, V> option = 1;\noneof oneof \x7b\nT stream = -2;\n\x7d\n" ++
          Text.ofString "message enum \x7b\n\x7d\n\x7d\n" ∧
      File.parse keywordSchema.written "s" = .ok (keywordSchema.file "s") :=
  ⟨by decide +kernel, parse_written keywordSchema printable_keywordSchema "s"⟩

end Schema

end ProtoSchema
