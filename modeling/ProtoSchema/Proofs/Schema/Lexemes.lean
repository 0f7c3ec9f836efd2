import ProtoSchema.Proofs.Schema.Written

/-!
# The lexemes of a schema

What the names, the types and the options of a schema are scanned as, and that every lexeme of a
printable schema is scanned as it is written. So the text of a printable schema has exactly the
lexemes of the schema (`Schema.lexemes_written`).
-/

namespace ProtoSchema

open Lexer (IsName IsIdentifier IsWord endsWord)

/-! ### Names, types and options -/

/-- The lexemes of a text that is scanned without an error. -/
theorem Text.lexemes_of_eq_ok {text : Text} {found : List Lexeme}
    (h : Lexer.lexemes text = .ok found) : text.lexemes = found := by
  rw [Text.lexemes, h]
  rfl

/-- A name is one lexeme. -/
theorem Text.lexemes_of_isName {text : Text} (h : IsName text) : text.lexemes = [.ofWord text] := by
  obtain ⟨lexeme, hlexeme⟩ := h
  obtain ⟨-, rfl⟩ := Lexer.lexemes_eq_word_iff.mp hlexeme
  exact Text.lexemes_of_eq_ok hlexeme.2.2

/-- An identifier is one lexeme. -/
theorem Text.lexemes_of_isIdentifier {text : Text} (h : IsIdentifier text) :
    text.lexemes = [.identifier text] :=
  Text.lexemes_of_eq_ok h

/-- An identifier is scanned as itself in front of a text that does not go on with it. -/
theorem Lexer.lexemes_identifier {name rest : Text} (h : IsIdentifier name)
    (hrest : endsWord rest) :
    Lexer.lexemes (name ++ rest) = (Lexer.lexemes rest).map (.identifier name :: ·) := by
  obtain ⟨hword, hname⟩ := Lexer.isIdentifier_iff.mp h
  rw [Lexer.lexemes_word hword hrest, hname]

/-- A map type is scanned as its parts in front of any text. -/
theorem Lexer.lexemes_mapTypeText {key value : Text} (hkey : IsIdentifier key)
    (hvalue : IsIdentifier value) (rest : Text) :
    Lexer.lexemes (mapTypeText key value ++ rest) = (Lexer.lexemes rest).map
      ([.keyword .map, .punctuation .leftAngle, .identifier key, .punctuation .comma,
        .identifier value, .punctuation .rightAngle] ++ ·) := by
  have htext : mapTypeText key value ++ rest =
      Keyword.map.spelling ++ (CodePoint.ofChar Punctuation.leftAngle.char :: (key ++
        (CodePoint.ofChar Punctuation.comma.char :: CodePoint.ofChar ' ' :: (value ++
          (CodePoint.ofChar Punctuation.rightAngle.char :: rest))))) := by
    simp only [mapTypeText, List.append_assoc]
    rfl
  rw [htext, Lexer.lexemes_keyword .map rfl, Lexer.lexemes_mark, Lexer.lexemes_identifier hkey rfl,
    Lexer.lexemes_mark, Lexer.lexemes_blank (.inl rfl), Lexer.lexemes_identifier hvalue rfl,
    Lexer.lexemes_mark]
  cases Lexer.lexemes rest <;> rfl

/-- A map type is six lexemes. -/
theorem Text.lexemes_mapTypeText {key value : Text} (hkey : IsIdentifier key)
    (hvalue : IsIdentifier value) :
    (mapTypeText key value).lexemes =
      [.keyword .map, .punctuation .leftAngle, .identifier key, .punctuation .comma,
        .identifier value, .punctuation .rightAngle] := by
  have h := Lexer.lexemes_mapTypeText hkey hvalue []
  rw [List.append_nil] at h
  exact Text.lexemes_of_eq_ok h

/-- The type of a field is scanned as its lexemes in front of a text that does not go on with it. -/
theorem IsFieldType.lexemes_append {type rest : Text} (h : IsFieldType type)
    (hrest : endsWord rest) :
    Lexer.lexemes (type ++ rest) = (Lexer.lexemes rest).map (type.lexemes ++ ·) := by
  rcases h with ⟨htype, -⟩ | ⟨key, value, hkey, hvalue, rfl⟩
  · rw [Lexer.lexemes_identifier htype hrest, Text.lexemes_of_isIdentifier htype]
    rfl
  · rw [Lexer.lexemes_mapTypeText hkey hvalue, Text.lexemes_mapTypeText hkey hvalue]

/-- The name of an extension is three lexemes and those of the further part. -/
theorem Text.lexemes_extensionName {extension subname : Text} (hextension : IsIdentifier extension)
    {found : List Lexeme} (hsubname : Lexer.lexemes subname = .ok found) :
    (extensionName extension subname).lexemes =
      .punctuation .leftParen :: .identifier extension :: .punctuation .rightParen :: found := by
  refine Text.lexemes_of_eq_ok ?_
  have htext : extensionName extension subname =
      CodePoint.ofChar Punctuation.leftParen.char :: (extension ++
        (CodePoint.ofChar Punctuation.rightParen.char :: subname)) := by
    simp only [extensionName, List.append_assoc]
    rfl
  rw [htext, Lexer.lexemes_mark, Lexer.lexemes_identifier hextension rfl, Lexer.lexemes_mark,
    hsubname]
  rfl

/-! ### Lexemes that are scanned as they are written -/

/-- A word is scanned as it is written. -/
theorem Lexer.IsName.isWritable {name : Text} (h : IsName name) :
    (Lexeme.ofWord name).IsWritable := by
  cases hname : Lexeme.ofWord name with
  | identifier word =>
      obtain rfl : name = word := by
        have hvalue := Lexeme.value_ofWord name
        rw [hname] at hvalue
        exact hvalue.symm
      exact Lexer.isIdentifier_iff.mpr ⟨Lexer.isName_iff.mp h, hname⟩
  | number spelling =>
      have hisName := Lexeme.isName_ofWord name
      rw [hname] at hisName
      exact absurd hisName Bool.false_ne_true
  | _ => trivial

namespace Lexeme

@[simp]
theorem isWritable_keyword (word : Keyword) : (keyword word).IsWritable := trivial

@[simp]
theorem isWritable_punctuation (mark : Punctuation) : (punctuation mark).IsWritable := trivial

@[simp]
theorem isWritable_identifier (name : Text) : (identifier name).IsWritable ↔ IsIdentifier name :=
  Iff.rfl

@[simp]
theorem isWritable_numeral (value : Int) : (number (Integer.numeral value)).IsWritable :=
  ⟨value, rfl⟩

@[simp]
theorem isWritable_string (value : Text) : (string value).IsWritable := trivial

/-- Braces are scanned as they are written. -/
theorem writable_block {body : List Lexeme} (h : ∀ lexeme ∈ body, lexeme.IsWritable) :
    ∀ lexeme ∈ block body, lexeme.IsWritable := by
  simpa [block, or_imp, forall_and] using h

end Lexeme

/-- The lexemes of a field type are scanned as they are written. -/
theorem IsFieldType.writable {type : Text} (h : IsFieldType type) :
    ∀ lexeme ∈ type.lexemes, lexeme.IsWritable := by
  rcases h with ⟨htype, -⟩ | ⟨key, value, hkey, hvalue, rfl⟩
  · rw [Text.lexemes_of_isIdentifier htype]
    exact List.forall_mem_singleton.mpr htype
  · rw [Text.lexemes_mapTypeText hkey hvalue]
    simpa using ⟨hkey, hvalue⟩

/-- The lexeme of a printable constant is scanned as it is written. -/
theorem Constant.Printable.writable {value : Constant} (h : value.Printable) :
    value.lexeme.IsWritable := by
  cases value with
  | bool value => cases value <;> exact (Lexeme.isWritable_identifier _).mpr rfl
  | integer value => exact Lexeme.isWritable_numeral value
  | float value => exact h.elim
  | text value => trivial

namespace OptionSetting

variable {settings : List OptionSetting}

/-- The lexemes of an option are scanned as they are written. -/
theorem Printable.writable {setting : OptionSetting} (h : setting.Printable) :
    ∀ lexeme ∈ setting.lexemes, lexeme.IsWritable := by
  refine List.forall_mem_append.mpr ⟨?_, by simp [h.value.writable]⟩
  rcases h.name with hname | ⟨extension, subname, hextension, hsubname, hname⟩
  · rw [Text.lexemes_of_isName hname]
    exact List.forall_mem_singleton.mpr hname.isWritable
  · rw [hname]
    rcases hsubname with rfl | ⟨hsubname, -⟩
    · rw [Text.lexemes_extensionName hextension Lexer.lexemes_nil]
      simpa using hextension
    · rw [Text.lexemes_extensionName hextension hsubname]
      simpa using ⟨hextension, hsubname⟩

/-- The lexemes of option statements are scanned as they are written. -/
theorem writable_statements (h : ∀ setting ∈ settings, setting.Printable) :
    ∀ lexeme ∈ settings.flatMap statement, lexeme.IsWritable := by
  refine List.forall_mem_flatMap.mpr fun setting hmem => ?_
  have hsetting := (h setting hmem).writable
  simpa [statement, or_imp, forall_and] using hsetting

/-- The lexemes of options between brackets are scanned as they are written. -/
theorem writable_bracketed (h : ∀ setting ∈ settings, setting.Printable) :
    ∀ lexeme ∈ bracketed settings, lexeme.IsWritable := by
  cases settings with
  | nil => exact fun lexeme hmem => absurd hmem List.not_mem_nil
  | cons first rest =>
      obtain ⟨hfirst, hrest⟩ := List.forall_mem_cons.mp h
      have hfurther : ∀ lexeme ∈ furtherLexemes rest, lexeme.IsWritable :=
        List.forall_mem_flatMap.mpr fun setting hmem =>
          List.forall_mem_cons.mpr ⟨trivial, (hrest setting hmem).writable⟩
      simpa [bracketed, or_imp, forall_and] using ⟨hfirst.writable, hfurther⟩

end OptionSetting

/-! ### Groups of neighbours -/

section Runs

variable {α κ : Type} [DecidableEq κ] {key : α → κ}

/-- The groups are a list of the elements in order. -/
theorem flatMap_snd_runs (key : α → κ) (elements : List α) :
    (runs key elements).flatMap Prod.snd = elements := by
  induction elements with
  | nil => rfl
  | cons first rest ih =>
      rw [runs]
      cases hruns : runs key rest with
      | nil =>
          rw [hruns] at ih
          rw [← ih]
          rfl
      | cons run groups =>
          obtain ⟨other, group⟩ := run
          rw [hruns] at ih
          dsimp only
          split <;> simpa using ih

/-- A group of a longer list is one of the rest, or it starts with the first element: alone, or in
front of a group of the rest that has its key. -/
theorem mem_runs_cons {first : α} {rest : List α} {run : κ × List α}
    (hrun : run ∈ runs key (first :: rest)) :
    run ∈ runs key rest ∨ run = (key first, [first]) ∨
      ∃ group, run = (key first, first :: group) ∧ (key first, group) ∈ runs key rest := by
  rw [runs] at hrun
  cases hruns : runs key rest with
  | nil =>
      rw [hruns] at hrun
      exact .inr (.inl (List.mem_singleton.mp hrun))
  | cons next groups =>
      obtain ⟨other, group⟩ := next
      rw [hruns] at hrun
      dsimp only at hrun
      by_cases hkey : key first = other
      · subst hkey
        rw [if_pos rfl] at hrun
        rcases List.mem_cons.mp hrun with rfl | hrun
        · exact .inr (.inr ⟨group, rfl, List.mem_cons_self⟩)
        · exact .inl (List.mem_cons_of_mem _ hrun)
      · rw [if_neg hkey] at hrun
        rcases List.mem_cons.mp hrun with rfl | hrun
        · exact .inr (.inl rfl)
        · exact .inl hrun

/-- The elements of a group have its key. -/
theorem key_of_mem_runs {elements : List α} {run : κ × List α} (hrun : run ∈ runs key elements) :
    ∀ element ∈ run.2, element ∈ elements ∧ key element = run.1 := by
  induction elements generalizing run with
  | nil => exact absurd hrun List.not_mem_nil
  | cons first rest ih =>
      intro element helement
      rcases mem_runs_cons hrun with hrun | rfl | ⟨group, rfl, hgroup⟩
      · exact (ih hrun element helement).imp_left (List.mem_cons_of_mem first)
      · obtain rfl := List.mem_singleton.mp helement
        exact ⟨List.mem_cons_self, rfl⟩
      · rcases List.mem_cons.mp helement with rfl | helement
        · exact ⟨List.mem_cons_self, rfl⟩
        · exact (ih hgroup element helement).imp_left (List.mem_cons_of_mem first)

/-- A group is not empty. -/
theorem exists_mem_of_mem_runs {elements : List α} {run : κ × List α}
    (hrun : run ∈ runs key elements) : ∃ element, element ∈ run.2 := by
  induction elements generalizing run with
  | nil => exact absurd hrun List.not_mem_nil
  | cons first rest ih =>
      rcases mem_runs_cons hrun with hrun | rfl | ⟨group, rfl, -⟩
      · exact ih hrun
      · exact ⟨first, List.mem_cons_self⟩
      · exact ⟨first, List.mem_cons_self⟩

end Runs

/-! ### Declarations -/

namespace Field

/-- The lexemes of a field are scanned as they are written. -/
theorem Printable.writable {field : Field} (h : field.Printable) :
    ∀ lexeme ∈ field.lexemes, lexeme.IsWritable := by
  have hlabel : ∀ lexeme ∈ Label.lexemes field.label, lexeme.IsWritable := by
    simp [Label.lexemes]
  have hoptions := OptionSetting.writable_bracketed h.options
  simpa [lexemes, or_imp, forall_and] using
    ⟨hlabel, h.type.writable, h.name.isWritable, hoptions⟩

/-- The lexemes of a block of fields are scanned as they are written. -/
theorem writable_flatMap {fields : List Field} (h : ∀ field ∈ fields, field.Printable) :
    ∀ lexeme ∈ fields.flatMap lexemes, lexeme.IsWritable :=
  List.forall_mem_flatMap.mpr fun field hmem => (h field hmem).writable

/-- The lexemes of the fields of a message are scanned as they are written. -/
theorem writable_listLexemes {fields : List Field} (h : ∀ field ∈ fields, field.Printable ∧
    ∀ oneof ∈ field.oneof, IsName oneof) :
    ∀ lexeme ∈ listLexemes fields, lexeme.IsWritable := by
  refine List.forall_mem_flatMap.mpr fun run hrun => ?_
  have hkey := key_of_mem_runs hrun
  have hfields : ∀ lexeme ∈ run.2.flatMap lexemes, lexeme.IsWritable :=
    writable_flatMap fun field hmem => (h field (hkey field hmem).1).1
  obtain ⟨oneof, fields⟩ := run
  cases oneof with
  | none => exact hfields
  | some name =>
      have hname : (Lexeme.ofWord name).IsWritable := by
        obtain ⟨field, hmem⟩ := exists_mem_of_mem_runs hrun
        obtain ⟨hfield, honeof⟩ := hkey field hmem
        exact ((h field hfield).2 name honeof).isWritable
      exact List.forall_mem_cons.mpr ⟨trivial,
        List.forall_mem_cons.mpr ⟨hname, Lexeme.writable_block hfields⟩⟩

/-- The lexemes of extend blocks are scanned as they are written. -/
theorem writable_extend {fields : List Field} (h : ∀ field ∈ fields, field.Printable ∧
    ∃ extendee, field.extendee = some extendee ∧ IsIdentifier extendee) :
    ∀ lexeme ∈ (runs Field.extendee fields).flatMap extendLexemes, lexeme.IsWritable := by
  refine List.forall_mem_flatMap.mpr fun run hrun => ?_
  have hkey := key_of_mem_runs hrun
  have hfields : ∀ lexeme ∈ run.2.flatMap lexemes, lexeme.IsWritable :=
    writable_flatMap fun field hmem => (h field (hkey field hmem).1).1
  obtain ⟨field, hmem⟩ := exists_mem_of_mem_runs hrun
  obtain ⟨hfield, hextendee⟩ := hkey field hmem
  obtain ⟨-, extendee, hsome, hidentifier⟩ := h field hfield
  have hrunkey : run.1 = some extendee := hextendee.symm.trans hsome
  rw [extendLexemes, hrunkey]
  exact List.forall_mem_cons.mpr ⟨trivial,
    List.forall_mem_cons.mpr ⟨hidentifier, Lexeme.writable_block hfields⟩⟩

end Field

/-- The lexemes of a value of an enumeration are scanned as they are written. -/
theorem EnumValue.Printable.writable {value : EnumValue} (h : value.Printable) :
    ∀ lexeme ∈ value.lexemes, lexeme.IsWritable := by
  simpa [EnumValue.lexemes, or_imp, forall_and] using
    ⟨h.name.isWritable, OptionSetting.writable_bracketed h.options⟩

/-- The lexemes of an enumeration are scanned as they are written. -/
theorem EnumType.Printable.writable {enum : EnumType} (h : enum.Printable) :
    ∀ lexeme ∈ enum.lexemes, lexeme.IsWritable := by
  have hvalues : ∀ lexeme ∈ enum.values.flatMap EnumValue.lexemes, lexeme.IsWritable :=
    List.forall_mem_flatMap.mpr fun value hmem => (h.values value hmem).writable
  have hoptions := OptionSetting.writable_statements h.options
  have hbody := List.forall_mem_append.mpr ⟨hoptions, hvalues⟩
  exact List.forall_mem_cons.mpr ⟨trivial,
    List.forall_mem_cons.mpr ⟨h.name.isWritable, Lexeme.writable_block hbody⟩⟩

namespace Message

/-- The lexemes of the body of a message are scanned as they are written. -/
theorem Printable.writable_body {message : Message} (h : message.Printable) :
    ∀ lexeme ∈ message.bodyLexemes, lexeme.IsWritable := by
  induction h with
  | @mk name fields messages enums options hname hfields hmessages henums hoptions ih =>
      rw [bodyLexemes, listLexemes_eq]
      simp only [List.forall_mem_append]
      refine ⟨OptionSetting.writable_statements hoptions, Field.writable_listLexemes ?_, ?_, ?_⟩
      · exact fun field hmem => ⟨(hfields field hmem).1, (hfields field hmem).2.2⟩
      · refine List.forall_mem_flatMap.mpr fun message hmem => ?_
        have hnested := (hmessages message hmem).isName.isWritable
        exact List.forall_mem_cons.mpr ⟨trivial,
          List.forall_mem_cons.mpr ⟨hnested, Lexeme.writable_block (ih message hmem)⟩⟩
      · exact List.forall_mem_flatMap.mpr fun enum hmem => (henums enum hmem).writable

/-- The lexemes of a message are scanned as they are written. -/
theorem Printable.writable {message : Message} (h : message.Printable) :
    ∀ lexeme ∈ message.lexemes, lexeme.IsWritable := by
  exact List.forall_mem_cons.mpr ⟨trivial,
    List.forall_mem_cons.mpr ⟨h.isName.isWritable, Lexeme.writable_block h.writable_body⟩⟩

end Message

namespace Method

/-- The lexemes of one side of a procedure are scanned as they are written. -/
theorem writable_side (streams : Bool) {type : Text} (h : IsIdentifier type) :
    ∀ lexeme ∈ sideLexemes streams type, lexeme.IsWritable := by
  cases streams <;> simpa [sideLexemes] using h

/-- The lexemes of the options of a procedure are scanned as they are written. -/
theorem writable_options {options : List OptionSetting}
    (h : ∀ setting ∈ options, setting.Printable) :
    ∀ lexeme ∈ optionLexemes options, lexeme.IsWritable := by
  have hstatements := OptionSetting.writable_statements h
  cases options with
  | nil => exact List.forall_mem_singleton.mpr trivial
  | cons first rest => exact Lexeme.writable_block hstatements

/-- The lexemes of a procedure are scanned as they are written. -/
theorem Printable.writable {method : Method} (h : method.Printable) :
    ∀ lexeme ∈ method.lexemes, lexeme.IsWritable := by
  simp only [lexemes, List.forall_mem_cons, List.forall_mem_append]
  exact ⟨trivial, h.name.isWritable, writable_side _ h.input, trivial, writable_side _ h.output,
    writable_options h.options⟩

end Method

/-- The lexemes of a service are scanned as they are written. -/
theorem Service.Printable.writable {service : Service} (h : service.Printable) :
    ∀ lexeme ∈ service.lexemes, lexeme.IsWritable := by
  have hmethods : ∀ lexeme ∈ service.methods.flatMap Method.lexemes, lexeme.IsWritable :=
    List.forall_mem_flatMap.mpr fun method hmem => (h.methods method hmem).writable
  have hoptions := OptionSetting.writable_statements h.options
  have hbody := List.forall_mem_append.mpr ⟨hoptions, hmethods⟩
  exact List.forall_mem_cons.mpr ⟨trivial,
    List.forall_mem_cons.mpr ⟨h.name.isWritable, Lexeme.writable_block hbody⟩⟩

/-- The lexemes of a declaration are scanned as they are written. -/
theorem Declaration.Printable.writable {declaration : Declaration} (h : declaration.Printable) :
    ∀ lexeme ∈ declaration.lexemes, lexeme.IsWritable := by
  cases declaration with
  | message declared => exact Message.Printable.writable h
  | enum declared => exact EnumType.Printable.writable h
  | service declared => exact Service.Printable.writable h
  | scope name members => exact h.elim

namespace Schema

/-- The lexemes of a schema are scanned as they are written. -/
theorem Printable.writable {schema : Schema} (h : schema.Printable) :
    ∀ lexeme ∈ schema.lexemes, lexeme.IsWritable := by
  simp only [lexemes, List.forall_mem_append]
  refine ⟨by simp [dialectLexemes], ?_, ?_, OptionSetting.writable_statements h.options, ?_, ?_⟩
  · refine List.forall_mem_flatMap.mpr fun name hmem => ?_
    simpa [packageLexemes] using h.package name (Option.mem_toList.mp hmem)
  · exact List.forall_mem_flatMap.mpr fun path _ => by simp [importLexemes]
  · exact Field.writable_extend fun field hmem =>
      ⟨(h.extensions field hmem).1, (h.extensions field hmem).2.2⟩
  · exact List.forall_mem_flatMap.mpr fun declaration hmem =>
      (h.declarations declaration hmem).writable

/-- The text of a printable schema has the lexemes of the schema. -/
theorem lexemes_written {schema : Schema} (h : schema.Printable) :
    Lexer.lexemes schema.written = .ok schema.lexemes :=
  Lexer.lexemes_layout h.writable

end Schema

end ProtoSchema
