import ProtoSchema.Proofs.Load.SchemaFile
import ProtoSchema.Proofs.Parser.Concatenation
import ProtoSchema.Proofs.Parser.Refusal
import ProtoSchema.Proofs.Schema.Package

/-!
# Concatenated files

The blocks of two lists of statements, one after the other, are those of the first and then those of
the second, which may be in the package that the first leaves (`File.blocks_append`). So the file of
two inputs joins the files of the inputs (`File.Joins`), unless a package of the first one comes
into force in the second one. The main statement is `File.joins_of_ofTokens`.
-/

namespace ProtoSchema

/-- The entries of declarations are collected. -/
theorem Declaration.Collects.entries (file : Text) : Collects (entriesOfList file) where
  append path first second := by
    induction first with
    | nil => rfl
    | cons declaration first ih =>
        rw [List.cons_append, entriesOfList, ih, entriesOfList, List.append_assoc]
  scope path name members := by
    rw [entriesOfList, entriesOfList, List.append_nil, Declaration.entries]

namespace Statement

/-- The import that a statement adds. -/
def imports : Statement → List Text
  | imported path => [path]
  | _ => []

/-- The option that a statement adds. -/
def options : Statement → List OptionSetting
  | option setting => [setting]
  | _ => []

/-- The extensions that a statement adds. -/
def extensions : Statement → List Field
  | declare _ extensions => extensions
  | _ => []

/-- The package that a statement sets. -/
def package? : Statement → Option Text
  | package name => some name
  | _ => none

/-- The dialect that a statement sets. -/
def dialect? : Statement → Option Text
  | dialect name => some name
  | _ => none

end Statement

namespace File

/-- Statements that come later are in the blocks of the package that the earlier ones leave. -/
theorem blocks_append (first second : List Statement) (file : File) :
    Statement.blocks file.package (first ++ second) =
      Statement.blocks file.package first ++
        Statement.blocks (first.foldl apply file).package second := by
  induction first generalizing file with
  | nil => rfl
  | cons statement rest ih =>
      have hrest := ih (file.apply statement)
      cases statement with
      | declare declarations extensions => exact congrArg (_ :: ·) hrest
      | _ => exact hrest

/-- The entries of a file are those of its blocks. -/
theorem entries_ofStatements (path : Text) (statements : List Statement) (base : List Text) :
    ((ofStatements path statements).entries base).Perm
      ((Statement.blocks none statements).flatMap fun block =>
        Declaration.entriesOfList path (base ++ block.1) block.2) := by
  rw [entries, path_ofStatements, root_ofStatements]
  exact Namespace.collect_appendAll (.entries path) base _ {}

/-! ### Fields that statements add to and fields that they set -/

/-- Imports come one after the other. -/
theorem apply_imports (file : File) (statement : Statement) :
    (file.apply statement).imports = file.imports ++ statement.imports := by
  cases statement <;> simp [apply, declare, Statement.imports]

/-- Options come one after the other. -/
theorem apply_options (file : File) (statement : Statement) :
    (file.apply statement).options = file.options ++ statement.options := by
  cases statement <;> simp [apply, declare, Statement.options]

/-- Extensions come one after the other. -/
theorem apply_extensions (file : File) (statement : Statement) :
    (file.apply statement).extensions = file.extensions ++ statement.extensions := by
  cases statement <;> simp [apply, declare, Statement.extensions]

/-- A package statement sets the package. -/
theorem apply_package (file : File) (statement : Statement) :
    (file.apply statement).package = (statement.package?.map some).getD file.package := by
  cases statement <;> rfl

/-- A dialect statement sets the dialect. -/
theorem apply_dialect (file : File) (statement : Statement) :
    (file.apply statement).dialect = statement.dialect?.getD file.dialect := by
  cases statement <;> rfl

section

variable {α : Type} {path : Text} {firsts seconds : List Statement}

/-- A field that statements add to has what all of them add, in order. -/
theorem added_ofStatements_append {field : File → List α} {added : Statement → List α}
    (hfield : ∀ file statement, field (file.apply statement) = field file ++ added statement)
    (hnew : field { path } = []) :
    field (ofStatements path (firsts ++ seconds)) =
      field (ofStatements path firsts) ++ field (ofStatements path seconds) := by
  have hfold (statements : List Statement) (file : File) :
      field (statements.foldl apply file) = field file ++ statements.flatMap added := by
    induction statements generalizing file with
    | nil => exact (List.append_nil _).symm
    | cons statement rest ih =>
        rw [List.foldl_cons, ih, hfield, List.flatMap_cons, List.append_assoc]
  simp only [ofStatements, hfold, hnew, List.nil_append, List.flatMap_append]

/-- A field that statements set is as the last of them sets it. -/
theorem set_foldl_apply {field : File → α} {set : Statement → Option α}
    (hfield : ∀ file statement, field (file.apply statement) = (set statement).getD (field file))
    (statements : List Statement) (file : File) :
    field (statements.foldl apply file) =
      (statements.filterMap set).getLast?.getD (field file) := by
  induction statements using List.reverseRecOn with
  | nil => rfl
  | append_singleton statements statement ih =>
      rw [List.foldl_append, List.foldl_cons, List.foldl_nil, hfield, ih, List.filterMap_append]
      cases hset : set statement with
      | none => simp [hset]
      | some value => simp [hset]

/-- A field that a later statement sets is as the later statements leave it. -/
theorem set_ofStatements_append {field : File → α} {set : Statement → Option α}
    (hfield : ∀ file statement, field (file.apply statement) = (set statement).getD (field file))
    (hset : ∃ statement ∈ seconds, (set statement).isSome) :
    field (ofStatements path (firsts ++ seconds)) = field (ofStatements path seconds) := by
  have hlast : (seconds.filterMap set).getLast?.isSome := by
    obtain ⟨statement, hmem, hvalue⟩ := hset
    rw [List.getLast?_isSome]
    have hset := (Option.some_get hvalue).symm
    exact List.ne_nil_of_mem (List.mem_filterMap.mpr ⟨statement, hmem, hset⟩)
  obtain ⟨value, hvalue⟩ := Option.isSome_iff_exists.mp hlast
  simp [ofStatements, set_foldl_apply hfield, hvalue]

/-- A field that no later statement sets stays as it is. -/
theorem kept_ofStatements_append {field : File → α} {set : Statement → Option α}
    (hfield : ∀ file statement, field (file.apply statement) = (set statement).getD (field file))
    (hkept : ∀ statement ∈ seconds, set statement = none) :
    field (ofStatements path (firsts ++ seconds)) = field (ofStatements path firsts) := by
  rw [ofStatements, List.foldl_append, set_foldl_apply hfield, List.filterMap_eq_nil_iff.mpr hkept]
  rfl

end

/-! ### Files that are joined -/

/-- The whole file has what two files have, of which the second one is made of these statements. The
package and the dialect are those of the second one if it sets them. Namespaces of one path are one,
with the declarations of the first file before those of the second. -/
structure Joins (whole first second : File) (seconds : List Statement) : Prop where
  imports : whole.imports = first.imports ++ second.imports
  options : whole.options = first.options ++ second.options
  extensions : whole.extensions = first.extensions ++ second.extensions
  package_set (h : ∃ name, Statement.package name ∈ seconds) : whole.package = second.package
  package_kept (h : ¬ ∃ name, Statement.package name ∈ seconds) : whole.package = first.package
  dialect_set (h : ∃ name, Statement.dialect name ∈ seconds) : whole.dialect = second.dialect
  dialect_kept (h : ¬ ∃ name, Statement.dialect name ∈ seconds) : whole.dialect = first.dialect
  entries (base : List Text) : (whole.entries base).Perm (first.entries base ++ second.entries base)
  distinct : whole.root.HasDistinctChildren
  exists_iff (path : List Text) : (whole.root.find? path).isSome ↔
    (first.root.find? path).isSome ∨ (second.root.find? path).isSome
  declaredAt (path : List Text) :
    whole.root.declaredAt path = first.root.declaredAt path ++ second.root.declaredAt path

/-- Where the second file has the same blocks after the first one as alone, the two are joined. -/
theorem joins_append {firsts seconds : List Statement} {path : Text}
    (hplain : ∀ statement ∈ firsts ++ seconds, statement.DeclaresPlain)
    (hblocks : Statement.blocks (ofStatements path firsts).package seconds =
      Statement.blocks none seconds) :
    Joins (ofStatements path (firsts ++ seconds)) (ofStatements path firsts)
      (ofStatements path seconds) seconds := by
  have hwhole : Statement.blocks none (firsts ++ seconds) =
      Statement.blocks none firsts ++ Statement.blocks none seconds :=
    (blocks_append firsts seconds { path }).trans (congrArg (_ ++ ·) hblocks)
  have hblock := Statement.plain_blocks hplain none
  rw [hwhole] at hblock
  obtain ⟨hfirst, hsecond⟩ := List.forall_mem_append.mp hblock
  exact
    { imports := added_ofStatements_append apply_imports rfl
      options := added_ofStatements_append apply_options rfl
      extensions := added_ofStatements_append apply_extensions rfl
      package_set := fun ⟨name, hmem⟩ => set_ofStatements_append apply_package ⟨_, hmem, rfl⟩
      package_kept := fun h => kept_ofStatements_append apply_package fun statement hmem => by
        cases statement with
        | package name => exact absurd ⟨name, hmem⟩ h
        | _ => rfl
      dialect_set := fun ⟨name, hmem⟩ => set_ofStatements_append apply_dialect ⟨_, hmem, rfl⟩
      dialect_kept := fun h => kept_ofStatements_append apply_dialect fun statement hmem => by
        cases statement with
        | dialect name => exact absurd ⟨name, hmem⟩ h
        | _ => rfl
      entries := fun base => by
        have hjoined := entries_ofStatements path (firsts ++ seconds) base
        rw [hwhole, List.flatMap_append] at hjoined
        exact hjoined.trans
          ((entries_ofStatements path firsts base).append
            (entries_ofStatements path seconds base)).symm
      distinct := by
        rw [root_ofStatements, hwhole]
        exact (Namespace.HasDistinctChildren.empty []).appendAll hblock
      exists_iff := fun other => by
        rw [root_ofStatements, root_ofStatements, root_ofStatements, hwhole,
          Namespace.isSome_find?_appendAll hblock, Namespace.isSome_find?_appendAll hfirst,
          Namespace.isSome_find?_appendAll hsecond]
        simp only [List.mem_append, or_and_right, exists_or]
        exact or_or_distrib_left
      declaredAt := fun other => by
        rw [root_ofStatements, root_ofStatements, root_ofStatements, hwhole,
          Namespace.declaredAt_appendAll hblock, Namespace.declaredAt_appendAll hfirst,
          Namespace.declaredAt_appendAll hsecond, Namespace.declaredAt_empty, List.flatMap_append]
        rfl }

/-- Two inputs that are accepted are accepted one after the other. If the first one leaves no
package, or the second one starts with its package, the file of both joins the files of the two. -/
theorem joins_of_ofTokens {first second : List Token} {firsts seconds : List Statement}
    (path : Text)
    (hfirst : Statement.ofTokens first = .ok firsts)
    (hsecond : Statement.ofTokens second = .ok seconds)
    (hpackage : (ofStatements path firsts).package = none ∨
      ∃ token rest, second = token :: rest ∧ token.lexeme = .keyword .package) :
    Statement.ofTokens (first ++ second) = .ok (firsts ++ seconds) ∧
      Joins (ofStatements path (firsts ++ seconds)) (ofStatements path firsts)
        (ofStatements path seconds) seconds := by
  have hseconds := Statement.ofTokens_eq_ok_iff.mp hsecond
  have happend := Parse.statements_append (Statement.ofTokens_eq_ok_iff.mp hfirst) hseconds
  have hplain := Parse.Gives.statements _ _ _ happend
  refine ⟨Statement.ofTokens_eq_ok_iff.mpr happend, joins_append hplain ?_⟩
  rcases hpackage with hnone | ⟨token, rest, rfl, hlexeme⟩
  · rw [hnone]
  · obtain ⟨name, others, rfl⟩ := Parse.statements_of_package hlexeme hseconds
    rfl

/-- The tokens of a file with a package and a message. -/
def messageTokens (package message : Text) : List Token :=
  [.keyword .package, .identifier package, .punctuation .semicolon, .keyword .message,
    .identifier message, .punctuation .leftBrace, .punctuation .rightBrace].map fun lexeme =>
      ⟨lexeme, Position.start⟩

/-- The statements of such a file. -/
def messageStatements (package message : Text) : List Statement :=
  [.package package, .declare [.message { name := message }] []]

/-- The messages of two files of one package are in one namespace. -/
theorem joins_of_ofTokens_samePackage :
    let first := messageTokens "p" "A"
    let second := messageTokens "p" "B"
    let statements := messageStatements "p" "A" ++ messageStatements "p" "B"
    (Statement.ofTokens first = .ok (messageStatements "p" "A") ∧
      Statement.ofTokens second = .ok (messageStatements "p" "B") ∧
      ∃ token rest, second = token :: rest ∧ token.lexeme = .keyword .package) ∧
    Statement.ofTokens (first ++ second) = .ok statements ∧
    (ofStatements [] statements).root =
      { members := [.scope "p" [.message { name := "A" }, .message { name := "B" }]] } ∧
    Joins (ofStatements [] statements) (ofStatements [] (messageStatements "p" "A"))
      (ofStatements [] (messageStatements "p" "B")) (messageStatements "p" "B") := by
  intro first second statements
  have hfirst : Statement.ofTokens first = .ok (messageStatements "p" "A") := rfl
  have hsecond : Statement.ofTokens second = .ok (messageStatements "p" "B") := rfl
  have hstarts : ∃ token rest, second = token :: rest ∧ token.lexeme = .keyword .package :=
    ⟨_, _, rfl, rfl⟩
  obtain ⟨haccepted, hjoins⟩ := joins_of_ofTokens [] hfirst hsecond (.inr hstarts)
  exact ⟨⟨hfirst, hsecond, hstarts⟩, haccepted, by cbv, hjoins⟩

end File

end ProtoSchema
