import ProtoSchema.Schema.Namespace
import ProtoSchema.Text.Lines

/-!
# Schema files

A schema file is the effect of its statements, taken in order. A declaration goes to the namespace
of the package in force at that point; the views of a file show the namespace of its final package.
-/

namespace ProtoSchema

/-- A statement at the top level of a schema file. -/
inductive Statement where
  | dialect (name : Text)
  | package (name : Text)
  | imported (path : Text)
  | option (setting : OptionSetting)
  | declare (declarations : List Declaration) (extensions : List Field)

/-- A schema file. `dialect` is the version of the language it is written in. -/
structure File where
  path : Text := []
  dialect : Text := Text.ofString "proto2"
  package : Option Text := none
  imports : List Text := []
  options : List OptionSetting := []
  extensions : List Field := []
  root : Namespace := {}

namespace File

/-- The names on the path of the file's package. -/
def packagePath (file : File) : List Text :=
  match file.package with
  | none => []
  | some name => if name.isEmpty then [] else Text.split '.' name

/-- Declare something in the namespace of the package, which is created if it does not exist. -/
def declare (file : File) (declarations : List Declaration) : File :=
  { file with root := file.root.append file.packagePath declarations }

/-- The effect of one statement. -/
def apply (file : File) : Statement → File
  | .dialect name => { file with dialect := name }
  | .package name => { file with package := some name }
  | .imported path => { file with imports := file.imports ++ [path] }
  | .option setting => { file with options := file.options ++ [setting] }
  | .declare declarations extensions =>
      let declared := file.declare declarations
      { declared with extensions := declared.extensions ++ extensions }

/-- The file at a path that consists of these statements. -/
def ofStatements (path : Text) (statements : List Statement) : File :=
  statements.foldl apply { path := path }

/-- The namespace of the package, if it exists. -/
def packageNamespace? (file : File) : Option Namespace :=
  file.root.find? file.packagePath

/-- The messages of the package. -/
def messages (file : File) : List Message :=
  (file.packageNamespace?.map Namespace.messages).getD []

/-- The enumerations of the package. -/
def enums (file : File) : List EnumType :=
  (file.packageNamespace?.map Namespace.enums).getD []

/-- The services of the package. -/
def services (file : File) : List Service :=
  (file.packageNamespace?.map Namespace.services).getD []

end File

end ProtoSchema
