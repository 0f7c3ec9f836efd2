import Mathlib.Data.List.Basic
import ProtoSchema.Proofs.Schema.Paths

/-!
# Declaring things in a namespace

Declaring things twice at the same path is declaring them at once (`Namespace.append_append`), so a
file whose package does not change declares everything in one place
(`File.foldl_apply_declare`). Whatever the packages are, the messages of a file are those that its
statements declare (`File.messagesIn_ofStatements`), and the messages of its package are among them.
-/

namespace ProtoSchema

namespace Declaration

variable {update other : List Declaration → List Declaration}

/-- Two updates of the same namespace are one. -/
theorem updateScope_updateScope (name : Text) (members : List Declaration) :
    updateScope name other (updateScope name update members) =
      updateScope name (fun members => other (update members)) members := by
  induction members with
  | nil => simp [updateScope]
  | cons first rest ih =>
      cases first with
      | scope found inner =>
          by_cases hfound : found = name
          · simp [updateScope, hfound]
          · simp [updateScope, hfound, ih]
      | message declared => simp [updateScope, ih]
      | enum declared => simp [updateScope, ih]
      | service declared => simp [updateScope, ih]

/-- Two updates at the same path are one. -/
theorem updateAt_updateAt (path : List Text) (members : List Declaration) :
    updateAt other path (updateAt update path members) =
      updateAt (fun members => other (update members)) path members := by
  induction path generalizing members with
  | nil => rfl
  | cons name path ih =>
      rw [updateAt, updateAt, updateAt, updateScope_updateScope]
      exact congrArg (updateScope name · members) (funext ih)

mutual

/-- The messages that a declaration brings, those of namespaces included. -/
def messagesOf : Declaration → List Message
  | message declared => [declared]
  | enum _ => []
  | service _ => []
  | scope _ members => messagesIn members

/-- The messages that several declarations bring. -/
def messagesIn : List Declaration → List Message
  | [] => []
  | first :: rest => messagesOf first ++ messagesIn rest

end

/-- The messages of a list of declarations are those of its parts. -/
theorem messagesIn_append (first second : List Declaration) :
    messagesIn (first ++ second) = messagesIn first ++ messagesIn second := by
  induction first with
  | nil => simp [messagesIn]
  | cons declaration rest ih => simp [messagesIn, ih]

/-- The function collects something from the declarations of a tree, of one after the other. What is
in a namespace has its name at the end of the path of names around it. -/
structure Collects {α : Type} (collect : List Text → List Declaration → List α) : Prop where
  append (path : List Text) (first second : List Declaration) :
    collect path (first ++ second) = collect path first ++ collect path second
  scope (path : List Text) (name : Text) (members : List Declaration) :
    collect path [scope name members] = collect (path ++ [name]) members

namespace Collects

variable {α : Type} {collect : List Text → List Declaration → List α}

/-- Nothing is collected from no declarations. -/
theorem nil (h : Collects collect) (path : List Text) : collect path [] = [] :=
  List.self_eq_append_left.mp (h.append path [] [])

/-- What is collected from a declaration comes before what is collected from later ones. -/
theorem cons (h : Collects collect) (path : List Text) (declaration : Declaration)
    (rest : List Declaration) :
    collect path (declaration :: rest) = collect path [declaration] ++ collect path rest :=
  h.append path [declaration] rest

/-- An update that adds to what is collected from every namespace adds it to one. -/
theorem perm_updateScope (h : Collects collect) {added : List α} {name : Text} {path : List Text}
    (hupdate : ∀ members, (collect (path ++ [name]) (update members)).Perm
      (collect (path ++ [name]) members ++ added)) (members : List Declaration) :
    (collect path (updateScope name update members)).Perm (collect path members ++ added) := by
  induction members using members_induction with
  | nil =>
      have hnew := hupdate []
      rw [h.nil] at hnew
      rw [updateScope, h.scope, h.nil]
      exact hnew
  | scope other inner rest ih =>
      rw [updateScope]
      split
      next hother =>
        subst hother
        rw [h.cons, h.cons path (.scope other inner) rest, h.scope, h.scope, List.append_assoc]
        -- What is added comes in the middle, in front of what later declarations bring.
        refine ((hupdate inner).append_right _).trans ?_
        rw [List.append_assoc]
        exact List.perm_append_comm.append_left _
      next =>
        rw [h.cons, h.cons path (.scope other inner) rest, List.append_assoc]
        exact ih.append_left _
  | plain declaration rest hplain ih =>
      rw [updateScope_of_isPlain name rest hplain, h.cons, h.cons path declaration rest,
        List.append_assoc]
      exact ih.append_left _

/-- Declarations that go to a path bring what is collected from them at this path. -/
theorem perm_updateAt (h : Collects collect) (declarations : List Declaration)
    (path base : List Text) (members : List Declaration) :
    (collect base (updateAt (· ++ declarations) path members)).Perm
      (collect base members ++ collect (base ++ path) declarations) := by
  induction path generalizing base members with
  | nil =>
      rw [List.append_nil]
      exact .of_eq (h.append base members declarations)
  | cons name path ih =>
      have hinner := ih (base ++ [name])
      rw [List.append_assoc, List.singleton_append] at hinner
      exact h.perm_updateScope hinner members

/-- All messages are collected. -/
theorem messagesIn : Collects fun _ => Declaration.messagesIn where
  append _ := messagesIn_append
  scope _ _ _ := by simp [Declaration.messagesIn, messagesOf]

end Collects

/-- The messages declared directly are among all messages. -/
theorem filterMap_message_sublist (members : List Declaration) :
    (members.filterMap message?).Sublist (messagesIn members) := by
  induction members with
  | nil => exact List.Sublist.refl _
  | cons first rest ih =>
      cases first with
      | message declared => exact ih.cons_cons declared
      | enum declared => exact ih
      | service declared => exact ih
      | scope name inner => exact ih.trans (List.sublist_append_right _ _)

/-- The messages of an inner namespace are among all messages. -/
theorem messagesIn_sublist {name : Text} {inner members : List Declaration}
    (h : scope name inner ∈ members) : (messagesIn inner).Sublist (messagesIn members) := by
  induction members with
  | nil => exact absurd h List.not_mem_nil
  | cons first rest ih =>
      rw [messagesIn]
      rcases List.mem_cons.mp h with rfl | h
      · exact List.sublist_append_left _ _
      · exact (ih h).trans (List.sublist_append_right _ _)

end Declaration

namespace Namespace

/-- The messages of a namespace below are among all messages. -/
theorem messages_sublist_of_find? {space found : Namespace} {path : List Text}
    (h : space.find? path = some found) :
    found.messages.Sublist (Declaration.messagesIn space.members) := by
  induction path generalizing space with
  | nil =>
      obtain rfl := Option.some.inj h
      exact Declaration.filterMap_message_sublist space.members
  | cons name path ih =>
      rw [find?] at h
      split at h
      next child hchild =>
        have hmem : child ∈ space.namespaces := List.mem_of_find?_eq_some hchild
        obtain ⟨declaration, hdeclaration, hscope⟩ := List.mem_filterMap.mp hmem
        cases declaration with
        | scope other inner =>
            obtain rfl := Option.some.inj hscope
            exact (ih h).trans (Declaration.messagesIn_sublist hdeclaration)
        | _ => exact absurd hscope (by simp [Declaration.namespace?])
      next => exact absurd h (by simp)

/-- What is declared first comes first. -/
theorem append_append (space : Namespace) (path : List Text) (first second : List Declaration) :
    (space.append path first).append path second = space.append path (first ++ second) := by
  rw [append, append, append, Declaration.updateAt_updateAt]
  simp only [List.append_assoc]

/-- Blocks bring what is collected from them at their paths. -/
theorem collect_appendAll {α : Type} {collect : List Text → List Declaration → List α}
    (h : Declaration.Collects collect) (base : List Text) (blocks : List Block)
    (space : Namespace) :
    (collect base (space.appendAll blocks).members).Perm
      (collect base space.members ++
        blocks.flatMap fun block => collect (base ++ block.1) block.2) := by
  induction blocks generalizing space with
  | nil => exact .of_eq (List.append_nil _).symm
  | cons block blocks ih =>
      rw [List.flatMap_cons, ← List.append_assoc]
      exact (ih (space.append block.1 block.2)).trans
        ((h.perm_updateAt block.2 block.1 base space.members).append_right _)

end Namespace

/-- What a statement declares. -/
def Statement.declarations : Statement → List Declaration
  | declare declarations _ => declarations
  | _ => []

/-- The statement declares no namespaces. -/
def Statement.DeclaresPlain (statement : Statement) : Prop :=
  ∀ declaration ∈ statement.declarations, declaration.isPlain

/-- The messages that a statement declares. -/
def Statement.messages : Statement → List Message
  | declare declarations _ => Declaration.messagesIn declarations
  | _ => []

namespace File

/-- A statement adds the messages that it declares. -/
theorem messagesIn_apply (file : File) (statement : Statement) :
    (Declaration.messagesIn (file.apply statement).root.members).Perm
      (Declaration.messagesIn file.root.members ++ statement.messages) := by
  cases statement with
  | declare declarations extensions =>
      exact Declaration.Collects.messagesIn.perm_updateAt declarations file.packagePath []
        file.root.members
  | _ => exact List.Perm.of_eq (List.append_nil _).symm

/-- The messages of a file are those that its statements declare. -/
theorem messagesIn_ofStatements (path : Text) (statements : List Statement) :
    (Declaration.messagesIn (ofStatements path statements).root.members).Perm
      (statements.flatMap Statement.messages) := by
  have hfold (file : File) :
      (Declaration.messagesIn (statements.foldl apply file).root.members).Perm
        (Declaration.messagesIn file.root.members ++ statements.flatMap Statement.messages) := by
    induction statements generalizing file with
    | nil => exact List.Perm.of_eq (List.append_nil _).symm
    | cons statement rest ih =>
        have hstep := (messagesIn_apply file statement).append_right
          (rest.flatMap Statement.messages)
        rw [List.foldl_cons, List.flatMap_cons, ← List.append_assoc]
        exact (ih (file.apply statement)).trans hstep
  exact hfold { path := path }

/-- The messages of the package are among those of the file. -/
theorem messages_sublist (file : File) :
    file.messages.Sublist (Declaration.messagesIn file.root.members) := by
  unfold messages packageNamespace?
  cases hfound : file.root.find? file.packagePath with
  | none => exact List.nil_sublist _
  | some found => exact Namespace.messages_sublist_of_find? hfound

/-- The effect of imports. -/
theorem foldl_apply_imported (paths : List Text) (file : File) :
    (paths.map Statement.imported).foldl apply file =
      { file with imports := file.imports ++ paths } := by
  induction paths generalizing file with
  | nil => simp
  | cons path paths ih =>
      rw [List.map_cons, List.foldl_cons, ih]
      simp [apply]

/-- The effect of options. -/
theorem foldl_apply_option (settings : List OptionSetting) (file : File) :
    (settings.map Statement.option).foldl apply file =
      { file with options := file.options ++ settings } := by
  induction settings generalizing file with
  | nil => simp
  | cons setting settings ih =>
      rw [List.map_cons, List.foldl_cons, ih]
      simp [apply]

/-- Two declarations are one. -/
theorem apply_declare_declare (file : File) (first second : List Declaration)
    (extensions others : List Field) :
    (file.apply (.declare first extensions)).apply (.declare second others) =
      file.apply (.declare (first ++ second) (extensions ++ others)) := by
  show ({ file with
      root := (file.root.append file.packagePath first).append file.packagePath second
      extensions := file.extensions ++ extensions ++ others } : File) = _
  rw [Namespace.append_append, List.append_assoc]
  rfl

/-- The effect of one or more declarations is that of all of them at once. -/
theorem foldl_apply_declare {α : Type} (declarations : α → List Declaration)
    (extensions : α → List Field) (first : α) (rest : List α) (file : File) :
    ((first :: rest).map fun part => .declare (declarations part) (extensions part)).foldl apply
      file =
      file.apply (.declare ((first :: rest).flatMap declarations)
        ((first :: rest).flatMap extensions)) := by
  induction rest generalizing first file with
  | nil => simp
  | cons second rest ih =>
      have hstep := ih second (file.apply (.declare (declarations first) (extensions first)))
      rw [List.map_cons, List.foldl_cons, hstep, apply_declare_declare]
      rfl

end File

end ProtoSchema
