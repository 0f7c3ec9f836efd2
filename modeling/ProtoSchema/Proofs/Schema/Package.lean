import Mathlib
import ProtoSchema.Mixin.Entry
import ProtoSchema.Proofs.Files.Path
import ProtoSchema.Proofs.Parser.Yields
import ProtoSchema.Proofs.Schema.Paths

/-!
# The package of a file

The tree of a file is made by its blocks of declarations, each at the path of the package in force
(`File.root_ofStatements`), so a declaration goes to the namespace of the package in force where it
stands (`File.declaredAt_ofStatements`). The package that a file ends with governs the whole file
exactly when it is in force at every declaration (`File.isGovernedBy_iff`). A declaration in front
of the package statement stays in the root (`File.not_isGovernedBy_late`).
-/

namespace ProtoSchema

/-! ### What a tree holds -/

namespace Namespace

/-- A plain declaration is in the namespace that a path leads to, by whatever children. -/
inductive Holds : Namespace → List Text → Declaration → Prop where
  | here {space : Namespace} {declaration : Declaration} (h : declaration ∈ space.plain) :
      space.Holds [] declaration
  | inside {space child : Namespace} {path : List Text} {declaration : Declaration}
      (hchild : child ∈ space.namespaces) (h : child.Holds path declaration) :
      space.Holds (child.name :: path) declaration

variable {space : Namespace} {declaration : Declaration}

/-- A child is found by its name. -/
theorem HasDistinctChildren.childOrNew_name (h : space.HasDistinctChildren) {child : Namespace}
    (hchild : child ∈ space.namespaces) : space.childOrNew child.name = child := by
  cases hfound : space.child? child.name with
  | none =>
      have hnone := List.find?_eq_none.mp hfound child hchild
      exact absurd (decide_eq_true rfl) hnone
  | some first =>
      obtain ⟨hmem, hname⟩ := of_child?_eq_some hfound
      rw [childOrNew_of_eq_some hfound]
      exact List.inj_on_of_nodup_map h.nodup hmem hchild hname

/-- Where children have distinct names, a tree holds what is declared at its paths. -/
theorem HasDistinctChildren.holds_iff (h : space.HasDistinctChildren) (path : List Text) :
    space.Holds path declaration ↔ declaration ∈ space.declaredAt path := by
  induction path generalizing space with
  | nil =>
      constructor
      · intro hholds
        cases hholds with
        | here hmem => exact hmem
      · exact .here
  | cons name path ih =>
      rw [declaredAt_cons]
      constructor
      · intro hholds
        cases hholds with
        | inside hchild hholds =>
            rw [h.childOrNew_name hchild]
            exact (ih (h.child _ hchild)).mp hholds
      · intro hmem
        have hholds := (ih (h.childOrNew name)).mpr hmem
        cases hfound : space.child? name with
        | none =>
            rw [childOrNew_of_eq_none hfound, declaredAt_empty] at hmem
            exact absurd hmem List.not_mem_nil
        | some child =>
            obtain ⟨hchild, rfl⟩ := of_child?_eq_some hfound
            rw [childOrNew_of_eq_some hfound] at hholds
            exact .inside hchild hholds

end Namespace

/-! ### Entries of a tree -/

mutual

/-- The names around a message are around all entries of it. -/
theorem Message.path_of_mem_entries {file : Text} {path : List Text} {entry : Entry} :
    ∀ message : Message, entry ∈ message.entries file path → path <+: entry.path
  | ⟨name, fields, messages, enums, options⟩, hmem => by
      rw [Message.entries] at hmem
      rcases List.mem_cons.mp hmem with rfl | hnested
      · exact List.prefix_rfl
      · exact (List.prefix_append path [name]).trans
          (Message.path_of_mem_entriesOfList messages hnested)

/-- The names around messages are around all entries of them. -/
theorem Message.path_of_mem_entriesOfList {file : Text} {path : List Text} {entry : Entry} :
    ∀ messages : List Message, entry ∈ Message.entriesOfList file path messages →
      path <+: entry.path
  | [], hmem => absurd hmem List.not_mem_nil
  | first :: rest, hmem => by
      rw [Message.entriesOfList] at hmem
      rcases List.mem_append.mp hmem with hfirst | hrest
      · exact Message.path_of_mem_entries first hfirst
      · exact Message.path_of_mem_entriesOfList rest hrest

end

mutual

/-- An entry of a member of a namespace comes from a message that the namespace holds. -/
theorem Declaration.holds_of_mem_entries {file : Text} {path : List Text} {entry : Entry}
    (space : Namespace) : ∀ declaration ∈ space.members, entry ∈ declaration.entries file path →
      ∃ inner message, space.Holds inner (.message message) ∧
        entry ∈ message.entries file (path ++ inner)
  | .message declared, hmember, hmem => by
      refine ⟨[], declared, .here (List.mem_filter.mpr ⟨hmember, rfl⟩), ?_⟩
      rw [List.append_nil]
      exact hmem
  | .enum _, _, hmem => absurd hmem List.not_mem_nil
  | .service _, _, hmem => absurd hmem List.not_mem_nil
  | .scope name members, hmember, hmem => by
      obtain ⟨inner, message, hholds, hentry⟩ :=
        Declaration.holds_of_mem_entriesOfList ⟨name, members⟩ members (fun _ h => h) hmem
      have hchild : ⟨name, members⟩ ∈ space.namespaces := List.mem_filterMap.mpr ⟨_, hmember, rfl⟩
      refine ⟨name :: inner, message, .inside hchild hholds, ?_⟩
      rwa [List.append_assoc] at hentry

/-- An entry of members of a namespace comes from a message that the namespace holds. -/
theorem Declaration.holds_of_mem_entriesOfList {file : Text} {path : List Text} {entry : Entry}
    (space : Namespace) : ∀ declarations : List Declaration, declarations ⊆ space.members →
      entry ∈ Declaration.entriesOfList file path declarations →
      ∃ inner message, space.Holds inner (.message message) ∧
        entry ∈ message.entries file (path ++ inner)
  | [], _, hmem => absurd hmem List.not_mem_nil
  | first :: rest, hmembers, hmem => by
      obtain ⟨hfirst, hrest⟩ := List.cons_subset.mp hmembers
      rw [Declaration.entriesOfList] at hmem
      rcases List.mem_append.mp hmem with hmem | hmem
      · exact Declaration.holds_of_mem_entries space first hfirst hmem
      · exact Declaration.holds_of_mem_entriesOfList space rest hrest hmem

end

/-! ### Statements and their packages -/

namespace Statement

/-- The package of a package statement has a name, and what is declared is no namespace. -/
def IsPlain : Statement → Prop
  | package name => name ≠ []
  | declare declarations _ => ∀ declaration ∈ declarations, declaration.isPlain
  | _ => True

/-- A plain statement declares no namespaces. -/
theorem IsPlain.declaresPlain {statement : Statement} (h : statement.IsPlain) :
    statement.DeclaresPlain := by
  cases statement with
  | declare declarations extensions => exact h
  | _ => exact fun _ hmem => absurd hmem List.not_mem_nil

/-- The declarations of statements, each with the package in force where it stands, after a part of
a file that leaves this package. -/
def placements (package : Option Text) : List Statement → List (Option Text × Declaration)
  | [] => []
  | .package name :: rest => placements (some name) rest
  | .declare declarations _ :: rest => declarations.map (package, ·) ++ placements package rest
  | _ :: rest => placements package rest

end Statement

namespace Parse.Yields

/-- A statement of a file is plain. -/
theorem plainStatement :
    Yields Parse.statement fun _ statement? =>
      ∀ statement ∈ statement?.toList, statement.IsPlain := by
  have hsome {statement : Statement} (h : statement.IsPlain) :
      ∀ other ∈ (some statement).toList, other.IsPlain := by
    intro other hother
    rwa [List.mem_singleton.mp hother]
  have hmessages (members : Members) : (declaring members).IsPlain := by
    intro declaration hmem
    obtain ⟨message, -, rfl⟩ := List.mem_map.mp hmem
    rfl
  have hone {declaration : Declaration} (h : declaration.isPlain) :
      (Statement.declare [declaration] []).IsPlain := by
    intro other hother
    rwa [List.mem_singleton.mp hother]
  refine skip LeftToRight.peekKind.consumes fun kind? => ?_
  split
  · refine after dialectStatement fun _ h => ?_
    obtain ⟨name, rfl⟩ := h
    exact pure (hsome trivial)
  · refine after packageStatement fun _ h => ?_
    obtain ⟨name, hname, rfl⟩ := h
    obtain ⟨c, rest, rfl, -⟩ := (Lexer.isIdentifier_iff.mp hname).1.exists_cons
    exact pure (hsome (List.cons_ne_nil c rest))
  · refine after importStatement fun _ h => ?_
    obtain ⟨path, rfl⟩ := h
    exact pure (hsome trivial)
  · exact skip LeftToRight.optionStatement.consumes fun _ => pure (hsome trivial)
  · exact skip (LeftToRight.messageBody.message).consumes fun members =>
      pure (hsome (hmessages members))
  · exact skip LeftToRight.enumType.consumes fun _ => pure (hsome (hone rfl))
  · exact skip LeftToRight.service.consumes fun _ => pure (hsome (hone rfl))
  · exact skip (LeftToRight.messageBody.extension).consumes fun members =>
      pure (hsome (hmessages members))
  · exact skip LeftToRight.skip.consumes fun _ => pure fun _ h => absurd h List.not_mem_nil
  · exact fun _ _ _ _ h => ok_error_elim h rfl

/-- The statements of a file are plain. -/
theorem plainStatements :
    Yields Parse.statements fun _ statements => ∀ statement ∈ statements, statement.IsPlain :=
  statementsOf (fun _ h => absurd h List.not_mem_nil)
    (fun _ _ _ _ hfirst hothers => List.forall_mem_append.mpr ⟨hfirst, hothers⟩) plainStatement

end Parse.Yields

namespace File

/-- The path of the namespace that a package names. -/
def pathOf (package : Option Text) : List Text :=
  ({ package } : File).packagePath

end File

/-- The blocks of declarations of statements, after a part of a file that leaves this package. -/
def Statement.blocks (package : Option Text) : List Statement → List Namespace.Block
  | [] => []
  | .package name :: rest => blocks (some name) rest
  | .declare declarations _ :: rest => (File.pathOf package, declarations) :: blocks package rest
  | _ :: rest => blocks package rest

/-- There are no namespaces in the blocks of statements that declare none. -/
theorem Statement.plain_blocks {statements : List Statement}
    (h : ∀ statement ∈ statements, statement.DeclaresPlain) (package : Option Text) :
    ∀ block ∈ blocks package statements, ∀ declaration ∈ block.2, declaration.isPlain := by
  induction statements generalizing package with
  | nil => exact fun _ hmem => absurd hmem List.not_mem_nil
  | cons statement rest ih =>
      obtain ⟨hstatement, hrest⟩ := List.forall_mem_cons.mp h
      cases statement with
      | declare declarations extensions =>
          exact List.forall_mem_cons.mpr ⟨hstatement, ih hrest package⟩
      | package name => exact ih hrest (some name)
      | _ => exact ih hrest package

namespace File

variable {statements : List Statement}

/-- The tree after some statements has their blocks. -/
theorem root_foldl_apply (statements : List Statement) (file : File) :
    (statements.foldl apply file).root =
      file.root.appendAll (Statement.blocks file.package statements) := by
  induction statements generalizing file with
  | nil => rfl
  | cons statement rest ih =>
      rw [List.foldl_cons, ih]
      cases statement <;> rfl

/-- The tree of a file is made by its blocks. -/
theorem root_ofStatements (path : Text) (statements : List Statement) :
    (ofStatements path statements).root =
      ({} : Namespace).appendAll (Statement.blocks none statements) :=
  root_foldl_apply statements { path }

/-- The children of all namespaces of a file have distinct names. -/
theorem hasDistinctChildren_ofStatements (hplain : ∀ statement ∈ statements, statement.IsPlain)
    (path : Text) : (ofStatements path statements).root.HasDistinctChildren := by
  rw [root_ofStatements]
  have hdeclared (statement) (hmem : statement ∈ statements) :=
    (hplain statement hmem).declaresPlain
  exact (Namespace.HasDistinctChildren.empty []).appendAll (Statement.plain_blocks hdeclared none)

/-- The declarations in the blocks at a path are those with a package of this path in force. -/
theorem flatMap_blocks (package : Option Text) (statements : List Statement) (other : List Text) :
    ((Statement.blocks package statements).flatMap fun block =>
        if other = block.1 then block.2 else []) =
      ((Statement.placements package statements).filter fun placed =>
        pathOf placed.1 = other).map Prod.snd := by
  induction statements generalizing package with
  | nil => rfl
  | cons statement rest ih =>
      cases statement with
      | declare declarations extensions =>
          have hblock : ((declarations.map (package, ·)).filter fun placed =>
              pathOf placed.1 = other).map Prod.snd =
                if other = pathOf package then declarations else [] := by
            rw [List.filter_map, List.map_map]
            by_cases h : other = pathOf package
            · simp [h, Function.comp_def]
            · simp [h, Ne.symm h, Function.comp_def]
          rw [Statement.blocks, Statement.placements, List.flatMap_cons, List.filter_append,
            List.map_append, hblock, ih]
      | package name => exact ih (some name)
      | _ => exact ih package

/-- A declaration goes to the namespace of the package in force where it stands. -/
theorem declaredAt_ofStatements (hplain : ∀ statement ∈ statements, statement.IsPlain)
    (path : Text) (other : List Text) :
    (ofStatements path statements).root.declaredAt other =
      ((Statement.placements none statements).filter fun placed =>
        pathOf placed.1 = other).map Prod.snd := by
  have hdeclared (statement) (hmem : statement ∈ statements) :=
    (hplain statement hmem).declaresPlain
  rw [root_ofStatements,
    Namespace.declaredAt_appendAll (Statement.plain_blocks hdeclared none),
    Namespace.declaredAt_empty, List.nil_append, flatMap_blocks]

/-- The package that a file ends with has a name. -/
theorem package_ne_nil (hplain : ∀ statement ∈ statements, statement.IsPlain) (path : Text) :
    ∀ name, (ofStatements path statements).package = some name → name ≠ [] := by
  refine List.foldlRecOn statements apply
    (motive := fun file => ∀ name, file.package = some name → name ≠ [])
    ?initial fun file h statement hmem => ?step
  case initial => exact fun name h => absurd h (by simp)
  case step =>
    have hstatement := hplain statement hmem
    cases statement with
    | package name => exact fun other hother => Option.some.inj hother ▸ hstatement
    | _ => exact h

/-- The package governs the whole file: all entries are below its namespace, and its namespace is
the only one with declarations. -/
structure IsGovernedBy (file : File) (package : Text) : Prop where
  entries : ∀ entry ∈ file.entries, Text.split '.' package <+: entry.path
  declarations : ∀ path declaration, file.root.Holds path declaration →
    path = Text.split '.' package

/-- Where all declarations are in the namespace of a package, the entries are below it. -/
theorem IsGovernedBy.of_holds {file : File} {package : Text}
    (h : ∀ path declaration, file.root.Holds path declaration → path = Text.split '.' package) :
    file.IsGovernedBy package where
  declarations := h
  entries entry hentry := by
    obtain ⟨inner, message, hholds, hmem⟩ :=
      Declaration.holds_of_mem_entriesOfList file.root file.root.members (fun _ h => h) hentry
    obtain rfl := h inner _ hholds
    exact Message.path_of_mem_entries message hmem

/-- A package with a name is the one of which the path is its parts. -/
theorem pathOf_eq_split_iff {package : Text} (h : package ≠ []) (other : Option Text) :
    pathOf other = Text.split '.' package ↔ other = some package := by
  have hroot : ([] : List Text) ≠ Text.split '.' package := (Text.split_ne_nil package).symm
  match other with
  | none => simpa [pathOf, packagePath] using hroot
  | some [] => simpa [pathOf, packagePath, Ne.symm h] using hroot
  | some (c :: rest) =>
      rw [Option.some.injEq]
      exact Text.split_injective.eq_iff

/-- The declarations of a parsed file go to the namespaces of the packages in force where they
stand. So the package of the file governs it exactly when it is in force at every declaration. -/
theorem isGovernedBy_iff {text path package : Text} {file : File}
    (hparse : File.parse text path = .ok file) (hpackage : file.package = some package) :
    ∃ scan statements, Lexer.scan text = .ok scan ∧
      Statement.ofTokens scan.tokens = .ok statements ∧
      file = .ofStatements path statements ∧
      (∀ other, file.root.declaredAt other =
        ((Statement.placements none statements).filter fun placed =>
          pathOf placed.1 = other).map Prod.snd) ∧
      (file.IsGovernedBy package ↔
        ∀ placed ∈ Statement.placements none statements, placed.1 = some package) := by
  obtain ⟨scan, statements, rest, hscan, hscanned, hrun, rfl⟩ := exists_statements_of_parse hparse
  have hplain : ∀ statement ∈ statements, statement.IsPlain := by
    obtain ⟨-, -, -, hplain⟩ :=
      Parse.Yields.plainStatements scan.tokens statements rest hscanned hrun
    exact hplain
  have hname := package_ne_nil hplain path package hpackage
  have hplaced := declaredAt_ofStatements hplain path
  have hholds (other : List Text) (declaration : Declaration) :
      (ofStatements path statements).root.Holds other declaration ↔
        ∃ package, (package, declaration) ∈ Statement.placements none statements ∧
          pathOf package = other := by
    rw [(hasDistinctChildren_ofStatements hplain path).holds_iff, hplaced]
    simp
  refine ⟨scan, statements, hscan, map_eq_ok_iff.mpr ⟨_, hrun, rfl⟩, rfl, hplaced, ?_⟩
  constructor
  · intro hgoverned placed hmem
    have hpath := hgoverned.declarations _ placed.2 ((hholds _ _).mpr ⟨placed.1, hmem, rfl⟩)
    exact (pathOf_eq_split_iff hname placed.1).mp hpath
  · intro hforce
    refine .of_holds fun other declaration hdeclaration => ?_
    obtain ⟨inForce, hmem, rfl⟩ := (hholds other declaration).mp hdeclaration
    exact (pathOf_eq_split_iff hname inForce).mpr (hforce _ hmem)

/-- A text with its package statement in front of a message. -/
def packageFirst : Text :=
  "package p;\nmessage A \x7b\x7d"

/-- Its package governs the file. -/
theorem isGovernedBy_packageFirst :
    let file : File :=
      { package := some "p", root := { members := [.scope "p" [.message { name := "A" }]] } }
    (File.parse packageFirst [] = .ok file ∧ file.package = some "p") ∧ file.IsGovernedBy "p" := by
  intro file
  have hparse : File.parse packageFirst [] = .ok file := by cbv
  refine ⟨⟨hparse, rfl⟩, ?_⟩
  obtain ⟨scan, statements, hscan, hstatements, -, -, hiff⟩ := isGovernedBy_iff hparse rfl
  have hspelled : (Lexer.scan packageFirst).toOption.map (fun scan =>
      (Statement.ofTokens scan.tokens).toOption) =
      some (some [.package "p", .declare [.message { name := "A" }] []]) := by cbv
  rw [hscan] at hspelled
  obtain rfl : statements = [.package "p", .declare [.message { name := "A" }] []] := by
    simpa [Except.toOption, hstatements] using hspelled
  refine hiff.mpr fun placed hplaced => ?_
  obtain rfl := List.mem_singleton.mp hplaced
  rfl

/-- A message in front of the package statement stays in the root, and so does its entry. -/
theorem not_isGovernedBy_late :
    ∃ file, File.parse "message A \x7b\x7d\npackage p;" "t.proto" = .ok file ∧
      file.package = some "p" ∧ file.root.Holds [] (.message { name := "A" }) ∧
      ¬ file.IsGovernedBy "p" := by
  refine ⟨{ path := "t.proto", package := some "p",
            root := { members := [.message { name := "A" }] } }, ?_, rfl, ?_, ?_⟩
  · cbv
  · exact .here List.mem_cons_self
  · intro h
    have hentry := h.entries ⟨"t.proto", [], { name := "A" }⟩ List.mem_cons_self
    exact absurd (List.prefix_nil.mp hentry) (Text.split_ne_nil _)

end File

end ProtoSchema
