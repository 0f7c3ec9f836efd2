import Mathlib.Data.List.Nodup
import ProtoSchema.Schema.File

/-!
# Namespaces by their paths

Appending at a path changes what is found at that path, opens the namespaces on the way to it, and
leaves all other paths alone (`Namespace.find?_append`). So the tree of a file is a map from paths
to lists of declarations: `File.edits_refine` says this of every sequence of edits, which also never
make two namespaces of one name side by side.
-/

namespace ProtoSchema

/-! ### Members of a namespace -/

namespace Declaration

/-- The declaration is no namespace. -/
def isPlain (declaration : Declaration) : Bool :=
  declaration.namespace?.isNone

/-- Members are namespaces or plain declarations. -/
theorem members_induction {motive : List Declaration → Prop} (nil : motive [])
    (scope : ∀ name inner rest, motive rest → motive (scope name inner :: rest))
    (plain : ∀ declaration rest, declaration.isPlain → motive rest → motive (declaration :: rest))
    (members : List Declaration) : motive members := by
  induction members with
  | nil => exact nil
  | cons first rest ih =>
      cases first with
      | scope name inner => exact scope name inner rest ih
      | message declared => exact plain (.message declared) rest rfl ih
      | enum declared => exact plain (.enum declared) rest rfl ih
      | service declared => exact plain (.service declared) rest rfl ih

variable {update : List Declaration → List Declaration} {declaration : Declaration}

/-- An update of a namespace passes over plain declarations. -/
theorem updateScope_of_isPlain (name : Text) (rest : List Declaration) (h : declaration.isPlain) :
    updateScope name update (declaration :: rest) =
      declaration :: updateScope name update rest := by
  cases declaration with
  | scope other inner => cases h
  | _ => rfl

/-- An update of a namespace leaves plain declarations alone. -/
theorem filter_updateScope (name : Text) (members : List Declaration) :
    (updateScope name update members).filter isPlain = members.filter isPlain := by
  induction members using members_induction with
  | nil => rfl
  | scope other inner rest ih =>
      rw [updateScope]
      split
      · rfl
      · exact ih
  | plain declaration rest hplain ih =>
      rw [updateScope_of_isPlain name rest hplain, List.filter_cons_of_pos hplain,
        List.filter_cons_of_pos hplain, ih]

/-- Plain declarations are no namespaces. -/
theorem filterMap_namespace?_of_isPlain {declarations : List Declaration}
    (h : ∀ declaration ∈ declarations, declaration.isPlain) :
    declarations.filterMap namespace? = [] :=
  List.filterMap_eq_nil_iff.mpr fun declaration hmem =>
    Option.isNone_iff_eq_none.mp (h declaration hmem)

/-- A view that shows no namespaces shows the plain declarations alone. -/
theorem filterMap_filter_isPlain {α : Type} {view : Declaration → Option α}
    (h : ∀ name inner, view (scope name inner) = none) (members : List Declaration) :
    (members.filter isPlain).filterMap view = members.filterMap view := by
  induction members using members_induction with
  | nil => rfl
  | scope name inner rest ih => rwa [List.filterMap_cons_none (h name inner)]
  | plain declaration rest hplain ih =>
      rw [List.filter_cons_of_pos hplain, List.filterMap_cons, List.filterMap_cons, ih]

/-- An update of a namespace goes to the first of its name, or to a new one after all others. -/
theorem namespaces_updateScope (update : List Declaration → List Declaration) (name : Text)
    (members : List Declaration) :
    (∃ before child after, members.filterMap namespace? = before ++ child :: after ∧
      (∀ other ∈ before, other.name ≠ name) ∧ child.name = name ∧
      (updateScope name update members).filterMap namespace? =
        before ++ { child with members := update child.members } :: after) ∨
    ((∀ other ∈ members.filterMap namespace?, other.name ≠ name) ∧
      (updateScope name update members).filterMap namespace? =
        members.filterMap namespace? ++ [⟨name, update []⟩]) := by
  induction members using members_induction with
  | nil => exact .inr ⟨fun other h => absurd h List.not_mem_nil, rfl⟩
  | scope found inner rest ih =>
      by_cases hfound : found = name
      · refine .inl ⟨[], ⟨found, inner⟩, rest.filterMap namespace?, rfl,
          fun other h => absurd h List.not_mem_nil, hfound, ?_⟩
        rw [updateScope, if_pos hfound]
        rfl
      · have hlater : (updateScope name update (scope found inner :: rest)).filterMap namespace? =
            ⟨found, inner⟩ :: (updateScope name update rest).filterMap namespace? := by
          rw [updateScope, if_neg hfound]
          rfl
        rcases ih with ⟨before, child, after, hrest, hbefore, hchild, hupdated⟩ | ⟨hrest, hupdated⟩
        · refine .inl ⟨⟨found, inner⟩ :: before, child, after, ?_, ?_, hchild, ?_⟩
          · exact congrArg (List.cons _) hrest
          · exact List.forall_mem_cons.mpr ⟨hfound, hbefore⟩
          · rw [hlater, hupdated, List.cons_append]
        · refine .inr ⟨List.forall_mem_cons.mpr ⟨hfound, hrest⟩, ?_⟩
          rw [hlater, hupdated]
          rfl
  | plain declaration rest hplain ih =>
      have hnone : declaration.namespace? = none := Option.isNone_iff_eq_none.mp hplain
      rwa [updateScope_of_isPlain name rest hplain, List.filterMap_cons_none hnone,
        List.filterMap_cons_none hnone]

end Declaration

namespace Namespace

open Declaration (isPlain)

/-- The declarations in a namespace that are no namespaces. -/
def plain (space : Namespace) : List Declaration :=
  space.members.filter isPlain

/-- The child of a name, a new one if there is none. -/
def childOrNew (space : Namespace) (name : Text) : Namespace :=
  (space.child? name).getD { name }

/-- The namespace at a path, new ones where there are none. -/
def descend (space : Namespace) (path : List Text) : Namespace :=
  path.foldl childOrNew space

/-- The plain declarations of the namespace at a path, none if it does not exist. -/
def declaredAt (space : Namespace) (path : List Text) : List Declaration :=
  ((space.find? path).map plain).getD []

/-- No two children of a namespace or of one below have the same name. -/
inductive HasDistinctChildren : Namespace → Prop where
  | intro {space : Namespace} (nodup : (space.namespaces.map name).Nodup)
      (children : ∀ child ∈ space.namespaces, child.HasDistinctChildren) : space.HasDistinctChildren

variable {space : Namespace} {declarations : List Declaration}

/-! ### Look-up -/

/-- Look-up below a namespace goes through its first child of the name. -/
theorem find?_cons (space : Namespace) (name : Text) (path : List Text) :
    space.find? (name :: path) = (space.child? name).bind fun child => child.find? path := by
  rw [find?]
  cases space.child? name <;> rfl

/-- There is nothing below an empty namespace. -/
theorem find?_empty (name next : Text) (path : List Text) :
    ({ name } : Namespace).find? (next :: path) = none :=
  rfl

/-- There are no declarations in an empty namespace. -/
theorem declaredAt_empty (name : Text) (path : List Text) :
    ({ name } : Namespace).declaredAt path = [] := by
  cases path <;> rfl

/-- A child that is found by a name is a child of this name. -/
theorem of_child?_eq_some {name : Text} {child : Namespace} (h : space.child? name = some child) :
    child ∈ space.namespaces ∧ child.name = name := by
  have hname := List.find?_some h
  exact ⟨List.mem_of_find?_eq_some h, of_decide_eq_true hname⟩

/-- The child that is found by a name is no new one. -/
theorem childOrNew_of_eq_some {name : Text} {child : Namespace}
    (h : space.child? name = some child) : space.childOrNew name = child := by
  rw [childOrNew, h, Option.getD_some]

/-- A name by which no child is found leads to a new one. -/
theorem childOrNew_of_eq_none {name : Text} (h : space.child? name = none) :
    space.childOrNew name = { name } := by
  rw [childOrNew, h, Option.getD_none]

/-- The child of a name has the name, whether or not it is new. -/
theorem name_childOrNew (space : Namespace) (name : Text) :
    (space.childOrNew name).name = name := by
  cases h : space.child? name with
  | none => rw [childOrNew_of_eq_none h]
  | some child => rw [childOrNew_of_eq_some h, (of_child?_eq_some h).2]

/-- What is declared below a namespace is declared below a child of it. -/
theorem declaredAt_cons (space : Namespace) (name : Text) (path : List Text) :
    space.declaredAt (name :: path) = (space.childOrNew name).declaredAt path := by
  rw [declaredAt, find?_cons]
  cases h : space.child? name with
  | none => rw [childOrNew_of_eq_none h, declaredAt_empty]; rfl
  | some child => rw [childOrNew_of_eq_some h]; rfl

/-- The namespace that a path leads to has the declarations at the path. -/
theorem plain_descend (space : Namespace) (path : List Text) :
    (space.descend path).plain = space.declaredAt path := by
  induction path generalizing space with
  | nil => rfl
  | cons name path ih => rw [declaredAt_cons, ← ih]; rfl

/-! ### One addition -/

/-- An addition to a namespace itself leaves its children alone. -/
theorem namespaces_append_nil (h : ∀ declaration ∈ declarations, declaration.isPlain) :
    (space.append [] declarations).namespaces = space.namespaces := by
  show (space.members ++ declarations).filterMap Declaration.namespace? = _
  rw [List.filterMap_append, Declaration.filterMap_namespace?_of_isPlain h, List.append_nil]
  rfl

/-- An addition below a namespace goes to the first child of the name, or to a new one after all
others. -/
theorem namespaces_append_cons (space : Namespace) (name : Text) (path : List Text)
    (declarations : List Declaration) :
    ∃ before after, (∀ other ∈ before, other.name ≠ name) ∧
      (space.append (name :: path) declarations).namespaces =
        before ++ (space.childOrNew name).append path declarations :: after ∧
      (space.namespaces = before ++ space.childOrNew name :: after ∨
        space.namespaces = before ∧ after = []) := by
  rcases Declaration.namespaces_updateScope (Declaration.updateAt (· ++ declarations) path) name
      space.members with
    ⟨before, child, after, hold, hbefore, hchild, hnew⟩ | ⟨hnone, hnew⟩
  · have hfound : space.childOrNew name = child := by
      have hfind : space.child? name = some child := by
        rw [child?, namespaces, hold, List.find?_append,
          List.find?_eq_none.mpr (by simpa using hbefore), List.find?_cons_of_pos (by simpa)]
        rfl
      exact childOrNew_of_eq_some hfind
    refine ⟨before, after, hbefore, ?_, .inl ?_⟩
    · rw [hfound]
      exact hnew
    · rw [hfound]
      exact hold
  · have hfound : space.childOrNew name = { name } := by
      have hfind : space.child? name = none :=
        List.find?_eq_none.mpr (by simpa [namespaces] using hnone)
      exact childOrNew_of_eq_none hfind
    refine ⟨space.namespaces, [], hnone, ?_, .inr ⟨rfl, rfl⟩⟩
    rw [hfound]
    exact hnew

/-- An addition below a namespace changes the child of the name alone. -/
theorem child?_append_cons (space : Namespace) (name other : Text) (path : List Text)
    (declarations : List Declaration) :
    (space.append (name :: path) declarations).child? other =
      if other = name then some ((space.childOrNew name).append path declarations)
      else space.child? other := by
  obtain ⟨before, after, hbefore, hnew, hold⟩ :=
    namespaces_append_cons space name path declarations
  have hname : ((space.childOrNew name).append path declarations).name = name :=
    name_childOrNew space name
  rw [child?, child?, hnew, List.find?_append]
  split
  next heq =>
    rw [heq, List.find?_eq_none.mpr (by simpa using hbefore), List.find?_cons_of_pos (by simpa)]
    rfl
  next hne =>
    rw [List.find?_cons_of_neg (by simpa [hname] using Ne.symm hne)]
    rcases hold with hold | ⟨hold, rfl⟩
    · rw [hold, List.find?_append,
        List.find?_cons_of_neg (by simpa [name_childOrNew] using Ne.symm hne)]
    · rw [hold, List.find?_nil, Option.or_none]

/-- An addition changes the namespaces on the way to its path, which then exist, and no others. -/
theorem find?_append (h : ∀ declaration ∈ declarations, declaration.isPlain) (space : Namespace)
    (path other : List Text) :
    (space.append path declarations).find? other =
      if other <+: path then
        some ((space.descend other).append (path.drop other.length) declarations)
      else space.find? other := by
  induction other generalizing space path with
  | nil => rw [if_pos List.nil_prefix]; rfl
  | cons name other ih =>
      cases path with
      | nil =>
          rw [if_neg (by simp), find?_cons, find?_cons, child?, namespaces_append_nil h]
          rfl
      | cons next path =>
          rw [find?_cons, child?_append_cons]
          by_cases hname : name = next
          · subst hname
            rw [if_pos rfl, Option.bind_some, ih]
            by_cases hthrough : other <+: path
            · rw [if_pos hthrough, if_pos (List.cons_prefix_cons.mpr ⟨rfl, hthrough⟩)]
              rfl
            · rw [if_neg hthrough, if_neg (by simpa using hthrough), find?_cons]
              cases hchild : space.child? name with
              | some child => rw [childOrNew_of_eq_some hchild]; rfl
              | none =>
                  rw [childOrNew_of_eq_none hchild]
                  cases other with
                  | nil => exact absurd List.nil_prefix hthrough
                  | cons => rfl
          · rw [if_neg hname, if_neg (by simp [hname]), find?_cons]

/-- A namespace exists after an addition if it did before or is on the way to the addition. -/
theorem isSome_find?_append (h : ∀ declaration ∈ declarations, declaration.isPlain)
    (space : Namespace) (path other : List Text) :
    ((space.append path declarations).find? other).isSome ↔
      other <+: path ∨ (space.find? other).isSome := by
  rw [find?_append h]
  by_cases hthrough : other <+: path
  · simp [hthrough]
  · simp [hthrough]

/-- The plain declarations of a namespace that is added to. -/
theorem plain_append (h : ∀ declaration ∈ declarations, declaration.isPlain) (space : Namespace)
    (path : List Text) :
    (space.append path declarations).plain =
      space.plain ++ if path = [] then declarations else [] := by
  cases path with
  | nil =>
      show (space.members ++ declarations).filter isPlain = _
      rw [List.filter_append, List.filter_eq_self.mpr h]
      rfl
  | cons name path =>
      rw [if_neg (List.cons_ne_nil name path), List.append_nil]
      exact Declaration.filter_updateScope name space.members

/-- An addition adds at its path and nowhere else. -/
theorem declaredAt_append (h : ∀ declaration ∈ declarations, declaration.isPlain)
    (space : Namespace) (path other : List Text) :
    (space.append path declarations).declaredAt other =
      space.declaredAt other ++ if other = path then declarations else [] := by
  rw [declaredAt, find?_append h]
  by_cases hthrough : other <+: path
  · have hend : path.drop other.length = [] ↔ other = path := by
      rw [List.drop_eq_nil_iff]
      exact ⟨hthrough.eq_of_length_le, fun heq => heq ▸ Nat.le_refl _⟩
    rw [if_pos hthrough, Option.map_some, Option.getD_some, plain_append h, plain_descend]
    simp only [hend]
  · have hne : other ≠ path := fun heq => hthrough (heq ▸ List.prefix_rfl)
    rw [if_neg hthrough, if_neg hne, List.append_nil]
    rfl

/-! ### Names of children -/

namespace HasDistinctChildren

/-- The children of a namespace have distinct names. -/
theorem nodup (h : space.HasDistinctChildren) : (space.namespaces.map name).Nodup := by
  cases h with
  | intro nodup _ => exact nodup

/-- The children of every child have distinct names. -/
theorem child (h : space.HasDistinctChildren) :
    ∀ child ∈ space.namespaces, child.HasDistinctChildren := by
  cases h with
  | intro _ children => exact children

/-- An empty namespace has no children. -/
theorem empty (name : Text) : HasDistinctChildren { name } :=
  .intro List.nodup_nil fun _ h => absurd h List.not_mem_nil

/-- The children of a child that may be new have distinct names. -/
theorem childOrNew (h : space.HasDistinctChildren) (name : Text) :
    (space.childOrNew name).HasDistinctChildren := by
  cases hchild : space.child? name with
  | none => exact childOrNew_of_eq_none hchild ▸ empty name
  | some child => exact childOrNew_of_eq_some hchild ▸ h.child child (of_child?_eq_some hchild).1

/-- No addition makes two children of one name. -/
theorem append (hplain : ∀ declaration ∈ declarations, declaration.isPlain) (path : List Text)
    (h : space.HasDistinctChildren) : (space.append path declarations).HasDistinctChildren := by
  induction path generalizing space with
  | nil =>
      refine .intro ?_ ?_
      · rw [namespaces_append_nil hplain]
        exact h.nodup
      · rw [namespaces_append_nil hplain]
        exact h.child
  | cons name path ih =>
      obtain ⟨before, after, hbefore, hnew, hold⟩ :=
        namespaces_append_cons space name path declarations
      have hname : ((space.childOrNew name).append path declarations).name = name :=
        name_childOrNew space name
      refine .intro ?_ ?_
      · rw [hnew, List.map_append, List.map_cons, hname]
        rcases hold with hold | ⟨hold, rfl⟩
        · have hnodup := h.nodup
          rwa [hold, List.map_append, List.map_cons, name_childOrNew] at hnodup
        · have hfresh : name ∉ before.map Namespace.name := by simpa using hbefore
          rw [List.nodup_middle, List.map_nil, List.append_nil]
          exact List.nodup_cons.mpr ⟨hfresh, hold ▸ h.nodup⟩
      · intro child hchild
        have hothers : child ∈ before ∨ child ∈ after → child ∈ space.namespaces := by
          rcases hold with hold | ⟨hold, rfl⟩
          · rw [hold, List.mem_append, List.mem_cons]
            tauto
          · rw [hold]
            simp
        rw [hnew, List.mem_append, List.mem_cons] at hchild
        rcases hchild with hchild | rfl | hchild
        · exact h.child child (hothers (.inl hchild))
        · exact ih (h.childOrNew name)
        · exact h.child child (hothers (.inr hchild))

end HasDistinctChildren

/-! ### Several additions -/

/-- Declarations that go to a path. -/
abbrev Block : Type :=
  List Text × List Declaration

/-- Append the blocks, one after the other. -/
def appendAll (space : Namespace) (blocks : List Block) : Namespace :=
  blocks.foldl (fun space block => space.append block.1 block.2) space

variable {blocks : List Block}

/-- Blocks never make two children of one name. -/
theorem HasDistinctChildren.appendAll
    (hplain : ∀ block ∈ blocks, ∀ declaration ∈ block.2, declaration.isPlain)
    (h : space.HasDistinctChildren) : (space.appendAll blocks).HasDistinctChildren :=
  List.foldlRecOn blocks _ h fun _ hspace block hmem => hspace.append (hplain block hmem) block.1

/-- The namespaces after some blocks are those from before, and those on the way to a block. -/
theorem isSome_find?_appendAll
    (hplain : ∀ block ∈ blocks, ∀ declaration ∈ block.2, declaration.isPlain) (space : Namespace)
    (path : List Text) :
    ((space.appendAll blocks).find? path).isSome ↔
      (space.find? path).isSome ∨ ∃ block ∈ blocks, path <+: block.1 := by
  induction blocks generalizing space with
  | nil => simp [appendAll]
  | cons block blocks ih =>
      obtain ⟨hblock, hblocks⟩ := List.forall_mem_cons.mp hplain
      show ((appendAll (space.append block.1 block.2) blocks).find? path).isSome ↔ _
      rw [ih hblocks, isSome_find?_append hblock, List.exists_mem_cons_iff]
      tauto

/-- What is declared at a path after some blocks is what was declared before, and then what the
blocks at this path bring. -/
theorem declaredAt_appendAll
    (hplain : ∀ block ∈ blocks, ∀ declaration ∈ block.2, declaration.isPlain) (space : Namespace)
    (path : List Text) :
    (space.appendAll blocks).declaredAt path =
      space.declaredAt path ++
        blocks.flatMap fun block => if path = block.1 then block.2 else [] := by
  induction blocks generalizing space with
  | nil => exact (List.append_nil _).symm
  | cons block blocks ih =>
      obtain ⟨hblock, hblocks⟩ := List.forall_mem_cons.mp hplain
      show (appendAll (space.append block.1 block.2) blocks).declaredAt path = _
      rw [ih hblocks, declaredAt_append hblock, List.flatMap_cons, List.append_assoc]

end Namespace

/-! ### Histories of a file -/

/-- A declaration that is no namespace. -/
abbrev Declaration.Plain : Type :=
  { declaration : Declaration // declaration.isPlain }

namespace File

/-- One use of a file that is being put together. The last two open a namespace, that of the package
or that at a path, and may append a declaration to it. -/
inductive Edit where
  | setPackage (name : Option Text)
  | inPackage (added : Option Declaration.Plain)
  | inNamespace (path : List Text) (added : Option Declaration.Plain)

/-- What a use appends to the namespace that it opens. -/
def Edit.appended (added : Option Declaration.Plain) : List Declaration :=
  added.toList.map Subtype.val

/-- The effect of one use. -/
def edit (file : File) : Edit → File
  | .setPackage name => { file with package := name }
  | .inPackage added => file.declare (Edit.appended added)
  | .inNamespace path added => { file with root := file.root.append path (Edit.appended added) }

end File

/-- A record of what was done to a file: the package set last, the paths at which a namespace was
opened, and what was appended at every path. -/
structure Ledger where
  package : Option Text := none
  opened : List (List Text) := [[]]
  declared : List Text → List Declaration := fun _ => []

namespace Ledger

open File (Edit)

/-- The path that the package names. No package and an empty one name the root. -/
def packagePath (ledger : Ledger) : List Text :=
  match ledger.package with
  | none | some [] => []
  | some name => Text.split '.' name

/-- Record that the namespace at a path was opened and appended to. -/
def record (ledger : Ledger) (path : List Text) (declarations : List Declaration) : Ledger :=
  { ledger with
    opened := path :: ledger.opened
    declared := Function.update ledger.declared path (ledger.declared path ++ declarations) }

/-- Record one use of the file. -/
def edit (ledger : Ledger) : Edit → Ledger
  | .setPackage name => { ledger with package := name }
  | .inPackage added => ledger.record ledger.packagePath (Edit.appended added)
  | .inNamespace path added => ledger.record path (Edit.appended added)

/-- The tree of a file is the one that its ledger tells of. -/
structure Describes (ledger : Ledger) (file : File) : Prop where
  package : file.package = ledger.package
  distinct : file.root.HasDistinctChildren
  exists_iff : ∀ path, (file.root.find? path).isSome ↔ ∃ opened ∈ ledger.opened, path <+: opened
  declared : ∀ path, file.root.declaredAt path = ledger.declared path

namespace Describes

variable {ledger : Ledger} {file : File}

/-- The package has the same path in the ledger and in the file. -/
theorem packagePath_eq (h : ledger.Describes file) : ledger.packagePath = file.packagePath := by
  unfold Ledger.packagePath File.packagePath
  rw [h.package]
  match ledger.package with
  | none => rfl
  | some [] => rfl
  | some (_ :: _) => rfl

/-- A ledger that records an addition describes the file after it. -/
theorem record {declarations : List Declaration}
    (hplain : ∀ declaration ∈ declarations, declaration.isPlain) (path : List Text)
    (h : ledger.Describes file) :
    (ledger.record path declarations).Describes
      { file with root := file.root.append path declarations } where
  package := h.package
  distinct := h.distinct.append hplain path
  exists_iff other := by
    rw [Namespace.isSome_find?_append hplain, h.exists_iff]
    exact (List.exists_mem_cons_iff (other <+: ·) path ledger.opened).symm
  declared other := by
    rw [Namespace.declaredAt_append hplain, h.declared]
    show _ = Function.update ledger.declared path _ other
    by_cases hother : other = path
    · rw [hother, if_pos rfl, Function.update_self]
    · rw [if_neg hother, List.append_nil, Function.update_of_ne hother]

/-- Every use of a file keeps it as its ledger describes it. -/
theorem edit (h : ledger.Describes file) (use : Edit) :
    (ledger.edit use).Describes (file.edit use) := by
  have hplain (added : Option Declaration.Plain) :
      ∀ declaration ∈ Edit.appended added, declaration.isPlain := by
    intro declaration hmem
    obtain ⟨plain, _, rfl⟩ := List.mem_map.mp hmem
    exact plain.property
  cases use with
  | setPackage name => exact ⟨rfl, h.distinct, h.exists_iff, h.declared⟩
  | inPackage added =>
      show (ledger.record ledger.packagePath _).Describes _
      rw [h.packagePath_eq]
      exact h.record (hplain added) file.packagePath
  | inNamespace path added => exact h.record (hplain added) path

/-- A new ledger describes a new file. -/
theorem initial : ({} : Ledger).Describes {} where
  package := rfl
  distinct := .empty []
  exists_iff path := by
    cases path with
    | nil => simp [Namespace.find?]
    | cons name path => simp [Namespace.find?_empty]
  declared path := Namespace.declaredAt_empty [] path

/-- A file is as its ledger describes it after every sequence of uses. -/
theorem foldl_edit (edits : List Edit) (h : ledger.Describes file) :
    (edits.foldl Ledger.edit ledger).Describes (edits.foldl File.edit file) := by
  induction edits generalizing ledger file with
  | nil => exact h
  | cons use edits ih => exact ih (h.edit use)

/-- A view of a namespace shows what was appended at its path. -/
theorem view_eq {α : Type} {view : Declaration → Option α} {path : List Text} {space : Namespace}
    (h : ledger.Describes file) (hview : ∀ name inner, view (.scope name inner) = none)
    (hfound : file.root.find? path = some space) :
    space.members.filterMap view = (ledger.declared path).filterMap view := by
  rw [← Declaration.filterMap_filter_isPlain hview, ← h.declared, Namespace.declaredAt, hfound]
  rfl

/-- Nothing was appended where there is no namespace. -/
theorem declared_eq_nil {path : List Text} (h : ledger.Describes file)
    (hnone : file.root.find? path = none) : ledger.declared path = [] := by
  rw [← h.declared, Namespace.declaredAt, hnone]
  rfl

end Describes

end Ledger

/-- After every sequence of uses, the tree of a file is a map from paths to the declarations that
were appended there, in their order. The namespaces are those on the way to a path at which one was
opened, so that looking at a file makes none; children of a namespace have distinct names; and the
file shows the namespace of its current package. -/
theorem File.edits_refine (edits : List Edit) :
    let file : File := edits.foldl edit {}
    let ledger : Ledger := edits.foldl Ledger.edit {}
    file.root.HasDistinctChildren ∧
    (∀ path, (file.root.find? path).isSome ↔ ∃ opened ∈ ledger.opened, path <+: opened) ∧
    (∀ path space, file.root.find? path = some space →
      space.messages = (ledger.declared path).filterMap Declaration.message? ∧
      space.enums = (ledger.declared path).filterMap Declaration.enum? ∧
      space.services = (ledger.declared path).filterMap Declaration.service?) ∧
    (∀ path, file.root.find? path = none → ledger.declared path = []) ∧
    (∀ space, file.root.find? ledger.packagePath = some space →
      file.messages = space.messages ∧ file.enums = space.enums ∧
      file.services = space.services) ∧
    (file.root.find? ledger.packagePath = none →
      file.messages = [] ∧ file.enums = [] ∧ file.services = []) := by
  intro file ledger
  have h : ledger.Describes file := Ledger.Describes.initial.foldl_edit edits
  refine ⟨h.distinct, h.exists_iff, ?_, fun path => h.declared_eq_nil, ?_, ?_⟩
  · intro path space hfound
    have hview {α : Type} {view : Declaration → Option α}
        (hscope : ∀ name inner, view (.scope name inner) = none) := h.view_eq hscope hfound
    exact ⟨hview fun _ _ => rfl, hview fun _ _ => rfl, hview fun _ _ => rfl⟩
  · intro space hfound
    rw [h.packagePath_eq] at hfound
    simp [messages, enums, services, packageNamespace?, hfound]
  · intro hnone
    rw [h.packagePath_eq] at hnone
    simp [messages, enums, services, packageNamespace?, hnone]

end ProtoSchema
