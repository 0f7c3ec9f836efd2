import ProtoSchema.Load.SchemaFile
import ProtoSchema.Proofs.Outcome

/-!
# What loading schema files gives

A loaded file has the path it was loaded from, and so has the failure of a file that cannot be
loaded. Loading several files gives one file for each path, in order, or the error of the first path
whose file cannot be loaded (`loadAll_eq_error_iff`).
-/

namespace ProtoSchema.File

variable {tree : FileTree} {path : Text}

/-- No statement changes the path of a file. -/
theorem path_apply (file : File) (statement : Statement) :
    (file.apply statement).path = file.path := by
  cases statement <;> rfl

/-- A file made of statements has the path it was made with. -/
theorem path_ofStatements (path : Text) (statements : List Statement) :
    (ofStatements path statements).path = path := by
  have hfold (file : File) : (statements.foldl apply file).path = file.path := by
    induction statements generalizing file with
    | nil => rfl
    | cons statement statements ih => rw [List.foldl_cons, ih, path_apply]
  exact hfold { path := path }

/-- A file is loaded when it is read and its text is parsed. -/
theorem load_eq_ok_iff {file : File} :
    load tree path = .ok file ↔
      ∃ text, readText tree path = .ok text ∧ File.parse text path = .ok file := by
  unfold load
  cases readText tree path with
  | error failure => simp
  | ok text => cases hparse : File.parse text path <;> simp [hparse]

/-- A parsed file has the path it was parsed for. -/
theorem path_of_parse {text : Text} {file : File} (h : File.parse text path = .ok file) :
    file.path = path := by
  unfold File.parse at h
  split at h
  next => cases h
  next =>
    split at h
    next => cases h
    next statements _ =>
      obtain rfl := Except.ok.inj h
      exact path_ofStatements path statements

/-- A loaded file has the path it was loaded from. -/
theorem path_of_load {file : File} (h : load tree path = .ok file) : file.path = path := by
  obtain ⟨text, -, hparse⟩ := load_eq_ok_iff.mp h
  exact path_of_parse hparse

/-- A text that is not read is a failure of its path, or the path is none. -/
theorem readText_eq_error {error : LoadError} (h : readText tree path = .error error) :
    (∃ cause, error = .failure ⟨path, cause⟩) ∨
      ∃ fault, error = .path fault ∧ tree.read (Path.display path) = .error (.path fault) := by
  unfold readText at h
  split at h
  next access hread =>
    obtain rfl := Except.error.inj h
    cases access with
    | path fault => exact .inr ⟨fault, rfl, hread⟩
    | file cause => exact .inl ⟨_, rfl⟩
  next =>
    split at h
    next =>
      obtain rfl := Except.error.inj h
      exact .inl ⟨_, rfl⟩
    next => cases h

/-- A file that is not loaded is a failure of its path, or the path is none, or the text of the file
has a literal without a value. -/
theorem load_eq_error {error : LoadError} (h : load tree path = .error error) :
    (∃ cause, error = .failure ⟨path, cause⟩) ∨
      (∃ fault, error = .path fault ∧ tree.read (Path.display path) = .error (.path fault)) ∨
      ∃ cause text, error = .literal cause ∧ readText tree path = .ok text ∧
        File.parse text path = .error cause := by
  unfold load at h
  split at h
  next hread =>
    obtain rfl := Except.error.inj h
    exact (readText_eq_error hread).imp_right .inl
  next text hread =>
    split at h
    next cause hparse =>
      obtain rfl := Except.error.inj h
      cases cause with
      | refused cause found position => exact .inl ⟨_, rfl⟩
      | escape cause => exact .inr (.inr ⟨_, text, rfl, hread, hparse⟩)
      | notNumeric spelling => exact .inr (.inr ⟨_, text, rfl, hread, hparse⟩)
    next => cases h

/-- A failure names the path that was to be loaded. -/
theorem path_of_load_eq_failure {failure : LoadFailure}
    (h : load tree path = .error (.failure failure)) : failure.path = path := by
  obtain ⟨cause, hcause⟩ | ⟨fault, hfault, -⟩ | ⟨cause, text, hcause, -⟩ := load_eq_error h
  · rw [LoadError.failure.inj hcause]
  · cases hfault
  · cases hcause

/-- Several files are loaded in the order of their paths. -/
theorem map_path_of_loadAll {paths : List Text} {files : List File}
    (h : loadAll tree paths = .ok files) : files.map File.path = paths := by
  have hloads := mapM_eq_ok_iff.mp h
  clear h
  induction paths generalizing files with
  | nil =>
      obtain rfl : files = [] := by simpa using hloads.symm
      rfl
  | cons path paths ih =>
      cases files with
      | nil => simp at hloads
      | cons file files =>
          obtain ⟨hfirst, hrest⟩ := List.cons.inj hloads
          rw [List.map_cons, ih hrest, path_of_load hfirst]

/-- Loading several files fails with the error of the first one that cannot be loaded. -/
theorem loadAll_eq_error_iff {paths : List Text} {error : LoadError} :
    loadAll tree paths = .error error ↔
      ∃ before path after, paths = before ++ path :: after ∧
        (∀ earlier ∈ before, ∃ file, load tree earlier = .ok file) ∧
        load tree path = .error error :=
  mapM_eq_error_iff

end ProtoSchema.File
