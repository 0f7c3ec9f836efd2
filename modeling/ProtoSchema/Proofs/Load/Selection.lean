import Mathlib.Data.List.Forall2
import ProtoSchema.Load.DescriptorSet
import ProtoSchema.Proofs.Outcome

/-!
# The files that requests select

A request is answered by the first file whose recorded name it equals or ends with
(`pick_eq_ok_iff`). A file that has exactly the requested name is therefore found only if no path
suffix of the name is recorded in front of it: `prefersExact_iff` says so for every selection, and
`not_prefersExact_importFirst` shows that a file imported from the directory above hides the one
that was asked for.
-/

namespace ProtoSchema.DescriptorSet

/-- The recorded name is a part at the end of the requested path, after a slash. -/
def IsPathSuffix (recorded request : Text) : Prop :=
  ∃ directory, request = directory ++ Path.slash :: recorded

/-- The recorded name is the requested path or a part at its end. -/
def Answers (request recorded : Text) : Prop :=
  recorded = request ∨ IsPathSuffix recorded request

/-- The file, which has this index in the set, is the first one that answers the request. -/
def IsFirstAnswer (files : DescriptorSet) (request : Text) (found : FileDescriptor × Nat) : Prop :=
  files[found.2]? = some found.1 ∧ Answers request found.1.name ∧
    ∀ earlier ∈ files.take found.2, ¬ Answers request earlier.name

/-- A file stands in front of all files of the requested name, and its name is a part at the end of
the requested path. -/
def IsShadowed (files : DescriptorSet) (request : Text) : Prop :=
  ∃ (index : Nat) (file : FileDescriptor), files[index]? = some file ∧
    IsPathSuffix file.name request ∧ ∀ earlier ∈ files.take index, earlier.name ≠ request

/-- Every request that is the name of a file of the set has a file of this name at its place in the
selection. -/
def PrefersExact (files : DescriptorSet) (requests : List Text)
    (chosen : List (FileDescriptor × Nat)) : Prop :=
  ∀ (place : Nat) (request : Text), requests[place]? = some request →
    (∃ file ∈ files, file.name = request) →
    ∃ found, chosen[place]? = some found ∧ found.1.name = request

variable {files : DescriptorSet} {request recorded : Text} {found : FileDescriptor × Nat}

/-! ### One request -/

/-- A part after a slash is shorter than the path. -/
theorem IsPathSuffix.ne (h : IsPathSuffix recorded request) : recorded ≠ request := by
  rintro rfl
  obtain ⟨directory, hdirectory⟩ := h
  have hlength := congrArg List.length hdirectory
  rw [List.length_append, List.length_cons] at hlength
  omega

/-- The names that answer a request are those that the search accepts. -/
theorem answers_iff : answers request recorded = true ↔ Answers request recorded := by
  rw [answers, Bool.or_eq_true, decide_eq_true_eq, Text.endsWith, List.isSuffixOf_iff_suffix]
  refine or_congr eq_comm ?_
  constructor
  · rintro ⟨directory, rfl⟩
    exact ⟨directory, rfl⟩
  · rintro ⟨directory, rfl⟩
    exact ⟨directory, rfl⟩

/-- A request picks the first file that answers it. -/
theorem pick_eq_ok_iff : files.pick request = .ok found ↔ files.IsFirstAnswer request found := by
  have hfind : files.pick request = .ok found ↔
      files.zipIdx.find? (fun indexed => answers request indexed.1.name) = some found := by
    unfold pick
    split
    next other hother => rw [hother, Except.ok.injEq, Option.some.injEq]
    next hnone => simp [hnone]
  rw [hfind, List.find?_eq_some_iff_getElem, answers_iff, IsFirstAnswer]
  constructor
  · rintro ⟨hanswers, index, hindex, rfl, hearlier⟩
    rw [List.length_zipIdx] at hindex
    simp only [List.getElem_zipIdx, Nat.zero_add] at hanswers hearlier ⊢
    refine ⟨List.getElem?_eq_getElem hindex, hanswers, fun earlier hmem => ?_⟩
    obtain ⟨position, hposition, rfl⟩ := List.mem_take_iff_getElem.mp hmem
    have hrefused := hearlier position (by omega)
    rw [← answers_iff]
    simpa using hrefused
  · rintro ⟨hfile, hanswers, hearlier⟩
    obtain ⟨hindex, hfile⟩ := List.getElem?_eq_some_iff.mp hfile
    refine ⟨hanswers, found.2, by rwa [List.length_zipIdx], ?_, fun position hposition => ?_⟩
    · rw [List.getElem_zipIdx, hfile, Nat.zero_add]
    · have hrefused := hearlier files[position]
        (List.mem_take_iff_getElem.mpr ⟨position, by omega, rfl⟩)
      rw [← answers_iff] at hrefused
      simpa using hrefused

/-- A request picks a file exactly when one answers it. -/
theorem exists_pick_iff :
    (∃ found, files.pick request = .ok found) ↔ ∃ file ∈ files, Answers request file.name := by
  constructor
  · rintro ⟨found, hfound⟩
    obtain ⟨hfile, hanswers, -⟩ := pick_eq_ok_iff.mp hfound
    exact ⟨found.1, List.mem_of_getElem? hfile, hanswers⟩
  · rintro ⟨file, hmem, hanswers⟩
    unfold pick
    split
    next found _ => exact ⟨found, rfl⟩
    next hnone =>
      obtain ⟨index, hfile⟩ := List.mem_iff_getElem?.mp hmem
      have hindexed : (file, index) ∈ files.zipIdx := List.mem_zipIdx_iff_getElem?.mpr hfile
      exact absurd (answers_iff.mpr hanswers) (List.find?_eq_none.mp hnone _ hindexed)

/-- The first answer has the requested name exactly when no part of the name is recorded in front of
the files that have it. -/
theorem IsFirstAnswer.name_eq_iff (h : files.IsFirstAnswer request found) :
    found.1.name = request ↔ ¬ files.IsShadowed request := by
  obtain ⟨hfound, hanswers, hfirst⟩ := h
  constructor
  · rintro hname ⟨index, file, hfile, hsuffix, hearlier⟩
    -- The shadow would come before the first answer, or after a file of the requested name.
    rcases Nat.lt_trichotomy index found.2 with hlt | heq | hgt
    · have hmem : file ∈ files.take found.2 :=
        List.mem_of_getElem? (by rw [List.getElem?_take_of_lt hlt, hfile])
      exact hfirst file hmem (.inr hsuffix)
    · rw [heq, hfound] at hfile
      obtain rfl := Option.some.inj hfile
      exact hsuffix.ne hname
    · have hmem : found.1 ∈ files.take index :=
        List.mem_of_getElem? (by rw [List.getElem?_take_of_lt hgt, hfound])
      exact hearlier found.1 hmem hname
  · intro hshadow
    rcases hanswers with hname | hsuffix
    · exact hname
    · refine absurd ⟨found.2, found.1, hfound, hsuffix, fun earlier hmem hname => ?_⟩ hshadow
      exact hfirst earlier hmem (.inl hname)

/-! ### Several requests -/

/-- Requests select their first answers, in the order of the requests. -/
theorem select_eq_ok_iff {requests : List Text} {chosen : List (FileDescriptor × Nat)} :
    files.select requests = .ok chosen ↔ List.Forall₂ files.IsFirstAnswer requests chosen := by
  rw [select, mapM_eq_ok_iff]
  constructor
  · intro h
    have hlength : requests.length = chosen.length := by simpa using congrArg List.length h
    refine List.forall₂_iff_get.mpr ⟨hlength, fun place hleft hright => ?_⟩
    have hplace := congrArg (·[place]?) h
    simpa [hleft, hright, pick_eq_ok_iff] using hplace
  · intro h
    induction h with
    | nil => rfl
    | cons hfirst _ ih => rw [List.map_cons, List.map_cons, pick_eq_ok_iff.mpr hfirst, ih]

/-- Requests select files when each of them is answered. -/
theorem exists_select {requests : List Text}
    (h : ∀ request ∈ requests, ∃ file ∈ files, Answers request file.name) :
    ∃ chosen, files.select requests = .ok chosen := by
  cases hselect : files.select requests with
  | ok chosen => exact ⟨chosen, rfl⟩
  | error failure =>
      obtain ⟨before, request, after, rfl, -, hfails⟩ := mapM_eq_error_iff.mp hselect
      obtain ⟨found, hfound⟩ := exists_pick_iff.mpr (h request (by simp))
      exact ok_error_elim hfound hfails

/-- At the place of a request there is its first answer. -/
theorem exists_answer_at {requests : List Text} {chosen : List (FileDescriptor × Nat)}
    (h : List.Forall₂ files.IsFirstAnswer requests chosen) {place : Nat}
    (hplace : requests[place]? = some request) :
    ∃ found, chosen[place]? = some found ∧ files.IsFirstAnswer request found := by
  obtain ⟨hlength, hanswers⟩ := List.forall₂_iff_get.mp h
  obtain ⟨hleft, rfl⟩ := List.getElem?_eq_some_iff.mp hplace
  have hright : place < chosen.length := by omega
  exact ⟨chosen[place], List.getElem?_eq_getElem hright, hanswers place hleft hright⟩

/-- Requests select files exactly when each of them is answered by one, and then each has its first
answer at its place. Those among them that are names of files get files of exactly these names if
and only if none of them has a part at its end that is recorded in front. -/
theorem prefersExact_iff (files : DescriptorSet) (requests : List Text) :
    ((∃ chosen, files.select requests = .ok chosen) ↔
      ∀ request ∈ requests, ∃ file ∈ files, Answers request file.name) ∧
    ∀ chosen, files.select requests = .ok chosen →
      List.Forall₂ files.IsFirstAnswer requests chosen ∧
      (files.PrefersExact requests chosen ↔
        ∀ request ∈ requests, (∃ file ∈ files, file.name = request) →
          ¬ files.IsShadowed request) := by
  refine ⟨⟨?_, exists_select⟩, fun chosen hselect => ?_⟩
  · rintro ⟨chosen, hselect⟩ request hmem
    obtain ⟨place, hplace⟩ := List.mem_iff_getElem?.mp hmem
    obtain ⟨found, -, hfirst⟩ := exists_answer_at (select_eq_ok_iff.mp hselect) hplace
    exact exists_pick_iff.mp ⟨found, pick_eq_ok_iff.mpr hfirst⟩
  · have hall := select_eq_ok_iff.mp hselect
    refine ⟨hall, ?_, ?_⟩
    · intro hprefers request hmem hrecorded
      obtain ⟨place, hplace⟩ := List.mem_iff_getElem?.mp hmem
      obtain ⟨found, hfound, hfirst⟩ := exists_answer_at hall hplace
      obtain ⟨other, hother, hname⟩ := hprefers place request hplace hrecorded
      obtain rfl := Option.some.inj (hfound.symm.trans hother)
      exact hfirst.name_eq_iff.mp hname
    · intro hshadows place request hplace hrecorded
      obtain ⟨found, hfound, hfirst⟩ := exists_answer_at hall hplace
      have hmem := List.mem_of_getElem? hplace
      exact ⟨found, hfound, hfirst.name_eq_iff.mpr (hshadows request hmem hrecorded)⟩

/-- With the file of the directory in front, both its name and a longer path select it. -/
theorem prefersExact_directoryFirst :
    let files : DescriptorSet := [{ name := "a/b.proto" }, { name := "b.proto" }]
    let requests : List Text := ["a/b.proto", "/w/a/b.proto"]
    let chosen := [(({ name := "a/b.proto" } : FileDescriptor), 0), ({ name := "a/b.proto" }, 0)]
    files.select requests = .ok chosen ∧ (∃ file ∈ files, file.name = "a/b.proto") ∧
      files.PrefersExact requests chosen := by
  intro files requests chosen
  have hselect : files.select requests = .ok chosen := rfl
  obtain ⟨-, hchosen⟩ := prefersExact_iff files requests
  obtain ⟨-, hiff⟩ := hchosen chosen hselect
  refine ⟨hselect, ⟨_, List.mem_cons_self, rfl⟩, hiff.mpr fun request hmem hrecorded => ?_⟩
  obtain rfl | rfl : request = "a/b.proto" ∨ request = "/w/a/b.proto" := by
    simpa [requests] using hmem
  · -- Only the file itself is recorded without a file of this name in front of it.
    rintro ⟨index, file, hfile, hsuffix, hearlier⟩
    match index with
    | 0 =>
        obtain rfl := Option.some.inj hfile
        exact hsuffix.ne rfl
    | index + 1 => exact hearlier _ List.mem_cons_self rfl
  · obtain ⟨file, hfile, hname⟩ := hrecorded
    have hnames : ∀ name ∈ files.map FileDescriptor.name, name ≠ "/w/a/b.proto" := by decide
    exact absurd hname (hnames file.name (List.mem_map_of_mem hfile))

/-- A set in which an imported file stands in front of a file of a directory with the same last
name.
-/
def importFirst : DescriptorSet :=
  [{ name := "b.proto" }, { name := "a/b.proto" }]

/-- The request for the file of the directory is answered by the imported one. -/
theorem not_prefersExact_importFirst :
    (∃ file ∈ importFirst, file.name = "a/b.proto") ∧
      importFirst.select ["a/b.proto"] = .ok [({ name := "b.proto" }, 0)] ∧
      ¬ importFirst.PrefersExact ["a/b.proto"] [({ name := "b.proto" }, 0)] := by
  have hrecorded : ∃ file ∈ importFirst, file.name = "a/b.proto" :=
    ⟨{ name := "a/b.proto" }, by simp [importFirst], rfl⟩
  refine ⟨hrecorded, rfl, fun h => ?_⟩
  obtain ⟨found, hfound, hname⟩ := h 0 "a/b.proto" rfl hrecorded
  obtain rfl := Option.some.inj hfound
  exact absurd hname (by decide)

end ProtoSchema.DescriptorSet
