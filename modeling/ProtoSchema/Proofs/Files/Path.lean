import Mathlib.Data.List.Basic
import Mathlib.Data.List.DropRight
import ProtoSchema.Files.Path

/-!
# Parts of paths

Splitting at a separator undoes joining (`Text.split_join`) and joining undoes splitting, so the
parts of a path say all about it but whether it starts with a slash: `parts_join` gives the parts of
a joined path and `split_display` those of a path as it is shown.
-/

namespace ProtoSchema

namespace Text

variable {separator : CodePoint}

/-- There is always a part. -/
theorem split_ne_nil (text : Text) : split separator text ≠ [] := by
  cases text with
  | nil => simp [split]
  | cons c rest =>
      rw [split]
      split
      · simp
      · split <;> simp

/-- A text without the separator is one part. -/
theorem split_of_notMem {text : Text} (h : separator ∉ text) : split separator text = [text] := by
  induction text with
  | nil => rfl
  | cons c rest ih =>
      rw [List.mem_cons, not_or] at h
      rw [split, if_neg (Ne.symm h.1), ih h.2]

/-- A separator ends a part. -/
theorem split_append (first rest : Text) :
    split separator (first ++ separator :: rest) =
      split separator first ++ split separator rest := by
  induction first with
  | nil => simp [split]
  | cons c first ih =>
      rw [List.cons_append, split, split, ih]
      split
      · rfl
      · cases h : split separator first with
        | nil => exact absurd h (split_ne_nil first)
        | cons part parts => rfl

/-- No part has the separator in it. -/
theorem notMem_of_mem_split {text part : Text} (h : part ∈ split separator text) :
    separator ∉ part := by
  induction text generalizing part with
  | nil =>
      obtain rfl := List.mem_singleton.mp h
      exact List.not_mem_nil
  | cons c rest ih =>
      rw [split] at h
      split at h
      · rcases List.mem_cons.mp h with rfl | h
        · exact List.not_mem_nil
        · exact ih h
      next hc =>
        cases hsplit : split separator rest with
        | nil => exact absurd hsplit (split_ne_nil rest)
        | cons first parts =>
            rw [hsplit] at h ih
            rcases List.mem_cons.mp h with rfl | h
            · rw [List.mem_cons, not_or]
              exact ⟨Ne.symm hc, ih List.mem_cons_self⟩
            · exact ih (List.mem_cons_of_mem _ h)

/-- Parts that are joined by the separator are split again. -/
theorem split_join {parts : List Text} (hne : parts ≠ [])
    (h : ∀ part ∈ parts, separator ∉ part) : split separator (join [separator] parts) = parts := by
  induction parts with
  | nil => exact absurd rfl hne
  | cons part parts ih =>
      obtain ⟨hpart, hparts⟩ := List.forall_mem_cons.mp h
      cases parts with
      | nil => exact split_of_notMem hpart
      | cons next parts =>
          rw [join, List.append_assoc, List.singleton_append, split_append, split_of_notMem hpart,
            ih (List.cons_ne_nil _ _) hparts, List.singleton_append]

/-- The parts of a text that are joined again are the text. -/
theorem join_split (text : Text) : join [separator] (split separator text) = text := by
  induction text with
  | nil => rfl
  | cons c rest ih =>
      rw [split]
      split
      next hc =>
        cases hparts : split separator rest with
        | nil => exact absurd hparts (split_ne_nil rest)
        | cons next parts =>
            rw [hparts] at ih
            rw [join, ih, hc]
            rfl
      next =>
        cases hparts : split separator rest with
        | nil => exact absurd hparts (split_ne_nil rest)
        | cons next parts =>
            rw [hparts] at ih
            rw [← ih]
            cases parts <;> rfl

/-- What is joined has the parts in it. -/
theorem mem_join {between part : Text} {parts : List Text} {c : CodePoint} (hpart : part ∈ parts)
    (hc : c ∈ part) : c ∈ join between parts := by
  induction parts with
  | nil => exact absurd hpart List.not_mem_nil
  | cons first rest ih =>
      cases rest with
      | nil =>
          obtain rfl := List.mem_singleton.mp hpart
          exact hc
      | cons next rest =>
          rw [join, List.mem_append]
          rcases List.mem_cons.mp hpart with rfl | hpart
          · exact .inl (List.mem_append_left _ hc)
          · exact .inr (ih hpart)

/-- What holds of the code points in between holds of a joined text if it does of the parts. -/
theorem forall_mem_join_iff {between : Text} {parts : List Text} {P : CodePoint → Prop}
    (hbetween : ∀ c ∈ between, P c) :
    (∀ c ∈ join between parts, P c) ↔ ∀ part ∈ parts, ∀ c ∈ part, P c := by
  refine ⟨fun h part hpart c hc => h c (mem_join hpart hc), fun h => ?_⟩
  induction parts with
  | nil => exact fun c hc => absurd hc List.not_mem_nil
  | cons first rest ih =>
      obtain ⟨hfirst, hrest⟩ := List.forall_mem_cons.mp h
      cases rest with
      | nil => exact hfirst
      | cons next rest =>
          rw [join, List.forall_mem_append, List.forall_mem_append]
          exact ⟨⟨hfirst, hbetween⟩, ih hrest⟩

/-- A part has nothing in it that is not in the text. -/
theorem mem_of_mem_split {text part : Text} {c : CodePoint} (hpart : part ∈ split separator text)
    (hc : c ∈ part) : c ∈ text := by
  have hjoin : c ∈ join [separator] (split separator text) := mem_join hpart hc
  rwa [join_split] at hjoin

/-- A change of code points that makes no separator and takes none away changes the parts. -/
theorem split_map {change : CodePoint → CodePoint} {text : Text}
    (h : ∀ c ∈ text, change c = separator ↔ c = separator) :
    split separator (text.map change) = (split separator text).map (List.map change) := by
  induction text with
  | nil => rfl
  | cons c rest ih =>
      obtain ⟨hc, hrest⟩ := List.forall_mem_cons.mp h
      rw [List.map_cons, split, split, ih hrest]
      by_cases hseparator : c = separator
      · rw [if_pos hseparator, if_pos (hc.mpr hseparator)]
        rfl
      · rw [if_neg hseparator, if_neg (mt hc.mp hseparator)]
        cases split separator rest <;> rfl

/-- A text is known by its parts. -/
theorem split_injective : Function.Injective (split separator) :=
  Function.LeftInverse.injective join_split

end Text

namespace Path

/-- The last part of a path has no slash in it. -/
theorem slash_notMem_base (path : Text) : slash ∉ base path := by
  intro h
  have hmem : slash ∈ path.reverse.takeWhile (· ≠ slash) := List.mem_reverse.mp h
  simpa using List.all_eq_true.mp List.all_takeWhile slash hmem

/-- A part that says something is neither empty nor a single dot, and has no slash in it. -/
theorem of_mem_parts {path part : Text} (h : part ∈ parts path) :
    part ≠ [] ∧ part ≠ here ∧ slash ∉ part := by
  obtain ⟨hmem, hkept⟩ := List.mem_filter.mp h
  have hkept : part ≠ [] ∧ part ≠ here := by simpa using hkept
  exact ⟨hkept.1, hkept.2, Text.notMem_of_mem_split hmem⟩

/-- A slash ends a part. -/
theorem parts_append (first rest : Text) :
    parts (first ++ slash :: rest) = parts first ++ parts rest := by
  rw [parts, Text.split_append, List.filter_append]
  rfl

/-- The parts of a path from a directory are those of the directory and those of the path. -/
theorem parts_join {path : Text} (h : slash ∉ path) (directory : Text) :
    parts (join directory path) = parts directory ++ parts path := by
  have hrelative : path.head? ≠ some slash := fun hhead => h (List.mem_of_mem_head? hhead)
  rw [join, if_neg hrelative]
  split
  next hdirectory =>
    rw [Bool.or_eq_true, List.isEmpty_iff, decide_eq_true_eq] at hdirectory
    rcases hdirectory with rfl | hlast
    · rfl
    · -- The slash at the end of the directory is the one between the two.
      obtain ⟨start, rfl⟩ := List.getLast?_eq_some_iff.mp hlast
      rw [List.append_assoc, List.singleton_append, parts_append, parts_append]
      simp [parts, Text.split]
  next => rw [parts_append]

/-- A name is its own only part, if it says something. -/
theorem parts_of_name {name : Text} (hne : name ≠ []) (hslash : slash ∉ name) :
    parts name = if name = here then [] else [name] := by
  rw [parts, Text.split_of_notMem hslash]
  by_cases h : name = here <;> simp [h, hne]

/-- A joined path starts with a slash when its directory does. -/
theorem head?_join {path : Text} (hslash : slash ∉ path) (directory : Text) :
    (join directory path).head? = some slash ↔ directory.head? = some slash := by
  have hrelative : path.head? ≠ some slash := fun hhead => hslash (List.mem_of_mem_head? hhead)
  rw [join, if_neg hrelative]
  cases directory with
  | nil => simpa using hrelative
  | cons c directory => split <;> rfl

/-- Joining a directory keeps names apart. -/
theorem join_injective {directory name other : Text} (hname : slash ∉ name)
    (hother : slash ∉ other) (h : join directory name = join directory other) : name = other := by
  have hrelative {name : Text} (hname : slash ∉ name) : name.head? ≠ some slash := fun hhead =>
    hname (List.mem_of_mem_head? hhead)
  rw [join, join, if_neg (hrelative hname), if_neg (hrelative hother)] at h
  split at h
  · exact List.append_cancel_left h
  · exact (List.cons.inj (List.append_cancel_left h)).2

/-- A path that does not start with a slash has none that count. -/
theorem leadingSlashes_of_head? {path : Text} (h : path.head? ≠ some slash) :
    leadingSlashes path = [] := by
  cases path with
  | nil => rfl
  | cons c rest =>
      have hc : c ≠ slash := fun heq => h (by rw [heq]; rfl)
      simp [leadingSlashes, hc]

/-- A path that starts with a slash has one or two that count. -/
theorem leadingSlashes_cases {path : Text} (h : path.head? = some slash) :
    leadingSlashes path = [slash] ∨ leadingSlashes path = [slash, slash] := by
  cases path with
  | nil => exact absurd h (by simp)
  | cons c rest =>
      obtain rfl : c = slash := Option.some.inj h
      unfold leadingSlashes
      split
      next hzero => simp at hzero
      next => exact .inr rfl
      next => exact .inl rfl

/-! ### Paths as they are shown -/

/-- The parts of a path are found again in their joined form. -/
theorem split_join_parts {path : Text} (hparts : parts path ≠ []) :
    Text.split slash (Text.join [slash] (parts path)) = parts path :=
  Text.split_join hparts fun _ hpart => (of_mem_parts hpart).2.2

/-- The joined parts of a path are a text. -/
theorem join_parts_ne {path : Text} (hparts : parts path ≠ []) :
    Text.join [slash] (parts path) ≠ [] := by
  intro h
  have hsplit := split_join_parts hparts
  rw [h] at hsplit
  have hmem : [] ∈ parts path := hsplit ▸ List.mem_singleton_self []
  exact (of_mem_parts hmem).1 rfl

/-- The joined parts of a path do not start with a slash. -/
theorem head?_join_parts {path : Text} (hparts : parts path ≠ []) :
    (Text.join [slash] (parts path)).head? ≠ some slash := by
  intro h
  obtain ⟨rest, hrest⟩ := List.head?_eq_some_iff.mp h
  have hsplit := split_join_parts hparts
  rw [hrest, ← List.nil_append (slash :: rest), Text.split_append] at hsplit
  have hmem : [] ∈ parts path := hsplit ▸ List.mem_append_left _ (List.mem_singleton_self [])
  exact (of_mem_parts hmem).1 rfl

/-- The joined parts of a path do not end with a slash. -/
theorem getLast?_join_parts {path : Text} (hparts : parts path ≠ []) :
    (Text.join [slash] (parts path)).getLast? ≠ some slash := by
  intro h
  obtain ⟨start, hstart⟩ := List.getLast?_eq_some_iff.mp h
  have hsplit := split_join_parts hparts
  rw [hstart, Text.split_append] at hsplit
  have hmem : [] ∈ parts path := hsplit ▸ List.mem_append_right _ (List.mem_singleton_self [])
  exact (of_mem_parts hmem).1 rfl

/-- A path with parts is shown as its slashes and its joined parts. -/
theorem display_of_parts {path : Text} (hparts : parts path ≠ []) :
    display path = leadingSlashes path ++ Text.join [slash] (parts path) := by
  have hshown : leadingSlashes path ++ Text.join [slash] (parts path) ≠ [] := fun h =>
    join_parts_ne hparts (List.append_eq_nil_iff.mp h).2
  simp [display, hshown]

/-- A shown path has the same parts, besides empty ones for the slashes in front. -/
theorem split_display {path : Text} (hparts : parts path ≠ []) :
    (Text.split slash (display path)).filter (fun part => !part.isEmpty) = parts path := by
  have hkept : (parts path).filter (fun part => !part.isEmpty) = parts path := by
    refine List.filter_eq_self.mpr fun part hpart => ?_
    simpa using (of_mem_parts hpart).1
  have hslash (text : Text) :
      (Text.split slash (slash :: text)).filter (fun part => !part.isEmpty) =
        (Text.split slash text).filter fun part => !part.isEmpty := by
    simp [Text.split]
  rw [display_of_parts hparts]
  by_cases hrooted : path.head? = some slash
  · rcases leadingSlashes_cases hrooted with hslashes | hslashes
    · rw [hslashes, List.singleton_append, hslash, split_join_parts hparts, hkept]
    · rw [hslashes, List.cons_append, List.singleton_append, hslash, hslash,
        split_join_parts hparts, hkept]
  · rw [leadingSlashes_of_head? hrooted, List.nil_append, split_join_parts hparts, hkept]

/-- A shown path starts with a slash when the path does. -/
theorem head?_display {path : Text} (hparts : parts path ≠ []) :
    (display path).head? = some slash ↔ path.head? = some slash := by
  rw [display_of_parts hparts]
  by_cases hrooted : path.head? = some slash
  · rcases leadingSlashes_cases hrooted with hslashes | hslashes <;> simp [hslashes, hrooted]
  · rw [leadingSlashes_of_head? hrooted, List.nil_append]
    exact iff_of_false (head?_join_parts hparts) hrooted

/-- Besides slashes and dots, a shown path has the code points of the path. -/
theorem forall_mem_display_iff {path : Text} {P : CodePoint → Prop} (hslash : P slash)
    (hdot : P '.') : (∀ c ∈ display path, P c) ↔ ∀ c ∈ path, P c := by
  have hbetween : ∀ c ∈ [slash], P c := fun c hc => List.mem_singleton.mp hc ▸ hslash
  have hhere : ∀ c ∈ here, P c := fun c hc => List.mem_singleton.mp hc ▸ hdot
  have hslashes : ∀ c ∈ leadingSlashes path, P c := by
    by_cases hrooted : path.head? = some slash
    · rcases leadingSlashes_cases hrooted with hslashes | hslashes <;> simp [hslashes, hslash]
    · rw [leadingSlashes_of_head? hrooted]
      exact fun c hc => absurd hc List.not_mem_nil
  calc (∀ c ∈ display path, P c)
    _ ↔ ∀ part ∈ parts path, ∀ c ∈ part, P c := by
        rw [← Text.forall_mem_join_iff hbetween]
        by_cases hparts : parts path = []
        · -- What is shown without parts are slashes or a dot.
          refine iff_of_true ?_ (by simp [hparts, Text.join])
          unfold display
          dsimp only
          split
          · exact hhere
          · rw [hparts, Text.join, List.append_nil]
            exact hslashes
        · rw [display_of_parts hparts, List.forall_mem_append]
          exact and_iff_right hslashes
    _ ↔ ∀ part ∈ Text.split slash path, ∀ c ∈ part, P c := by
        refine ⟨fun h part hpart => ?_, fun h part hpart => h part (List.mem_of_mem_filter hpart)⟩
        by_cases hkept : part ≠ [] ∧ part ≠ here
        · exact h part (List.mem_filter.mpr ⟨hpart, by simpa using hkept⟩)
        · rcases not_and_or.mp hkept with hempty | hsingle
          · rw [not_not.mp hempty]
            exact fun c hc => absurd hc List.not_mem_nil
          · rw [not_not.mp hsingle]
            exact hhere
    _ ↔ ∀ c ∈ path, P c := by
        rw [← Text.forall_mem_join_iff hbetween, Text.join_split]

/-! ### Slashes at the end and parents -/

/-- Slashes alone have no parts. -/
theorem parts_of_slashes {slashes : Text} (h : ∀ c ∈ slashes, c = slash) : parts slashes = [] := by
  induction slashes with
  | nil => rfl
  | cons c slashes ih =>
      obtain ⟨rfl, hslashes⟩ := List.forall_mem_cons.mp h
      rw [← List.nil_append (slash :: slashes), parts_append, ih hslashes]
      rfl

/-- A path is its trimmed form with slashes at the end. -/
theorem exists_trimSlashes (path : Text) :
    ∃ slashes, path = trimSlashes path ++ slashes ∧ ∀ c ∈ slashes, c = slash := by
  rw [trimSlashes]
  split
  next => exact ⟨[], (List.append_nil path).symm, fun _ hmem => absurd hmem List.not_mem_nil⟩
  next =>
    refine ⟨(path.reverse.takeWhile (· = slash)).reverse, ?_, fun c hmem => ?_⟩
    · rw [← List.reverse_append, List.takeWhile_append_dropWhile, List.reverse_reverse]
    · simpa using List.all_eq_true.mp List.all_takeWhile c (List.mem_reverse.mp hmem)

/-- A trimmed path has the same parts. -/
@[simp] theorem parts_trimSlashes (path : Text) : parts (trimSlashes path) = parts path := by
  obtain ⟨slashes, hpath, hslashes⟩ := exists_trimSlashes path
  generalize trimSlashes path = trimmed at hpath ⊢
  subst hpath
  cases slashes with
  | nil => rw [List.append_nil]
  | cons c slashes =>
      obtain ⟨rfl, hrest⟩ := List.forall_mem_cons.mp hslashes
      rw [parts_append, parts_of_slashes hrest, List.append_nil]

/-- A trimmed path is a start of the path. -/
theorem trimSlashes_start (path : Text) : trimSlashes path <+: path := by
  obtain ⟨slashes, hpath, -⟩ := exists_trimSlashes path
  exact ⟨slashes, hpath.symm⟩

/-- A trimmed path stays as it is. -/
@[simp] theorem trimSlashes_trimSlashes (path : Text) :
    trimSlashes (trimSlashes path) = trimSlashes path := by
  have hagain : (path.reverse.dropWhile (· = slash)).dropWhile (· = slash) =
      path.reverse.dropWhile (· = slash) := List.dropWhile_idempotent _ _
  rw [trimSlashes.eq_def path]
  dsimp only
  split
  next hempty => rw [trimSlashes, if_pos hempty]
  next hne =>
    rw [trimSlashes, List.reverse_reverse, hagain, if_neg hne]

/-- A path is what comes up to its last slash and its last part. What comes up to the slash ends
with it, if there is one. -/
theorem splitAtLastSlash_cases (path : Text) :
    path = (splitAtLastSlash path).1 ++ base path ∧
      ((splitAtLastSlash path).1 = [] ∨ ∃ start, (splitAtLastSlash path).1 = start ++ [slash]) := by
  have hsplit : path = (path.reverse.dropWhile (· ≠ slash)).reverse ++ base path := by
    rw [base, splitAtLastSlash, ← List.reverse_append, List.takeWhile_append_dropWhile,
      List.reverse_reverse]
  have htake {first last : Text} (h : path = first ++ last) :
      path.take (path.length - last.length) = first := by
    rw [h, List.length_append, Nat.add_sub_cancel, List.take_left]
  have hfront : (splitAtLastSlash path).1 = (path.reverse.dropWhile (· ≠ slash)).reverse :=
    htake hsplit
  rw [hfront]
  refine ⟨hsplit, ?_⟩
  cases hdrop : path.reverse.dropWhile (· ≠ slash) with
  | nil => exact .inl rfl
  | cons c rest =>
      have hne : path.reverse.dropWhile (· ≠ slash) ≠ [] := by
        rw [hdrop]
        exact List.cons_ne_nil _ _
      have hc := List.head_dropWhile_not _ hne
      simp only [hdrop, List.head_cons] at hc
      have hslash : c = slash := by simpa using hc
      exact .inr ⟨rest.reverse, by rw [hslash, List.reverse_cons]⟩

/-- The parts of a path are those of its parent and of its last part. -/
theorem parts_parent_append_base (path : Text) :
    parts path = parts (parent path) ++ parts (base path) := by
  obtain ⟨hpath, hfront⟩ := splitAtLastSlash_cases path
  rw [parent, parts_trimSlashes]
  generalize (splitAtLastSlash path).1 = front at hpath hfront ⊢
  rcases hfront with rfl | ⟨start, rfl⟩
  · exact congrArg parts hpath
  · have hstart : parts (start ++ [slash]) = parts start := by
      rw [parts_append]
      exact List.append_nil _
    rw [hstart, ← parts_append]
    conv_lhs => rw [hpath]
    rw [List.append_assoc, List.singleton_append]

/-- The parent of a path is a start of the path. -/
theorem parent_start (path : Text) : parent path <+: path :=
  (trimSlashes_start _).trans ⟨base path, (splitAtLastSlash_cases path).1.symm⟩

end Path

end ProtoSchema
