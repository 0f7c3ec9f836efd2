import ProtoSchema.Naming
import ProtoSchema.Proofs.Files.Path
import ProtoSchema.Proofs.Text.Case

/-!
# Names in camel case

Camel case takes the underscores out of a name and changes the case of letters, no more. Joining the
words between underscores, all but the first capitalized, is the same as walking over the letters of
the text and raising those right behind an underscore (`Naming.flatMap_cased_lettersAfter`). Main
statement, for ASCII names: `Naming.snakeToCamel_keeps_letters`. Since no underscore is left, camel
case on request changes a name once and then never again (`Naming.maybeCamel_maybeCamel`).
-/

namespace ProtoSchema

namespace Naming

/-! ### Letters of a name -/

/-- The code points of a text that are no underscores, each with the code point right before it. The
first one stands behind `previous`. -/
def lettersAfter (previous : Option CodePoint) (text : Text) :
    List (Option CodePoint × CodePoint) :=
  ((previous :: text.map some).zip text).filter fun letter => letter.2 ≠ CodePoint.ofChar '_'

/-- The letters of a name: its code points that are no underscores, each with the code point right
before it. -/
def letters (name : Text) : List (Option CodePoint × CodePoint) :=
  lettersAfter none name

/-- A letter in camel case: in upper case at the start of a word, which is right behind an
underscore, and as it is anywhere else. -/
def cased (letter : Option CodePoint × CodePoint) : Text :=
  if letter.1 = some (CodePoint.ofChar '_') then letter.2.upper else [letter.2]

/-- An underscore is no letter, and every other code point is one. -/
theorem lettersAfter_cons (previous : Option CodePoint) (c : CodePoint) (rest : Text) :
    lettersAfter previous (c :: rest) =
      if c = CodePoint.ofChar '_' then lettersAfter (some c) rest
      else (previous, c) :: lettersAfter (some c) rest := by
  by_cases h : c = CodePoint.ofChar '_' <;> simp [lettersAfter, h]

/-- The letters without what stands before them. -/
theorem map_snd_letters (name : Text) :
    (letters name).map Prod.snd = name.filter fun c => c ≠ CodePoint.ofChar '_' := by
  have hafter (previous : Option CodePoint) : (lettersAfter previous name).map Prod.snd =
      name.filter fun c => c ≠ CodePoint.ofChar '_' := by
    induction name generalizing previous with
    | nil => rfl
    | cons c rest ih =>
        rw [lettersAfter_cons]
        by_cases h : c = CodePoint.ofChar '_'
        · rw [if_pos h, ih, List.filter_cons_of_neg (by simpa using h)]
        · rw [if_neg h, List.map_cons, ih, List.filter_cons_of_pos (by simpa using h)]
  exact hafter none

/-! ### Words and letters -/

/-- The words of a name as one word, each but the first with its first code point in upper case. -/
def joinWords : List Text → Text
  | [] => []
  | first :: rest => first ++ (rest.map capitalize).flatten

/-- Words that are joined are the letters of the text in camel case. Right behind an underscore the
first word is capitalized too. -/
theorem flatMap_cased_lettersAfter (previous : Option CodePoint) (text : Text) :
    (lettersAfter previous text).flatMap cased =
      if previous = some (CodePoint.ofChar '_') then ((Text.split '_' text).map capitalize).flatten
      else joinWords (Text.split '_' text) := by
  induction text generalizing previous with
  | nil => split <;> rfl
  | cons c rest ih =>
      rw [lettersAfter_cons, Text.split]
      by_cases h : c = CodePoint.ofChar '_'
      · -- The word in front of the underscore is empty, and the next one is capitalized.
        rw [if_pos h, if_pos h, ih, if_pos (congrArg some h)]
        split <;> rfl
      · have hnext : some c ≠ some (CodePoint.ofChar '_') := fun hsome => h (Option.some.inj hsome)
        rw [if_neg h, if_neg h, List.flatMap_cons, ih, if_neg hnext]
        cases hsplit : Text.split '_' rest with
        | nil => exact absurd hsplit (Text.split_ne_nil rest)
        | cons word words =>
            rw [cased]
            split
            · simp [capitalize, joinWords]
            · rfl

/-- Camel case joins the words of a name, which are lowered first if the name has no lower-case
letter. -/
theorem snakeToCamel_eq_joinWords (name : Text) :
    snakeToCamel name = joinWords (if name.any CodePoint.isLower then Text.split '_' name
      else (Text.split '_' name).map Text.lower) := by
  rw [snakeToCamel]
  generalize (if name.any CodePoint.isLower then Text.split '_' name
    else (Text.split '_' name).map Text.lower) = words
  cases words <;> rfl

/-! ### No underscore is left -/

/-- Lowering a text makes no underscore. -/
theorem underscore_notMem_lower {text : Text} (h : CodePoint.ofChar '_' ∉ text) :
    CodePoint.ofChar '_' ∉ Text.lower text := by
  intro hmem
  rcases Text.mem_lower hmem (by decide) with hmem | hlower
  · exact h hmem
  · exact absurd hlower (by decide)

/-- Capitalizing a word makes no underscore. -/
theorem underscore_notMem_capitalize {word : Text} (h : CodePoint.ofChar '_' ∉ word) :
    CodePoint.ofChar '_' ∉ capitalize word := by
  cases word with
  | nil => exact h
  | cons c rest =>
      intro hmem
      rcases List.mem_append.mp hmem with hfirst | hrest
      · rcases CodePoint.eq_or_between_of_mem_upper hfirst (by decide) with hsame | hcapital
        · exact h (hsame ▸ List.mem_cons_self)
        · exact absurd hcapital (by decide)
      · exact h (List.mem_cons_of_mem c hrest)

/-- Words without underscores are joined without underscores. -/
theorem underscore_notMem_joinWords {words : List Text}
    (h : ∀ word ∈ words, CodePoint.ofChar '_' ∉ word) :
    CodePoint.ofChar '_' ∉ joinWords words := by
  cases words with
  | nil => exact List.not_mem_nil
  | cons first rest =>
      obtain ⟨hfirst, hrest⟩ := List.forall_mem_cons.mp h
      intro hmem
      rcases List.mem_append.mp hmem with hmem | hmem
      · exact hfirst hmem
      · obtain ⟨part, hpart, hmem⟩ := List.mem_flatten.mp hmem
        obtain ⟨word, hword, rfl⟩ := List.mem_map.mp hpart
        exact underscore_notMem_capitalize (hrest word hword) hmem

/-- No name in camel case has an underscore. -/
theorem underscore_notMem_snakeToCamel (name : Text) :
    CodePoint.ofChar '_' ∉ snakeToCamel name := by
  rw [snakeToCamel_eq_joinWords]
  refine underscore_notMem_joinWords fun word hword => ?_
  split at hword
  · exact Text.notMem_of_mem_split hword
  · obtain ⟨part, hpart, rfl⟩ := List.mem_map.mp hword
    exact underscore_notMem_lower (Text.notMem_of_mem_split hpart)

/-- Camel case on request leaves a name as it is that it has changed. -/
theorem maybeCamel_maybeCamel (options : NamingOptions) (name : Text) :
    maybeCamel options (maybeCamel options name) = maybeCamel options name := by
  by_cases h : (options.snakeToCamel && name.contains (CodePoint.ofChar '_')) = true
  · have hcamel : maybeCamel options name = snakeToCamel name := if_pos h
    have hplain : ¬ (snakeToCamel name).contains (CodePoint.ofChar '_') := by
      rw [List.contains_iff_mem]
      exact underscore_notMem_snakeToCamel name
    rw [hcamel, maybeCamel, if_neg fun hagain => hplain (Bool.and_eq_true_iff.mp hagain).2]
  · have hplain : maybeCamel options name = name := if_neg h
    rw [hplain, hplain]

/-! ### ASCII names -/

/-- The text from which camel case takes its letters: the name, in lower case if it has no
lower-case letter. -/
def spelling (name : Text) : Text :=
  if name.any CodePoint.isLower then name else Text.lower name

variable {name : Text}

/-- The small letter of an ASCII code point is an underscore only for the underscore. -/
theorem small_eq_underscore_iff {c : CodePoint} (h : c.val < 0x80) :
    c.small = CodePoint.ofChar '_' ↔ c = CodePoint.ofChar '_' := by
  constructor
  · intro hsmall
    have hval : c.small.val = 0x5F := congrArg CodePoint.val hsmall
    refine CodePoint.eq_of_val_eq ?_
    show c.val = 0x5F
    rw [CodePoint.val_small h] at hval
    split at hval
    next hcapital =>
      rw [CodePoint.between_iff] at hcapital
      omega
    next => exact hval
  · rintro rfl
    rfl

/-- The spelling of an ASCII name is in ASCII. -/
theorem isAscii_spelling (h : Text.IsAscii name) : Text.IsAscii (spelling name) := by
  rw [spelling]
  split
  · exact h
  · rw [Text.lower_of_isAscii h]
    exact List.forall_mem_map.mpr fun c hc => CodePoint.small_ascii (h c hc)

/-- The camel case of an ASCII name consists of the letters of its spelling in camel case. -/
theorem snakeToCamel_eq_flatMap (h : Text.IsAscii name) :
    snakeToCamel name = (letters (spelling name)).flatMap cased := by
  have hjoin (text : Text) : joinWords (Text.split '_' text) = (letters text).flatMap cased := by
    rw [letters, flatMap_cased_lettersAfter, if_neg (Option.some_ne_none _).symm]
  rw [snakeToCamel_eq_joinWords, spelling]
  split
  · exact hjoin name
  · have hwords : (Text.split '_' name).map Text.lower =
        (Text.split '_' name).map (List.map CodePoint.small) := by
      refine List.map_congr_left fun word hword => Text.lower_of_isAscii fun c hc => ?_
      exact h c (Text.mem_of_mem_split hword hc)
    rw [hwords, ← Text.split_map fun c hc => small_eq_underscore_iff (h c hc),
      ← Text.lower_of_isAscii h, hjoin]

/-- A letter of ASCII in camel case is one code point of ASCII, with the same small letter. -/
theorem cased_of_ascii {letter : Option CodePoint × CodePoint} (h : letter.2.val < 0x80) :
    ∃ c, cased letter = [c] ∧ c.val < 0x80 ∧ c.small = letter.2.small := by
  rw [cased]
  split
  · exact CodePoint.upper_of_ascii h
  · exact ⟨letter.2, rfl, h, rfl⟩

/-- The letters of an ASCII text are in ASCII. -/
theorem ascii_of_mem_letters {text : Text} (h : Text.IsAscii text) :
    ∀ letter ∈ letters text, letter.2.val < 0x80 := by
  intro letter hletter
  have hmem : letter.2 ∈ (letters text).map Prod.snd := List.mem_map_of_mem hletter
  rw [map_snd_letters] at hmem
  exact h letter.2 (List.mem_of_mem_filter hmem)

/-- Letters of ASCII become code points one by one. -/
theorem forall₂_cased {places : List (Option CodePoint × CodePoint)}
    (h : ∀ letter ∈ places, letter.2.val < 0x80) :
    List.Forall₂ (fun letter c => cased letter = [c]) places (places.flatMap cased) := by
  induction places with
  | nil => exact .nil
  | cons letter rest ih =>
      obtain ⟨hletter, hrest⟩ := List.forall_mem_cons.mp h
      obtain ⟨c, hc, -, -⟩ := cased_of_ascii hletter
      rw [List.flatMap_cons, hc, List.singleton_append]
      exact .cons hc (ih hrest)

/-- Letters of ASCII keep their small letters. -/
theorem map_small_flatMap_cased {places : List (Option CodePoint × CodePoint)}
    (h : ∀ letter ∈ places, letter.2.val < 0x80) :
    (places.flatMap cased).map CodePoint.small = (places.map Prod.snd).map CodePoint.small := by
  induction places with
  | nil => rfl
  | cons letter rest ih =>
      obtain ⟨hletter, hrest⟩ := List.forall_mem_cons.mp h
      obtain ⟨c, hc, -, hsmall⟩ := cased_of_ascii hletter
      rw [List.flatMap_cons, hc, List.singleton_append, List.map_cons, List.map_cons, List.map_cons,
        hsmall, ih hrest]

/-- The camel case of an ASCII name is in ASCII. -/
theorem isAscii_snakeToCamel (h : Text.IsAscii name) : Text.IsAscii (snakeToCamel name) := by
  intro c hc
  rw [snakeToCamel_eq_flatMap h] at hc
  obtain ⟨letter, hletter, hc⟩ := List.mem_flatMap.mp hc
  have hletter := ascii_of_mem_letters (isAscii_spelling h) letter hletter
  obtain ⟨d, hd, hascii, -⟩ := cased_of_ascii hletter
  rw [hd] at hc
  obtain rfl := List.mem_singleton.mp hc
  exact hascii

/-- The spelling of an ASCII name has the same small letters between its underscores. -/
theorem map_small_filter_spelling (h : Text.IsAscii name) :
    ((spelling name).filter fun c => c ≠ CodePoint.ofChar '_').map CodePoint.small =
      (name.filter fun c => c ≠ CodePoint.ofChar '_').map CodePoint.small := by
  rw [spelling]
  split
  · rfl
  · have hfilter : (name.map CodePoint.small).filter (fun c => c ≠ CodePoint.ofChar '_') =
        (name.filter fun c => c ≠ CodePoint.ofChar '_').map CodePoint.small := by
      rw [List.filter_map]
      refine congrArg _ (List.filter_congr fun c hc => ?_)
      simp [small_eq_underscore_iff (h c hc)]
    rw [Text.lower_of_isAscii h, hfilter, List.map_map]
    refine List.map_congr_left fun c hc => ?_
    exact CodePoint.small_small (h c (List.mem_of_mem_filter hc))

/-- In lower case, the camel case of an ASCII name is the name without its underscores. -/
theorem lower_snakeToCamel (h : Text.IsAscii name) :
    Text.lower (snakeToCamel name) =
      Text.lower (name.filter fun c => c ≠ CodePoint.ofChar '_') := by
  have hfilter : Text.IsAscii (name.filter fun c => c ≠ CodePoint.ofChar '_') :=
    fun c hc => h c (List.mem_of_mem_filter hc)
  calc Text.lower (snakeToCamel name)
      = (snakeToCamel name).map CodePoint.small := Text.lower_of_isAscii (isAscii_snakeToCamel h)
    _ = ((letters (spelling name)).map Prod.snd).map CodePoint.small := by
        rw [snakeToCamel_eq_flatMap h,
          map_small_flatMap_cased (ascii_of_mem_letters (isAscii_spelling h))]
    _ = (name.filter fun c => c ≠ CodePoint.ofChar '_').map CodePoint.small := by
        rw [map_snd_letters, map_small_filter_spelling h]
    _ = Text.lower (name.filter fun c => c ≠ CodePoint.ofChar '_') :=
        (Text.lower_of_isAscii hfilter).symm

/-- Camel case keeps the letters of an ASCII name, wherever and however many its underscores are. No
underscore is left, and in lower case the result is the name without its underscores. If the name
has a lower-case letter, its letters are those of the result one by one, except that the first
letter of every word behind an underscore is in upper case there; otherwise the same holds of the
name in lower case. Camel case on request, with any options, changes no name a second time. -/
theorem snakeToCamel_keeps_letters (h : Text.IsAscii name) :
    CodePoint.ofChar '_' ∉ snakeToCamel name ∧
      Text.lower (snakeToCamel name) =
        Text.lower (name.filter fun c => c ≠ CodePoint.ofChar '_') ∧
      (name.any CodePoint.isLower →
        List.Forall₂ (fun letter c => cased letter = [c]) (letters name) (snakeToCamel name)) ∧
      (¬ name.any CodePoint.isLower →
        List.Forall₂ (fun letter c => cased letter = [c]) (letters (Text.lower name))
          (snakeToCamel name)) ∧
      ∀ options other,
        maybeCamel options (maybeCamel options other) = maybeCamel options other := by
  have haligned : List.Forall₂ (fun letter c => cased letter = [c]) (letters (spelling name))
      (snakeToCamel name) := by
    rw [snakeToCamel_eq_flatMap h]
    exact forall₂_cased (ascii_of_mem_letters (isAscii_spelling h))
  refine ⟨underscore_notMem_snakeToCamel name, lower_snakeToCamel h, fun hlower => ?_,
    fun hcapitals => ?_, maybeCamel_maybeCamel⟩
  · rwa [spelling, if_pos hlower] at haligned
  · rwa [spelling, if_neg hcapitals] at haligned

/-- A name with underscores at both ends and two in a row, and a word in capitals. -/
theorem snakeToCamel_keeps_letters_item :
    let name : Text := "_line_ITEM__no2_"
    Text.IsAscii name ∧ name.any CodePoint.isLower ∧
      snakeToCamel name = Text.ofString "LineITEMNo2" ∧
      List.Forall₂ (fun letter c => cased letter = [c]) (letters name)
        (Text.ofString "LineITEMNo2") := by
  intro name
  have hascii : Text.IsAscii name := by
    show ∀ c ∈ name, c.val < 0x80
    decide
  have hlower : name.any CodePoint.isLower := by decide
  have hcamel : snakeToCamel name = Text.ofString "LineITEMNo2" := by decide
  obtain ⟨-, -, haligned, -, -⟩ := snakeToCamel_keeps_letters hascii
  exact ⟨hascii, hlower, hcamel, hcamel ▸ haligned hlower⟩

end Naming

end ProtoSchema
