import Mathlib.Data.List.Induction
import ProtoSchema.Text.Dictionary

/-!
# Look-up in dictionaries

What a key has after a dictionary is changed, for one insertion and for a run of them: `insert`
keeps the last value of a key and `insertNew` the first. A run of `insertNew` leaves the keys in the
order of first occurrence (`keys_foldl_insertNew`), and a dictionary with distinct keys is known by
their order and their values (`eq_of_get?_eq`). `foldl_push` says what a dictionary of lists holds
after values are appended to the lists of their keys one by one: every key once, in the order of
first occurrence, with all its values.
-/

namespace ProtoSchema

/-- The first occurrences in a longer list are those in the list and the new element, if it is new.
-/
theorem eraseDups_concat {β : Type} [BEq β] [LawfulBEq β] (items : List β) (item : β) :
    (items ++ [item]).eraseDups =
      if item ∈ items then items.eraseDups else items.eraseDups ++ [item] := by
  rw [List.eraseDups_append]
  by_cases h : item ∈ items <;> simp [List.removeAll, List.eraseDups_cons, h]

/-- The first occurrences in a list come in the order in which they stand in the list. -/
theorem pairwise_idxOf_eraseDups {β : Type} [BEq β] [LawfulBEq β] (items : List β) :
    items.eraseDups.Pairwise fun first second => items.idxOf first < items.idxOf second := by
  induction items using List.reverseRecOn with
  | nil => exact .nil
  | append_singleton items item ih =>
      have hkept {other : β} (hother : other ∈ items.eraseDups) :
          (items ++ [item]).idxOf other = items.idxOf other := by
        rw [List.idxOf_append, if_pos (List.mem_eraseDups.mp hother)]
      have hordered : items.eraseDups.Pairwise fun first second =>
          (items ++ [item]).idxOf first < (items ++ [item]).idxOf second := by
        refine ih.imp_of_mem fun hfirst hsecond hlt => ?_
        rw [hkept hfirst, hkept hsecond]
        exact hlt
      rw [eraseDups_concat]
      split
      · exact hordered
      next hnew =>
        refine List.pairwise_append.mpr ⟨hordered, List.pairwise_singleton _ item, ?_⟩
        intro other hother last hlast
        obtain rfl := List.mem_singleton.mp hlast
        have hbefore := List.idxOf_lt_length_of_mem (List.mem_eraseDups.mp hother)
        rw [hkept hother, List.idxOf_append, if_neg hnew]
        omega

/-- The first occurrences in a list are distinct. -/
theorem nodup_eraseDups {β : Type} [BEq β] [LawfulBEq β] (items : List β) :
    items.eraseDups.Nodup := by
  refine (pairwise_idxOf_eraseDups items).imp fun hlt heq => ?_
  rw [heq] at hlt
  exact Nat.lt_irrefl _ hlt

/-- A block of one element in front of others gives this element and those of the others. -/
theorem eraseDups_replicate_append {β : Type} [BEq β] [LawfulBEq β] {item : β} {items : List β}
    (count : Nat) (hnew : item ∉ items) :
    (List.replicate (count + 1) item ++ items).eraseDups = item :: items.eraseDups := by
  have hblock : (List.replicate count item).filter (fun other => !other == item) = [] := by
    simp
  have hothers : items.filter (fun other => !other == item) = items := by
    refine List.filter_eq_self.mpr fun other hother => ?_
    simpa using ne_of_mem_of_not_mem hother hnew
  rw [List.replicate_succ, List.cons_append, List.eraseDups_cons, List.filter_append, hblock,
    hothers, List.nil_append]

namespace Dictionary

variable {α β : Type}

/-- A key is there exactly when it has a value. -/
theorem mem_keys_iff {dictionary : Dictionary α} {key : Text} :
    key ∈ dictionary.keys ↔ ∃ value, dictionary.get? key = some value := by
  constructor
  · intro h
    obtain ⟨entry, hentry, rfl⟩ := List.mem_map.mp h
    have hfound : (dictionary.find? fun other => other.1 = entry.1).isSome := by
      rw [List.find?_isSome]
      exact ⟨entry, hentry, by simp⟩
    obtain ⟨found, hfound⟩ := Option.isSome_iff_exists.mp hfound
    exact ⟨found.2, by simp [get?, hfound]⟩
  · rintro ⟨value, h⟩
    obtain ⟨entry, hentry, -⟩ := Option.map_eq_some_iff.mp h
    have hkey : entry.1 = key := by simpa using List.find?_some hentry
    exact hkey ▸ List.mem_map_of_mem (List.mem_of_find?_eq_some hentry)

/-- A new key goes to the end. -/
theorem insert_of_notMem {dictionary : Dictionary α} {key : Text} (value : α)
    (h : key ∉ dictionary.keys) : dictionary.insert key value = dictionary ++ [(key, value)] := by
  induction dictionary with
  | nil => rfl
  | cons entry rest ih =>
      simp only [keys, List.map_cons, List.mem_cons, not_or] at h
      rw [insert, if_neg (Ne.symm h.1), ih h.2, List.cons_append]

/-- What is set behind keys that are different stays behind them. -/
theorem append_insert {front : Dictionary α} {key : Text}
    (h : key ∉ front.keys) (rest : Dictionary α) (value : α) :
    Dictionary.insert key value (front ++ rest) = front ++ rest.insert key value := by
  induction front with
  | nil => rfl
  | cons entry front ih =>
      simp only [keys, List.map_cons, List.mem_cons, not_or] at h
      rw [List.cons_append, insert, if_neg (Ne.symm h.1), ih h.2, List.cons_append]

/-- New keys that are distinct go to the end one after the other. -/
theorem foldl_insert_of_nodup {key : β → Text} {value : β → α} {items : List β}
    {dictionary : Dictionary α} (h : (dictionary.keys ++ items.map key).Nodup) :
    items.foldl (fun result item => result.insert (key item) (value item)) dictionary =
      dictionary ++ items.map fun item => (key item, value item) := by
  induction items generalizing dictionary with
  | nil => rw [List.foldl_nil, List.map_nil, List.append_nil]
  | cons item items ih =>
      have hnew : key item ∉ dictionary.keys := fun hmem =>
        (List.nodup_append.mp h).2.2 _ hmem _ List.mem_cons_self rfl
      rw [List.foldl_cons, insert_of_notMem _ hnew, ih, List.map_cons, List.append_assoc]
      · rfl
      · simpa [keys] using h

/-- The value of a key in front of a dictionary. -/
theorem get?_cons (entry : Text × α) (rest : Dictionary α) (key : Text) :
    Dictionary.get? (entry :: rest) key =
      if entry.1 = key then some entry.2 else rest.get? key := by
  unfold get?
  by_cases h : entry.1 = key <;> simp [h]

/-- Setting a key changes what this key has and nothing else. -/
theorem get?_insert (dictionary : Dictionary α) (key other : Text) (value : α) :
    (dictionary.insert key value).get? other =
      if key = other then some value else dictionary.get? other := by
  induction dictionary with
  | nil => rw [insert, get?_cons]
  | cons entry rest ih =>
      rw [insert]
      split
      next hkey =>
        subst hkey
        rw [get?_cons, get?_cons]
        split <;> rfl
      next hkey =>
        rw [get?_cons, ih, get?_cons]
        by_cases hentry : entry.1 = other
        · rw [if_pos hentry, if_pos hentry, if_neg fun h => hkey (hentry.trans h.symm)]
        · rw [if_neg hentry, if_neg hentry]

/-- Adding a key gives it a value where it has none and changes nothing else. -/
theorem get?_insertNew (dictionary : Dictionary α) (key other : Text) (value : α) :
    (dictionary.insertNew key value).get? other =
      (dictionary.get? other).or (if key = other then some value else none) := by
  induction dictionary with
  | nil => rw [insertNew, get?_cons]; rfl
  | cons entry rest ih =>
      rw [insertNew]
      split
      next hkey =>
        subst hkey
        rw [get?_cons]
        split <;> simp
      next hkey =>
        rw [get?_cons, ih, get?_cons]
        split <;> simp

/-- A key that is not there has no value. -/
theorem get?_of_notMem {dictionary : Dictionary α} {key : Text} (h : key ∉ dictionary.keys) :
    dictionary.get? key = none := by
  refine Option.eq_none_iff_forall_ne_some.mpr fun value hvalue => ?_
  exact h (mem_keys_iff.mpr ⟨value, hvalue⟩)

/-- Dictionaries with the same distinct keys are equal if every key has the same value in both. -/
theorem eq_of_get?_eq {first second : Dictionary α} (hkeys : first.keys = second.keys)
    (hdistinct : first.keys.Nodup) (h : ∀ key, first.get? key = second.get? key) :
    first = second := by
  induction first generalizing second with
  | nil => exact (List.map_eq_nil_iff.mp hkeys.symm).symm
  | cons entry rest ih =>
      cases second with
      | nil => exact absurd hkeys (List.cons_ne_nil _ _)
      | cons other others =>
          obtain ⟨hkey, hrest⟩ := List.cons.inj hkeys
          obtain ⟨hnew, hdistinct⟩ := List.nodup_cons.mp hdistinct
          have hvalue := h entry.1
          rw [get?_cons, get?_cons, if_pos rfl, if_pos hkey.symm] at hvalue
          have hentry : entry = other := Prod.ext hkey (Option.some.inj hvalue)
          refine congrArg₂ List.cons hentry (ih hrest hdistinct fun key => ?_)
          by_cases hfirst : entry.1 = key
          · subst hfirst
            have hother : entry.1 ∉ keys others := by
              intro hmem
              exact hnew (hrest ▸ hmem)
            rw [get?_of_notMem hnew, get?_of_notMem hother]
          · have hlater := h key
            rw [get?_cons, get?_cons, if_neg hfirst, if_neg (hkey ▸ hfirst)] at hlater
            exact hlater

/-- Adding a key puts it behind the others, unless it is there. -/
theorem keys_insertNew (dictionary : Dictionary α) (key : Text) (value : α) :
    (dictionary.insertNew key value).keys =
      if key ∈ dictionary.keys then dictionary.keys else dictionary.keys ++ [key] := by
  induction dictionary with
  | nil => rfl
  | cons entry rest ih =>
      have hcons (others : Dictionary α) : keys (entry :: others) = entry.1 :: keys others := rfl
      by_cases hkey : entry.1 = key
      · have hmem : key ∈ keys (entry :: rest) := by simp [keys, hkey]
        rw [insertNew, if_pos hkey, if_pos hmem]
      · have hmem : key ∈ keys (entry :: rest) ↔ key ∈ keys rest := by
          simp [keys, Ne.symm hkey]
        rw [insertNew, if_neg hkey, hcons, ih]
        by_cases h : key ∈ keys rest
        · rw [if_pos h, if_pos (hmem.mpr h), hcons]
        · rw [if_neg h, if_neg (mt hmem.mp h), hcons, List.cons_append]

/-- A run of additions makes a key of every name, in the order of first occurrence. -/
theorem keys_foldl_insertNew (key : β → Text) (value : β → α) (items : List β) :
    keys (items.foldl (fun result item => insertNew (key item) (value item) result) []) =
      (items.map key).eraseDups := by
  induction items using List.reverseRecOn with
  | nil => rfl
  | append_singleton items item ih =>
      rw [List.foldl_append, List.foldl_cons, List.foldl_nil, keys_insertNew, ih, List.map_append,
        List.map_cons, List.map_nil, eraseDups_concat]
      simp only [List.mem_eraseDups]

/-- After a run of settings a key has its last value. -/
theorem get?_foldl_insert (key : β → Text) (value : β → α) (items : List β)
    (dictionary : Dictionary α) (name : Text) :
    (items.foldl (fun result item => result.insert (key item) (value item)) dictionary).get? name =
      ((items.filter fun item => key item = name).getLast?.map value).or
        (dictionary.get? name) := by
  induction items using List.reverseRecOn with
  | nil => rfl
  | append_singleton items item ih =>
      rw [List.foldl_append, List.foldl_cons, List.foldl_nil, get?_insert, ih, List.filter_append]
      by_cases h : key item = name <;> simp [h]

/-- After a run of additions a key that was not there has its first value. -/
theorem get?_foldl_insertNew (key : β → Text) (value : β → α) (items : List β)
    (dictionary : Dictionary α) (name : Text) :
    (items.foldl (fun result item => result.insertNew (key item) (value item)) dictionary).get?
        name =
      (dictionary.get? name).or ((items.find? fun item => key item = name).map value) := by
  induction items generalizing dictionary with
  | nil => simp
  | cons item items ih =>
      rw [List.foldl_cons, ih, get?_insertNew, List.find?_cons]
      by_cases h : key item = name <;> simp [h]

/-! ### Dictionaries of lists -/

/-- Append a value to the list of its key. -/
def push (groups : Dictionary (List α)) (pair : Text × α) : Dictionary (List α) :=
  groups.insert pair.1 ((groups.get? pair.1).getD [] ++ [pair.2])

/-- The values that pairs give a key. -/
def valuesAt (pairs : List (Text × α)) (key : Text) : List α :=
  (pairs.filter fun pair => pair.1 = key).map Prod.snd

/-- The values of a key come in the order of the pairs. -/
theorem valuesAt_append (first rest : List (Text × α)) (key : Text) :
    valuesAt (first ++ rest) key = valuesAt first key ++ valuesAt rest key := by
  rw [valuesAt, List.filter_append, List.map_append, valuesAt, valuesAt]

/-- A key that no pair has is given no values. -/
theorem valuesAt_of_notMem {pairs : List (Text × α)} {key : Text}
    (h : key ∉ pairs.map Prod.fst) : valuesAt pairs key = [] := by
  have hfilter : (pairs.filter fun pair => pair.1 = key) = [] := by
    refine List.filter_eq_nil_iff.mpr fun pair hpair => ?_
    simpa using ne_of_mem_of_not_mem (List.mem_map_of_mem hpair) h
  rw [valuesAt, hfilter, List.map_nil]

/-- Pairs with one key give this key their values and all others none. -/
theorem valuesAt_block (key : Text) (values : List α) (name : Text) :
    valuesAt (values.map fun value => (key, value)) name = if key = name then values else [] := by
  rw [valuesAt, List.filter_map, List.map_map]
  by_cases h : key = name <;> simp [h, Function.comp_def]

/-- The keys of pairs in the order in which they first occur, each with its values. -/
def gathered (pairs : List (Text × α)) : Dictionary (List α) :=
  (pairs.map Prod.fst).eraseDups.map fun key => (key, valuesAt pairs key)

/-- The gathered values are those of the pairs. -/
theorem mem_gathered_iff {pairs : List (Text × α)} {key : Text} {value : α} :
    (∃ group ∈ gathered pairs, group.1 = key ∧ value ∈ group.2) ↔ (key, value) ∈ pairs := by
  have hvalues (name : Text) : value ∈ valuesAt pairs name ↔ (name, value) ∈ pairs := by
    simp [valuesAt]
  constructor
  · rintro ⟨group, hgroup, rfl, hvalue⟩
    obtain ⟨name, -, rfl⟩ := List.mem_map.mp hgroup
    exact (hvalues name).mp hvalue
  · intro hpair
    refine ⟨(key, valuesAt pairs key), List.mem_map_of_mem ?_, rfl, (hvalues key).mpr hpair⟩
    exact List.mem_eraseDups.mpr (List.mem_map_of_mem hpair)

/-- Pairs in a block with a key of its own are gathered there. -/
theorem gathered_block_append {key : Text} {values : List α} {pairs : List (Text × α)}
    (hvalues : values ≠ []) (hnew : key ∉ pairs.map Prod.fst) :
    gathered (values.map (fun value => (key, value)) ++ pairs) =
      (key, values) :: gathered pairs := by
  obtain ⟨first, rest, rfl⟩ := List.exists_cons_of_ne_nil hvalues
  have hkeys : ((first :: rest).map fun value => (key, value)).map Prod.fst =
      List.replicate (rest.length + 1) key := by
    rw [List.map_map]
    exact List.map_const' ..
  rw [gathered, List.map_append, hkeys, eraseDups_replicate_append _ hnew, List.map_cons,
    valuesAt_append, valuesAt_block, if_pos rfl, valuesAt_of_notMem hnew, List.append_nil, gathered]
  congr 1
  refine List.map_congr_left fun name hname => ?_
  have hne : key ≠ name := fun h => hnew (h ▸ List.mem_eraseDups.mp hname)
  rw [valuesAt_append, valuesAt_block, if_neg hne, List.nil_append]

/-- Pairs that come in blocks with distinct keys are gathered in these blocks. -/
theorem gathered_flatMap {items : List β} {key : β → Text} {values : β → List α}
    (hkeys : (items.map key).Nodup) (hvalues : ∀ item ∈ items, values item ≠ []) :
    gathered (items.flatMap fun item => (values item).map fun value => (key item, value)) =
      items.map fun item => (key item, values item) := by
  induction items with
  | nil => rfl
  | cons item items ih =>
      obtain ⟨hnew, hkeys⟩ := List.nodup_cons.mp hkeys
      obtain ⟨hfirst, hvalues⟩ := List.forall_mem_cons.mp hvalues
      rw [List.flatMap_cons, gathered_block_append hfirst, ih hkeys hvalues, List.map_cons]
      intro hmem
      obtain ⟨pair, hpair, hkey⟩ := List.mem_map.mp hmem
      obtain ⟨other, hother, hpair⟩ := List.mem_flatMap.mp hpair
      obtain ⟨value, -, rfl⟩ := List.mem_map.mp hpair
      exact hnew (List.mem_map.mpr ⟨other, hother, hkey⟩)

/-- The value of a key in a dictionary that is given by a function. -/
theorem get?_map (names : List Text) (value : Text → α) (key : Text) :
    Dictionary.get? (names.map fun name => (name, value name)) key =
      if key ∈ names then some (value key) else none := by
  induction names with
  | nil => rfl
  | cons name names ih =>
      rw [List.map_cons, get?_cons, ih]
      by_cases h : name = key
      · simp [h]
      · simp [h, Ne.symm h]

/-- Setting a key changes the function that a dictionary is given by. -/
theorem insert_map {names : List Text} (hnames : names.Nodup) {key : Text} (hkey : key ∈ names)
    (before after : Text → α) (hothers : ∀ name ∈ names, name ≠ key → after name = before name) :
    Dictionary.insert key (after key) (names.map fun name => (name, before name)) =
      names.map fun name => (name, after name) := by
  induction names with
  | nil => exact absurd hkey List.not_mem_nil
  | cons name names ih =>
      obtain ⟨hnew, hnames⟩ := List.nodup_cons.mp hnames
      obtain ⟨hfirst, hrest⟩ := List.forall_mem_cons.mp hothers
      rw [List.map_cons, List.map_cons, insert]
      by_cases h : name = key
      · subst h
        rw [if_pos rfl]
        congr 1
        refine List.map_congr_left fun other hother => ?_
        rw [hrest other hother (ne_of_mem_of_not_mem hother hnew)]
      · have hmem : key ∈ names := (List.mem_cons.mp hkey).resolve_left (Ne.symm h)
        rw [if_neg h, ih hnames hmem hrest, hfirst h]

/-- Appending values one by one gathers them. -/
theorem foldl_push (pairs : List (Text × α)) : pairs.foldl push [] = gathered pairs := by
  induction pairs using List.reverseRecOn with
  | nil => rfl
  | append_singleton pairs pair ih =>
      obtain ⟨key, value⟩ := pair
      have hvalues (name : Text) : valuesAt (pairs ++ [(key, value)]) name =
          valuesAt pairs name ++ if key = name then [value] else [] := by
        rw [valuesAt_append]
        exact congrArg _ (valuesAt_block key [value] name)
      rw [List.foldl_append, ih, List.foldl_cons, List.foldl_nil, push, gathered, get?_map,
        gathered, List.map_append, List.map_cons, List.map_nil, eraseDups_concat]
      simp only [List.mem_eraseDups]
      by_cases hkey : key ∈ pairs.map Prod.fst
      · rw [if_pos hkey, if_pos hkey, Option.getD_some]
        have hlast : valuesAt pairs key ++ [value] = valuesAt (pairs ++ [(key, value)]) key := by
          rw [hvalues, if_pos rfl]
        rw [hlast]
        refine insert_map (nodup_eraseDups _) (List.mem_eraseDups.mpr hkey) _ _ ?_
        intro name _ hne
        rw [hvalues, if_neg (Ne.symm hne), List.append_nil]
      · -- A new key has no values yet, and the other keys keep theirs.
        rw [if_neg hkey, if_neg hkey, insert_of_notMem, List.map_append, List.map_cons,
          List.map_nil, hvalues, valuesAt_of_notMem hkey, if_pos rfl]
        · congr 1
          refine List.map_congr_left fun name hname => ?_
          have hne : key ≠ name := fun h => hkey (h ▸ List.mem_eraseDups.mp hname)
          rw [hvalues, if_neg hne, List.append_nil]
        · simpa [keys, Function.comp_def] using hkey

end Dictionary

end ProtoSchema
