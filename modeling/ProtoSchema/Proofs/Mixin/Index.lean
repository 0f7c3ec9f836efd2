import Mathlib.Data.List.Sort
import ProtoSchema.Proofs.Mixin.Duplicates

/-!
# The index and the search

A full name is looked up in two ways: in the index of the entries, which finds the mixins, and by a
search through the entries, which finds the file of an expansion. `MessageIndex.AgreesWith` says
that a dictionary answers as the search does and lists its names as the entries do. The index of any
entries does so, and it is the only dictionary that does:
`MessageIndex.agreesWith_ofEntries_unique`.
-/

namespace ProtoSchema

namespace MessageIndex

/-- The dictionary answers as a search through the entries does: it has the names by which an entry
is found, each with the message of this entry, once, and in the order in which the names first occur
in the entries. -/
structure AgreesWith (index : MessageIndex) (entries : List Entry) : Prop where
  has : ∀ name, name ∈ index.keys ↔ (Entry.find? entries name).isSome
  answers : ∀ name, index.get? name = (Entry.find? entries name).map Entry.message
  distinct : index.keys.Nodup
  ordered : index.keys.Pairwise fun first second =>
    (entries.map Entry.fullName).idxOf first < (entries.map Entry.fullName).idxOf second

/-- The names in the index are the full names of the entries, in the order of first occurrence. -/
theorem keys_ofEntries (entries : List Entry) :
    (ofEntries entries).keys = (entries.map Entry.fullName).eraseDups :=
  Dictionary.keys_foldl_insertNew Entry.fullName Entry.message entries

/-- The index agrees with the search. -/
theorem agreesWith_ofEntries (entries : List Entry) : (ofEntries entries).AgreesWith entries where
  has := by
    intro name
    rw [keys_ofEntries, List.mem_eraseDups, Entry.isSome_find?_iff]
  answers := get?_ofEntries entries
  distinct := by
    rw [keys_ofEntries]
    exact nodup_eraseDups _
  ordered := by
    rw [keys_ofEntries]
    exact pairwise_idxOf_eraseDups _

/-- Two dictionaries that agree with the same search are equal. -/
theorem AgreesWith.unique {index other : MessageIndex} {entries : List Entry}
    (h : index.AgreesWith entries) (hother : other.AgreesWith entries) : index = other := by
  have hperm : index.keys.Perm other.keys := by
    refine (List.perm_ext_iff_of_nodup h.distinct hother.distinct).mpr fun name => ?_
    rw [h.has, hother.has]
  have hkeys : index.keys = other.keys :=
    hperm.eq_of_pairwise (fun _ _ _ _ hlt hgt => absurd hlt (Nat.lt_asymm hgt)) h.ordered
      hother.ordered
  refine Dictionary.eq_of_get?_eq hkeys h.distinct fun name => ?_
  rw [h.answers, hother.answers]

/-- The index of entries and the search through them agree, whatever names occur more than once: a
name is in the index exactly when an entry is found by it, and with the message of this entry. The
names in the index are distinct and come in the order of first occurrence. No other dictionary does
all this. -/
theorem agreesWith_ofEntries_unique (entries : List Entry) :
    (ofEntries entries).AgreesWith entries ∧
      ∀ index : MessageIndex, index.AgreesWith entries → index = ofEntries entries := by
  refine ⟨agreesWith_ofEntries entries, fun index h => ?_⟩
  exact h.unique (agreesWith_ofEntries entries)

end MessageIndex

end ProtoSchema
