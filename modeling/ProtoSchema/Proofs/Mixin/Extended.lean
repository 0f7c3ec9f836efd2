import ProtoSchema.Proofs.Mixin.Duplicates

/-!
# More entries

What more entries change in the expansions of those that are there: nothing. An index keeps all that
it finds when entries are added (`MessageIndex.ofEntries_isExtendedBy`), so what expands with it
expands to the same in the larger one. Main statement: `expand_append`. The expansions of entries
with new names come behind those that are there, and their errors are raised as they are.
-/

namespace ProtoSchema

/-! ### A larger index -/

/-- The other index finds everything that the first one does. -/
def MessageIndex.IsExtendedBy (index other : MessageIndex) : Prop :=
  ∀ name message, index.get? name = some message → other.get? name = some message

/-- The index of entries is extended by that of these entries and others behind them. -/
theorem MessageIndex.ofEntries_isExtendedBy (first second : List Entry) :
    (MessageIndex.ofEntries first).IsExtendedBy (.ofEntries (first ++ second)) := by
  intro name message h
  rw [get?_ofEntries, Option.map_eq_some_iff] at h
  obtain ⟨entry, hentry, rfl⟩ := h
  rw [Entry.find?] at hentry
  rw [get?_ofEntries, Entry.find?, List.find?_append, hentry]
  rfl

section LargerIndex

variable {index other : MessageIndex} {message : Message}

/-- An expandable message has the same fields to merge in a larger index. -/
theorem Message.Expandable.mergedFields_eq (hexpandable : message.Expandable index)
    (hextended : index.IsExtendedBy other) :
    message.mergedFields other = message.mergedFields index := by
  have hnamed : ∀ setting ∈ message.mixinSettings, other.named? setting = index.named? setting := by
    intro setting hsetting
    obtain ⟨name, hname, hkey⟩ := hexpandable.1 setting hsetting
    obtain ⟨found, hfound⟩ := Dictionary.mem_keys_iff.mp hkey
    rw [MessageIndex.named?, MessageIndex.named?, hname, Option.bind_some, Option.bind_some, hfound,
      hextended name found hfound]
  rw [mergedFields, mergedFields, List.filterMap_congr hnamed]

/-- An expandable message expands to the same in a larger index. -/
theorem Message.Expandable.expansion_eq (hexpandable : message.Expandable index)
    (hextended : index.IsExtendedBy other) :
    message.expansion other = message.expansion index := by
  rw [expansion, expansion, hexpandable.mergedFields_eq hextended]

/-- An expandable message stays expandable in a larger index. -/
theorem Message.Expandable.extend (hexpandable : message.Expandable index)
    (hextended : index.IsExtendedBy other) : message.Expandable other := by
  refine ⟨fun setting hsetting => ?_, hexpandable.mergedFields_eq hextended ▸ hexpandable.2⟩
  obtain ⟨name, hname, hkey⟩ := hexpandable.1 setting hsetting
  obtain ⟨found, hfound⟩ := Dictionary.mem_keys_iff.mp hkey
  exact ⟨name, hname, Dictionary.mem_keys_iff.mpr ⟨found, hextended name found hfound⟩⟩

/-- Entries that can be expanded have the same expansions in a larger index. -/
theorem expandWith_extend {entries : List Entry} {expanded : Dictionary Message}
    (hextended : index.IsExtendedBy other) (h : expandWith index entries = .ok expanded) :
    expandWith other entries = .ok expanded := by
  obtain ⟨hexpandable, rfl⟩ := Entry.foldlM_expandInto_eq_ok_iff_foldl.mp h
  refine Entry.foldlM_expandInto_eq_ok_iff_foldl.mpr ⟨fun entry hentry hhost =>
    (hexpandable entry hentry hhost).extend hextended, ?_⟩
  refine List.foldl_ext _ _ _ fun recorded entry hentry => ?_
  obtain ⟨hmem, hhost⟩ := List.mem_filter.mp hentry
  rw [(hexpandable entry hmem hhost).expansion_eq hextended]

end LargerIndex

/-! ### Expansions behind others -/

/-- An entry with a new name is expanded as if nothing stood in front. -/
theorem Entry.expandInto_append {front : Dictionary Message} {entry : Entry}
    (hnew : entry.fullName ∉ front.keys) (index : MessageIndex) (expanded : Dictionary Message) :
    entry.expandInto index (front ++ expanded) =
      (entry.expandInto index expanded).map (front ++ ·) := by
  unfold expandInto
  cases entry.message.mixins with
  | error cause => rfl
  | ok names =>
      show (if names.isEmpty then _ else _) = Except.map _ (if names.isEmpty then _ else _)
      split
      · rfl
      · cases entry.message.expand names index with
        | error cause => rfl
        | ok message => exact congrArg Except.ok (Dictionary.append_insert hnew expanded message)

/-- Entries with new names are expanded as if nothing stood in front. -/
theorem Entry.foldlM_expandInto_append {front : Dictionary Message} {entries : List Entry}
    (hnew : ∀ entry ∈ entries, entry.fullName ∉ front.keys) (index : MessageIndex)
    (expanded : Dictionary Message) :
    entries.foldlM (Entry.expandInto index) (front ++ expanded) =
      (entries.foldlM (Entry.expandInto index) expanded).map (front ++ ·) := by
  induction entries generalizing expanded with
  | nil => rfl
  | cons entry entries ih =>
      obtain ⟨hentry, hentries⟩ := List.forall_mem_cons.mp hnew
      rw [List.foldlM_cons, List.foldlM_cons, Entry.expandInto_append hentry]
      cases entry.expandInto index expanded with
      | error cause => rfl
      | ok next => exact ih hentries next

/-- Entries with new full names change nothing in the expansions of those in front of them. The
result for all is the result for the first ones, which is followed by the result for the second ones
with the index of all. It fails exactly when that does, and with the same error. -/
theorem expand_append {first second : List Entry} {expanded : Dictionary Message}
    (hnew : (first.map Entry.fullName).Disjoint (second.map Entry.fullName))
    (h : expand first = .ok expanded) :
    expand (first ++ second) =
      (expandWith (.ofEntries (first ++ second)) second).map (expanded ++ ·) := by
  have hfirst : expandWith (.ofEntries (first ++ second)) first = .ok expanded :=
    expandWith_extend (MessageIndex.ofEntries_isExtendedBy first second) h
  have hkeys : ∀ entry ∈ second, entry.fullName ∉ expanded.keys := by
    intro entry hentry hkey
    obtain ⟨-, last, -, hlast⟩ := Entry.resolves_of_expand h hkey
    obtain ⟨hmem, -, hname⟩ := Entry.of_lastHost?_eq_some hlast
    exact hnew (List.mem_map_of_mem hmem) (hname ▸ List.mem_map_of_mem hentry)
  have happend := Entry.foldlM_expandInto_append hkeys (.ofEntries (first ++ second)) []
  rw [List.append_nil] at happend
  show (first ++ second).foldlM _ [] = _
  rw [List.foldlM_append]
  unfold expandWith at hfirst
  rw [hfirst]
  exact happend

/-- A file that is added may use the messages of the one in front of it. -/
theorem expand_append_user :
    let first : List Entry :=
      [⟨"one.proto", [], mixinSource⟩,
        ⟨"one.proto", [], mixinUser "A" { name := "x", number := 2, type := "int32" }⟩]
    let second : List Entry :=
      [⟨"two.proto", [], mixinUser "B" { name := "y", number := 3, type := "int32" }⟩]
    let inherited : Field := { name := "m", number := 1, type := "int32" }
    let expanded : Dictionary Message :=
      [("A", { name := "A", fields :=
        [inherited, { name := "x", number := 2, type := "int32" }] })]
    let added : Dictionary Message :=
      [("B", { name := "B", fields :=
        [inherited, { name := "y", number := 3, type := "int32" }] })]
    ((first.map Entry.fullName).Disjoint (second.map Entry.fullName) ∧
      expand first = .ok expanded) ∧
    expand (first ++ second) = .ok (expanded ++ added) := by
  intro first second inherited expanded added
  have hnew : (first.map Entry.fullName).Disjoint (second.map Entry.fullName) := by
    rw [List.disjoint_iff_ne]
    decide
  have hfirst : expand first = .ok expanded := rfl
  refine ⟨⟨hnew, hfirst⟩, ?_⟩
  rw [expand_append hnew hfirst]
  rfl

end ProtoSchema
