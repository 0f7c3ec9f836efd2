import ProtoSchema.Proofs.Mixin.Expansion

/-!
# Names that occur twice

What a full name stands for where several entries have it. The index and the search for an entry
take the first entry of the name (`MessageIndex.get?_ofEntries`), while expanding all entries
records the last one that declares mixins (`get?_expand`). `Entry.resolvesAlike_iff` says when this
makes no difference, and `expand_twice_declared` is a case where it does: the expansion recorded for
a name is not that of the entry found by this name.
-/

namespace ProtoSchema

/-- The index has the message of the first entry of a name. -/
theorem MessageIndex.get?_ofEntries (entries : List Entry) (name : Text) :
    (MessageIndex.ofEntries entries).get? name = (Entry.find? entries name).map Entry.message := by
  rw [MessageIndex.ofEntries, Dictionary.get?_foldl_insertNew, Entry.find?]
  rfl

/-- The last entry of this full name that declares mixins. -/
def Entry.lastHost? (entries : List Entry) (name : Text) : Option Entry :=
  ((entries.filter Entry.isHost).filter fun entry => entry.fullName = name).getLast?

/-- What is known of the last entry of a name that declares mixins. -/
theorem Entry.of_lastHost?_eq_some {entries : List Entry} {name : Text} {last : Entry}
    (h : Entry.lastHost? entries name = some last) :
    last ∈ entries ∧ last.isHost ∧ last.fullName = name := by
  obtain ⟨hhost, hname⟩ := List.mem_filter.mp (List.mem_of_getLast? h)
  obtain ⟨hmem, hdeclares⟩ := List.mem_filter.mp hhost
  exact ⟨hmem, hdeclares, of_decide_eq_true hname⟩

/-- Some entry is found exactly by the full names of the entries. -/
theorem Entry.isSome_find?_iff {entries : List Entry} {name : Text} :
    (Entry.find? entries name).isSome ↔ name ∈ entries.map Entry.fullName := by
  rw [Entry.find?, List.find?_isSome, List.mem_map]
  simp

/-- A name that some entry has is found. -/
theorem Entry.find?_of_mem {entries : List Entry} {entry : Entry} (h : entry ∈ entries) :
    ∃ first, Entry.find? entries entry.fullName = some first := by
  refine Option.isSome_iff_exists.mp (Entry.isSome_find?_iff.mpr ?_)
  exact List.mem_map_of_mem h

/-- Expanding entries records, for every name, the expansion of the last entry of this name that
declares mixins. -/
theorem get?_expand {entries : List Entry} {expanded : Dictionary Message}
    (h : expand entries = .ok expanded) (name : Text) :
    expanded.get? name = (Entry.lastHost? entries name).map fun last =>
      last.message.expansion (.ofEntries entries) := by
  obtain ⟨-, rfl⟩ := Entry.foldlM_expandInto_eq_ok_iff_foldl.mp h
  rw [Dictionary.get?_foldl_insert, Entry.lastHost?]
  exact Option.or_none

/-- A name in the result of an expansion has a first entry and a last one that declares mixins. -/
theorem Entry.resolves_of_expand {entries : List Entry} {expanded : Dictionary Message}
    (h : expand entries = .ok expanded) {name : Text} (hname : name ∈ expanded.keys) :
    ∃ first last, Entry.find? entries name = some first ∧
      Entry.lastHost? entries name = some last := by
  obtain ⟨message, hmessage⟩ := Dictionary.mem_keys_iff.mp hname
  obtain ⟨last, hlast, -⟩ := Option.map_eq_some_iff.mp ((get?_expand h name).symm.trans hmessage)
  obtain ⟨hmem, -, rfl⟩ := Entry.of_lastHost?_eq_some hlast
  obtain ⟨first, hfirst⟩ := Entry.find?_of_mem hmem
  exact ⟨first, last, hfirst, hlast⟩

/-- A name stands for one entry everywhere: the entry found by this name declares mixins, the index
has its message, and its expansion is the one that is recorded. -/
def Entry.ResolvesAlike (entries : List Entry) (expanded : Dictionary Message) (name : Text) :
    Prop :=
  ∃ entry, Entry.find? entries name = some entry ∧ entry.isHost ∧
    (MessageIndex.ofEntries entries).get? name = some entry.message ∧
    expanded.get? name = some (entry.message.expansion (.ofEntries entries))

/-- Where entries are expanded, every name in the result has a first entry, whose message is in the
index, and a last entry that declares mixins, whose expansion is recorded. The name stands for one
entry everywhere exactly when the first entry declares mixins and has the expansion of the last. -/
theorem Entry.resolvesAlike_iff {entries : List Entry} {expanded : Dictionary Message}
    (h : expand entries = .ok expanded) {name : Text} (hname : name ∈ expanded.keys) :
    ∃ first last, Entry.find? entries name = some first ∧
      Entry.lastHost? entries name = some last ∧
      (MessageIndex.ofEntries entries).get? name = some first.message ∧
      expanded.get? name = some (last.message.expansion (.ofEntries entries)) ∧
      (Entry.ResolvesAlike entries expanded name ↔
        first.isHost ∧ first.message.expansion (.ofEntries entries) =
          last.message.expansion (.ofEntries entries)) := by
  obtain ⟨first, last, hfirst, hlast⟩ := Entry.resolves_of_expand h hname
  have hindex : (MessageIndex.ofEntries entries).get? name = some first.message := by
    rw [MessageIndex.get?_ofEntries, hfirst, Option.map_some]
  have hrecorded : expanded.get? name = some (last.message.expansion (.ofEntries entries)) := by
    rw [get?_expand h, hlast, Option.map_some]
  refine ⟨first, last, hfirst, hlast, hindex, hrecorded, ?_⟩
  constructor
  · rintro ⟨entry, hentry, hhost, -, hexpansion⟩
    obtain rfl := Option.some.inj (hfirst.symm.trans hentry)
    exact ⟨hhost, Option.some.inj (hexpansion.symm.trans hrecorded)⟩
  · rintro ⟨hhost, hsame⟩
    exact ⟨first, hfirst, hhost, hindex, by rw [hrecorded, hsame]⟩

/-- A message `M` with one field. -/
def mixinSource : Message :=
  { name := "M", fields := [{ name := "m", number := 1, type := "int32" }] }

/-- A message with one field, which takes `M` as its mixin. -/
def mixinUser (name : Text) (field : Field) : Message :=
  { name, fields := [field], options := [⟨mixinOption, .text "M"⟩] }

/-- A second message `A` that declares no mixins does not disturb the first one. -/
theorem resolvesAlike_plainSecond :
    let entries : List Entry :=
      [⟨"one.proto", [], mixinSource⟩,
        ⟨"one.proto", [], mixinUser "A" { name := "x", number := 2, type := "int32" }⟩,
        ⟨"two.proto", [], { name := "A" }⟩]
    let expanded : Dictionary Message :=
      [("A", { name := "A", fields :=
        [{ name := "m", number := 1, type := "int32" },
          { name := "x", number := 2, type := "int32" }] })]
    (expand entries = .ok expanded ∧ Text.ofString "A" ∈ expanded.keys) ∧
      Entry.ResolvesAlike entries expanded "A" := by
  intro entries expanded
  have hexpand : expand entries = .ok expanded := rfl
  have hname : Text.ofString "A" ∈ expanded.keys := by decide
  obtain ⟨first, last, hfirst, hlast, -, -, hiff⟩ := Entry.resolvesAlike_iff hexpand hname
  refine ⟨⟨hexpand, hname⟩, hiff.mpr ?_⟩
  obtain rfl := Option.some.inj hfirst
  obtain rfl := Option.some.inj hlast
  exact ⟨by decide, rfl⟩

/-- Two messages `A` from two files both take `M` as their mixin. The name `A` is found in the first
file, but the expansion recorded for it has the field of the second one. -/
theorem expand_twice_declared :
    let first : Entry :=
      ⟨"one.proto", [], mixinUser "A" { name := "x", number := 2, type := "int32" }⟩
    let second : Entry :=
      ⟨"two.proto", [], mixinUser "A" { name := "y", number := 3, type := "int32" }⟩
    let entries : List Entry := [⟨"one.proto", [], mixinSource⟩, first, second]
    let expanded : Dictionary Message :=
      [("A", { name := "A", fields :=
        [{ name := "m", number := 1, type := "int32" },
          { name := "y", number := 3, type := "int32" }] })]
    expand entries = .ok expanded ∧ Entry.find? entries "A" = some first ∧
      ¬ Entry.ResolvesAlike entries expanded "A" := by
  intro first second entries expanded
  refine ⟨rfl, rfl, ?_⟩
  rintro ⟨entry, hentry, -, -, hexpansion⟩
  obtain rfl := Option.some.inj hentry
  have hnumbers := congrArg (Option.map fun message => message.fields.map Field.number) hexpansion
  exact absurd hnumbers (by decide)

end ProtoSchema
