import Mathlib
import ProtoSchema.Proofs.Mixin.Expansion
import ProtoSchema.Proofs.Schema.Standalone

/-!
# Expansions that stand alone

Expansions are made of the fields of messages that were parsed, so they are sourced as these are.
`areStandalone_expanded_iff` says which expansions are read back from their text: those whose fields
all have names and types as in field statements. A group may have another name or type, since any
name is taken as its type and the lower case of it as the name of the field, and an expansion with
its field may be refused (`parse_expanded_nestedGroup`).
-/

namespace ProtoSchema

open Lexer (IsName)

/-! ### Entries of parsed files -/

mutual

/-- The entries of a sourced message are sourced. -/
theorem Message.isSourced_of_mem_entries {file : Text} {path : List Text} {entry : Entry} :
    ∀ message : Message, message.IsSourced → entry ∈ message.entries file path →
      entry.message.IsSourced
  | ⟨name, fields, messages, enums, options⟩, h, hmem => by
      rw [Message.entries] at hmem
      rcases List.mem_cons.mp hmem with rfl | hmem
      · exact h
      · cases h with
        | mk _ _ hmessages => exact isSourced_of_mem_entriesOfList messages hmessages hmem

/-- The entries of sourced messages are sourced. -/
theorem Message.isSourced_of_mem_entriesOfList {file : Text} {path : List Text} {entry : Entry} :
    ∀ messages : List Message, (∀ message ∈ messages, message.IsSourced) →
      entry ∈ Message.entriesOfList file path messages → entry.message.IsSourced
  | [], _, hmem => absurd hmem List.not_mem_nil
  | first :: rest, h, hmem => by
      obtain ⟨hfirst, hrest⟩ := List.forall_mem_cons.mp h
      rcases List.mem_append.mp hmem with hmem | hmem
      · exact isSourced_of_mem_entries first hfirst hmem
      · exact isSourced_of_mem_entriesOfList rest hrest hmem

end

mutual

/-- The entries of a declaration are sourced when its messages are. -/
theorem Declaration.isSourced_of_mem_entries {file : Text} {path : List Text} {entry : Entry} :
    ∀ declaration : Declaration,
      (∀ message ∈ Declaration.messagesOf declaration, message.IsSourced) →
      entry ∈ declaration.entries file path → entry.message.IsSourced
  | .message declared, h, hmem =>
      Message.isSourced_of_mem_entries declared (h declared List.mem_cons_self) hmem
  | .enum _, _, hmem => absurd hmem List.not_mem_nil
  | .service _, _, hmem => absurd hmem List.not_mem_nil
  | .scope _ members, h, hmem => Declaration.isSourced_of_mem_entriesOfList members h hmem

/-- The entries of declarations are sourced when their messages are. -/
theorem Declaration.isSourced_of_mem_entriesOfList {file : Text} {path : List Text}
    {entry : Entry} : ∀ declarations : List Declaration,
      (∀ message ∈ Declaration.messagesIn declarations, message.IsSourced) →
      entry ∈ Declaration.entriesOfList file path declarations → entry.message.IsSourced
  | [], _, hmem => absurd hmem List.not_mem_nil
  | first :: rest, h, hmem => by
      obtain ⟨hfirst, hrest⟩ := List.forall_mem_append.mp h
      rcases List.mem_append.mp hmem with hmem | hmem
      · exact Declaration.isSourced_of_mem_entries first hfirst hmem
      · exact Declaration.isSourced_of_mem_entriesOfList rest hrest hmem

end

/-- The entries of a parsed file are sourced. -/
theorem File.isSourced_of_mem_entries {text path : Text} {file : File} {names : List Text}
    {entry : Entry} (h : File.parse text path = .ok file) (hmem : entry ∈ file.entries names) :
    entry.message.IsSourced :=
  Declaration.isSourced_of_mem_entriesOfList _ (File.areSourced_of_parse h).sourced hmem

/-! ### Expansions of sourced entries -/

namespace Dictionary

variable {α : Type} {dictionary : Dictionary α} {key : Text} {value other : α}

/-- What a key has is a value. -/
theorem mem_values_of_get? (h : dictionary.get? key = some value) :
    value ∈ dictionary.values := by
  obtain ⟨entry, hentry, rfl⟩ := Option.map_eq_some_iff.mp h
  exact List.mem_map_of_mem (List.mem_of_find?_eq_some hentry)

/-- Setting a key brings no other value. -/
theorem mem_values_insert (h : other ∈ (dictionary.insert key value).values) :
    other = value ∨ other ∈ dictionary.values := by
  induction dictionary with
  | nil => exact .inl (List.mem_singleton.mp h)
  | cons entry rest ih =>
      rw [insert] at h
      split at h
      · exact (List.mem_cons.mp h).imp_right (List.mem_cons_of_mem _)
      · rcases List.mem_cons.mp h with h | h
        · exact .inr (h ▸ List.mem_cons_self)
        · exact (ih h).imp_right (List.mem_cons_of_mem _)

/-- Adding a key brings no other value. -/
theorem mem_values_insertNew (h : other ∈ (dictionary.insertNew key value).values) :
    other = value ∨ other ∈ dictionary.values := by
  induction dictionary with
  | nil => exact .inl (List.mem_singleton.mp h)
  | cons entry rest ih =>
      rw [insertNew] at h
      split at h
      · exact .inr h
      · rcases List.mem_cons.mp h with h | h
        · exact .inr (h ▸ List.mem_cons_self)
        · exact (ih h).imp_right (List.mem_cons_of_mem _)

end Dictionary

/-- The index of sourced entries holds sourced messages. -/
theorem MessageIndex.isSourced_ofEntries {entries : List Entry}
    (h : ∀ entry ∈ entries, entry.message.IsSourced) :
    ∀ message ∈ (MessageIndex.ofEntries entries).values, message.IsSourced := by
  have hfold (index : MessageIndex) (hindex : ∀ message ∈ index.values, message.IsSourced) :
      ∀ message ∈ (entries.foldl (fun index entry =>
        Dictionary.insertNew entry.fullName entry.message index) index).values,
        message.IsSourced := by
    induction entries generalizing index with
    | nil => exact hindex
    | cons entry entries ih =>
        obtain ⟨hentry, hentries⟩ := List.forall_mem_cons.mp h
        refine ih hentries _ fun message hmem => ?_
        rcases Dictionary.mem_values_insertNew hmem with rfl | hmem
        · exact hentry
        · exact hindex message hmem
  exact hfold [] fun message hmem => absurd hmem List.not_mem_nil

/-- A sourced message has a name, and its fields are plain or those of groups. -/
theorem Message.IsSourced.name_and_fields {message : Message} (h : message.IsSourced) :
    IsName message.name ∧ ∀ field ∈ message.fields, field.IsReadable ∨ field.IsGroup := by
  cases h with
  | mk hname hfields _ => exact ⟨hname, hfields⟩

/-- The expansion of a sourced message with sourced mixins is sourced. -/
theorem Message.IsSourced.expansion {message : Message} {index : MessageIndex}
    (h : message.IsSourced) (hindex : ∀ mixin ∈ index.values, mixin.IsSourced) :
    (message.expansion index).IsSourced := by
  refine .mk h.name_and_fields.1 ?_ fun _ hmem => absurd hmem List.not_mem_nil
  intro field hfield
  obtain ⟨merged, hmerged, rfl⟩ := List.mem_map.mp hfield
  -- The oneof of a field, which an expansion drops, is not part of what is known of it.
  have hsource : merged.IsReadable ∨ merged.IsGroup := by
    rcases List.mem_append.mp hmerged with hmixin | hown
    · obtain ⟨mixin, hnamed, hmem⟩ := List.mem_flatMap.mp hmixin
      obtain ⟨setting, -, hnamed⟩ := List.mem_filterMap.mp hnamed
      obtain ⟨name, -, hfound⟩ := Option.bind_eq_some_iff.mp hnamed
      exact (hindex mixin (Dictionary.mem_values_of_get? hfound)).name_and_fields.2 merged hmem
    · exact h.name_and_fields.2 merged hown
  exact hsource.imp (fun hplain => ⟨hplain.name, hplain.type⟩) id

/-- An entry whose message is sourced adds a sourced expansion, if any. -/
theorem Entry.isSourced_expandInto {index : MessageIndex} {entry : Entry}
    {expanded result : Dictionary Message} (hindex : ∀ mixin ∈ index.values, mixin.IsSourced)
    (hentry : entry.message.IsSourced) (hexpanded : ∀ message ∈ expanded.values, message.IsSourced)
    (h : entry.expandInto index expanded = .ok result) :
    ∀ message ∈ result.values, message.IsSourced := by
  obtain ⟨names, hnames, h⟩ := bind_eq_ok_iff.mp h
  by_cases hempty : names.isEmpty
  · rw [hempty] at h
    obtain rfl := Except.ok.inj h
    exact hexpanded
  · rw [if_neg hempty] at h
    obtain ⟨message, hmessage, h⟩ := bind_eq_ok_iff.mp h
    obtain ⟨-, rfl⟩ := (Message.expand_eq_ok_iff hnames).mp hmessage
    obtain rfl := Except.ok.inj h
    intro message hmem
    rcases Dictionary.mem_values_insert hmem with rfl | hmem
    · exact hentry.expansion hindex
    · exact hexpanded message hmem

/-- Expanding sourced entries one after the other gives sourced messages. -/
theorem Entry.isSourced_foldlM_expandInto {index : MessageIndex} {entries : List Entry}
    {expanded result : Dictionary Message} (hindex : ∀ mixin ∈ index.values, mixin.IsSourced)
    (hentries : ∀ entry ∈ entries, entry.message.IsSourced)
    (hexpanded : ∀ message ∈ expanded.values, message.IsSourced)
    (h : entries.foldlM (Entry.expandInto index) expanded = .ok result) :
    ∀ message ∈ result.values, message.IsSourced := by
  induction entries generalizing expanded with
  | nil =>
      obtain rfl := Except.ok.inj h
      exact hexpanded
  | cons entry entries ih =>
      obtain ⟨hentry, hrest⟩ := List.forall_mem_cons.mp hentries
      rw [List.foldlM_cons] at h
      obtain ⟨next, hnext, h⟩ := bind_eq_ok_iff.mp h
      exact ih hrest (Entry.isSourced_expandInto hindex hentry hexpanded hnext) h

/-- The expansions of the messages of parsed files are sourced. -/
theorem isSourced_expand {sources : List (Text × Text)} {files : List File}
    {expanded : Dictionary Message}
    (hfiles : sources.map (fun source => File.parse source.1 source.2) = files.map .ok)
    (hexpanded : expand (files.flatMap fun file => file.entries) = .ok expanded) :
    ∀ message ∈ expanded.values, message.IsSourced := by
  have hentries : ∀ entry ∈ files.flatMap (fun file => file.entries), entry.message.IsSourced := by
    intro entry hmem
    obtain ⟨file, hfile, hmem⟩ := List.mem_flatMap.mp hmem
    have hparsed : Except.ok file ∈ sources.map fun source => File.parse source.1 source.2 := by
      rw [hfiles]
      exact List.mem_map_of_mem hfile
    obtain ⟨source, -, hparse⟩ := List.mem_map.mp hparsed
    exact File.isSourced_of_mem_entries hparse hmem
  exact Entry.isSourced_foldlM_expandInto (MessageIndex.isSourced_ofEntries hentries) hentries
    (fun message hmem => absurd hmem List.not_mem_nil) hexpanded

/-- Where texts are parsed and their messages are expanded, and all numbers can be written, every
field of an expansion is plain or that of a group, and the expansions are read back from their text
exactly when every field has a name and a type as in a field statement. -/
theorem areStandalone_expanded_iff {sources : List (Text × Text)} {files : List File}
    {expanded : Dictionary Message}
    (hfiles : sources.map (fun source => File.parse source.1 source.2) = files.map .ok)
    (hexpanded : expand (files.flatMap fun file => file.entries) = .ok expanded)
    (hshort : ∀ message ∈ expanded.values, ∀ field ∈ message.fields,
      Integer.IsShort field.number) (path : Text) :
    (∀ message ∈ expanded.values, IsName message.name ∧
      ∀ field ∈ message.fields, field.IsReadable ∨ field.IsGroup) ∧
    (Message.AreStandalone expanded.values path ↔
      ∀ message ∈ expanded.values, ∀ field ∈ message.fields, field.IsReadable) := by
  have hsourced : ∀ message ∈ expanded.values, IsName message.name ∧
      ∀ field ∈ message.fields, field.IsReadable ∨ field.IsGroup :=
    fun message hmem => (isSourced_expand hfiles hexpanded message hmem).name_and_fields
  refine ⟨hsourced, ?_⟩
  exact Message.areStandalone_iff_isReadable (fun message hmem => (hsourced message hmem).1)
    (fun message hmem => (hsourced message hmem).2) hshort path

/-- A text with a group and a map among the fields of a message `A`, and a text with a message `B`
that takes `A` as its mixin. -/
def pointSources : List (Text × Text) :=
  [("message A \x7b\n  optional group Point = 1 \x7b\x7d\n" ++
      "  map<int32, a.b> option = 2;\n\x7d\n", "a"),
    ("message B \x7b\n  option (ts_proto_options.mixins) = \"A\";\n\x7d\n", "b")]

/-- The field of the group and the map. -/
def pointFields : List Field :=
  [{ name := "point", number := 1, type := "Point", label := some .optional },
    { name := "option", number := 2, type := "map<int32, a.b>" }]

/-- The files of these texts. -/
def pointFiles : List File :=
  [{ path := "a"
     root := { members :=
      [.message { name := "A", fields := pointFields, messages := [{ name := "Point" }] }] } },
    { path := "b"
      root := { members :=
        [.message { name := "B", options := [⟨mixinOption, .text "A"⟩] }] } }]

/-- The expansion of `B` has the fields of `A`, and it is read back. -/
theorem areStandalone_expanded_points :
    (pointSources.map (fun source => File.parse source.1 source.2) = pointFiles.map .ok ∧
      expand (pointFiles.flatMap fun file => file.entries) =
        .ok [("B", { name := "B", fields := pointFields })]) ∧
    Message.AreStandalone [{ name := "B", fields := pointFields }] [] := by
  have hfiles : pointSources.map (fun source => File.parse source.1 source.2) =
      pointFiles.map .ok := by cbv
  have hexpanded : expand (pointFiles.flatMap fun file => file.entries) =
      .ok [("B", { name := "B", fields := pointFields })] := by cbv
  refine ⟨⟨hfiles, hexpanded⟩, ?_⟩
  obtain ⟨-, hiff⟩ := areStandalone_expanded_iff hfiles hexpanded (by decide) []
  refine hiff.mpr ?_
  intro message hmessage field hfield
  obtain rfl := List.mem_singleton.mp hmessage
  rcases List.mem_pair.mp hfield with rfl | rfl
  · exact ⟨⟨.identifier "point", rfl, rfl, rfl⟩, .inl ⟨rfl, by decide⟩⟩
  · exact ⟨⟨.keyword .option, rfl, rfl, rfl⟩, .inr ⟨"int32", "a.b", rfl, rfl, rfl⟩⟩

/-- A text with a message whose group is named after the word for groups, and with a message that
takes it as its mixin. -/
def nestedGroupText : Text :=
  "message A \x7b\n  optional group group = 1 \x7b\x7d\n\x7d\n" ++
    "message B \x7b\n  option (ts_proto_options.mixins) = \"A\";\n\x7d\n"

/-- The field of this group. -/
def nestedGroupField : Field :=
  { name := "group", number := 1, type := "group", label := some .optional }

/-- The file of this text. -/
def nestedGroupFile : File :=
  { path := "a.proto"
    root := { members :=
      [.message { name := "A", fields := [nestedGroupField], messages := [{ name := "group" }] },
        .message { name := "B", options := [⟨mixinOption, .text "A"⟩] }] } }

/-- The text is parsed and its messages are expanded, but the text of the expansion is refused: the
field of the group starts another group. -/
theorem parse_expanded_nestedGroup :
    ∃ text,
      File.parse nestedGroupText "a.proto" = .ok nestedGroupFile ∧
      expand nestedGroupFile.entries =
        .ok [("B", { name := "B", fields := [nestedGroupField] })] ∧
      Message.renderAll? [{ name := "B", fields := [nestedGroupField] }] = some text ∧
      ∀ path, File.parse text path = .error
        (.refused (.expected (.punctuation .leftBrace)) (some (.punctuation .semicolon))
          ⟨4, 18⟩) := by
  refine ⟨"syntax = \"proto3\";\n\nmessage B \x7b\n  group group = 1;\n\x7d\n", ?_, ?_, ?_, ?_⟩
  · cbv
  · cbv
  · cbv
  · intro path
    cbv

end ProtoSchema
