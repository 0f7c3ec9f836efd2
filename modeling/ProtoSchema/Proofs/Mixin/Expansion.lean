import ProtoSchema.Mixin.Expand
import ProtoSchema.Proofs.Outcome
import ProtoSchema.Proofs.Text.Dictionary

/-!
# What an expansion is

The expansion of a message as one list of fields: those of its mixins, in the order in which the
mixins are declared, and then its own. `expandWith_eq_ok_iff` says that expanding all entries
succeeds exactly when every mixin is found and no number occurs twice in such a list, and that the
result then holds these lists under the names of the entries. The fields merged so far always have
distinct numbers, and this is the invariant that carries the proof.
-/

namespace ProtoSchema

/-- The settings that declare the mixins of a message. -/
def Message.mixinSettings (message : Message) : List OptionSetting :=
  message.options.filter fun setting => setting.name = mixinOption

/-- The message declares at least one mixin. -/
def Message.declaresMixins (message : Message) : Bool :=
  !message.mixinSettings.isEmpty

/-- The message of the entry declares at least one mixin. -/
def Entry.isHost (entry : Entry) : Bool :=
  entry.message.declaresMixins

/-- The message that a setting names in an index. -/
def MessageIndex.named? (index : MessageIndex) (setting : OptionSetting) : Option Message :=
  setting.value.toText?.bind index.get?

/-- The fields of the mixins of a message, mixin by mixin, and then its own fields. -/
def Message.mergedFields (message : Message) (index : MessageIndex) : List Field :=
  (message.mixinSettings.filterMap index.named?).flatMap Message.fields ++ message.fields

/-- The message of the same name with the merged fields, which belong to no oneof, and with nothing
else. -/
def Message.expansion (message : Message) (index : MessageIndex) : Message :=
  { name := message.name
    fields := (message.mergedFields index).map fun field => { field with oneof := none }
    messages := []
    enums := []
    options := [] }

/-- Every mixin that the message declares has a name, which is a key of the index, and no two of the
merged fields have one number. -/
def Message.Expandable (message : Message) (index : MessageIndex) : Prop :=
  (∀ setting ∈ message.mixinSettings,
    ∃ name, setting.value.toText? = some name ∧ name ∈ index.keys) ∧
  ((message.mergedFields index).map Field.number).Nodup

/-- A field is added exactly when its number is not taken. -/
theorem Field.addTo_eq_ok_iff {host : Text} {merged result : List Field} {field : Field} :
    Field.addTo host merged field = .ok result ↔
      field.number ∉ merged.map Field.number ∧ result = merged ++ [field.detached] := by
  unfold Field.addTo
  split
  next htaken =>
    have hmem : field.number ∈ merged.map Field.number := by simpa using htaken
    simp [hmem]
  next hfree =>
    have hmem : field.number ∉ merged.map Field.number := by simpa using hfree
    simp [hmem, eq_comm]

/-- Fields are merged in order, and exactly when all numbers stay distinct. -/
theorem Field.foldlM_addTo_eq_ok_iff {host : Text} {fields merged result : List Field}
    (hmerged : (merged.map Field.number).Nodup) :
    fields.foldlM (Field.addTo host) merged = .ok result ↔
      (merged.map Field.number ++ fields.map Field.number).Nodup ∧
        result = merged ++ fields.map Field.detached := by
  induction fields generalizing merged with
  | nil =>
      rw [List.foldlM_nil, pure_eq_ok_iff]
      simp [hmerged, eq_comm]
  | cons field fields ih =>
      rw [List.foldlM_cons, bind_eq_ok_iff]
      -- The condition on all numbers, cut where the fold has taken one more field.
      have hsplit : (merged.map Field.number ++ (field :: fields).map Field.number).Nodup ↔
          field.number ∉ merged.map Field.number ∧
            ((merged ++ [field.detached]).map Field.number ++ fields.map Field.number).Nodup := by
        have hassoc : merged.map Field.number ++ (field :: fields).map Field.number =
            (merged ++ [field.detached]).map Field.number ++ fields.map Field.number := by
          simp [Field.detached]
        rw [hassoc]
        refine ⟨fun h => ⟨fun hmem => ?_, h⟩, fun h => h.2⟩
        have hfront := (List.nodup_append.mp h).1
        rw [List.map_append, List.nodup_append] at hfront
        exact hfront.2.2 _ hmem _ (by simp [Field.detached]) rfl
      constructor
      · rintro ⟨next, hnext, h⟩
        obtain ⟨hfree, rfl⟩ := Field.addTo_eq_ok_iff.mp hnext
        have hdistinct : ((merged ++ [field.detached]).map Field.number).Nodup := by
          simpa [List.nodup_append, Field.detached, hmerged] using hfree
        obtain ⟨hall, rfl⟩ := (ih hdistinct).mp h
        exact ⟨hsplit.mpr ⟨hfree, hall⟩, by simp⟩
      · rintro ⟨hall, rfl⟩
        obtain ⟨hfree, hall⟩ := hsplit.mp hall
        refine ⟨_, Field.addTo_eq_ok_iff.mpr ⟨hfree, rfl⟩, ?_⟩
        exact (ih (List.nodup_append.mp hall).1).mpr ⟨hall, by simp⟩

/-- A mixin is added exactly when it is found and its numbers are not taken. -/
theorem MessageIndex.addMixin_eq_ok_iff {index : MessageIndex} {host mixin : Text}
    {merged result : List Field} (hmerged : (merged.map Field.number).Nodup) :
    index.addMixin host merged mixin = .ok result ↔
      ∃ message, index.get? mixin = some message ∧
        (merged.map Field.number ++ message.fields.map Field.number).Nodup ∧
        result = merged ++ message.fields.map Field.detached := by
  unfold MessageIndex.addMixin
  cases hfound : index.get? mixin with
  | none => simp
  | some message => simpa using Field.foldlM_addTo_eq_ok_iff hmerged

/-- Mixins are added in order, and exactly when all are found and all numbers stay distinct. -/
theorem MessageIndex.foldlM_addMixin_eq_ok_iff {index : MessageIndex} {host : Text}
    {mixins : List Text} {merged result : List Field} (hmerged : (merged.map Field.number).Nodup) :
    mixins.foldlM (index.addMixin host) merged = .ok result ↔
      (∀ mixin ∈ mixins, mixin ∈ index.keys) ∧
        (merged.map Field.number ++
          ((mixins.filterMap index.get?).flatMap Message.fields).map Field.number).Nodup ∧
        result = merged ++ ((mixins.filterMap index.get?).flatMap Message.fields).map
          Field.detached := by
  induction mixins generalizing merged with
  | nil =>
      rw [List.foldlM_nil, pure_eq_ok_iff]
      simp [hmerged, eq_comm]
  | cons mixin mixins ih =>
      rw [List.foldlM_cons, bind_eq_ok_iff]
      -- A field keeps its number when it leaves its oneof.
      have hnumbers (fields : List Field) :
          (fields.map Field.detached).map Field.number = fields.map Field.number := by
        simp [Field.detached]
      constructor
      · rintro ⟨next, hnext, h⟩
        obtain ⟨message, hfound, hnodup, rfl⟩ := (addMixin_eq_ok_iff hmerged).mp hnext
        rw [ih (by rwa [List.map_append, hnumbers])] at h
        obtain ⟨hkeys, hall, rfl⟩ := h
        refine ⟨?_, ?_, ?_⟩
        · rintro name (_ | ⟨_, hname⟩)
          · exact Dictionary.mem_keys_iff.mpr ⟨message, hfound⟩
          · exact hkeys name hname
        · simpa [hfound, hnumbers] using hall
        · simp [hfound]
      · rintro ⟨hkeys, hall, rfl⟩
        obtain ⟨message, hfound⟩ := Dictionary.mem_keys_iff.mp (hkeys mixin List.mem_cons_self)
        rw [List.filterMap_cons_some hfound, List.flatMap_cons, List.map_append,
          ← List.append_assoc] at hall
        have hnodup := (List.nodup_append.mp hall).1
        refine ⟨_, (addMixin_eq_ok_iff hmerged).mpr ⟨message, hfound, hnodup, rfl⟩, ?_⟩
        rw [ih (by rwa [List.map_append, hnumbers])]
        refine ⟨fun name hname => hkeys name (List.mem_cons_of_mem _ hname), ?_, ?_⟩
        · rwa [List.map_append, hnumbers]
        · simp [hfound]

/-- The mixins of a message have names when every setting that declares one does. -/
theorem Message.mixins_eq_ok_iff {message : Message} {names : List Text} :
    message.mixins = .ok names ↔
      message.mixinSettings.map (fun setting => setting.value.toText?) = names.map some := by
  unfold Message.mixins
  rw [mapM_eq_ok_iff, ← Message.mixinSettings]
  induction message.mixinSettings generalizing names with
  | nil => simp
  | cons setting settings ih =>
      cases names with
      | nil => simp
      | cons name names =>
          simp only [List.map_cons, List.cons.injEq, ih]
          cases setting.value.toText? <;> simp

/-- The messages that the settings of a message name are those that its mixins name. -/
theorem Message.filterMap_named? {message : Message} {names : List Text}
    (hnames : message.mixins = .ok names) (index : MessageIndex) :
    message.mixinSettings.filterMap index.named? = names.filterMap index.get? := by
  have h := congrArg (List.filterMap fun name? => name?.bind index.get?)
    (Message.mixins_eq_ok_iff.mp hnames)
  rw [List.filterMap_map, List.filterMap_map] at h
  exact h

/-- Where the mixins of a message have names, all that remains is to find these names. -/
theorem Message.mixins_found_iff {message : Message} {names : List Text}
    (hnames : message.mixins = .ok names) (index : MessageIndex) :
    (∀ setting ∈ message.mixinSettings,
      ∃ name, setting.value.toText? = some name ∧ name ∈ index.keys) ↔
      ∀ name ∈ names, name ∈ index.keys := by
  have hsettings := Message.mixins_eq_ok_iff.mp hnames
  constructor
  · intro h name hname
    have htext : some name ∈ message.mixinSettings.map fun setting => setting.value.toText? := by
      rw [hsettings]
      exact List.mem_map_of_mem hname
    obtain ⟨setting, hsetting, htext⟩ := List.mem_map.mp htext
    obtain ⟨other, hother, hkey⟩ := h setting hsetting
    exact Option.some.inj (htext.symm.trans hother) ▸ hkey
  · intro h setting hsetting
    have htext : setting.value.toText? ∈ names.map some := by
      rw [← hsettings]
      exact List.mem_map_of_mem hsetting
    obtain ⟨name, hname, htext⟩ := List.mem_map.mp htext
    exact ⟨name, htext.symm, h name hname⟩

/-- A message with these mixins has an expansion exactly when the mixins are found and all numbers
are distinct, and the expansion holds the merged fields. -/
theorem Message.expand_eq_ok_iff {message result : Message} {names : List Text}
    {index : MessageIndex} (hnames : message.mixins = .ok names) :
    message.expand names index = .ok result ↔
      message.Expandable index ∧ result = message.expansion index := by
  unfold Message.expand Message.Expandable Message.expansion Message.mergedFields
  rw [bind_eq_ok_iff, Message.mixins_found_iff hnames, Message.filterMap_named? hnames]
  generalize hinherited : (names.filterMap index.get?).flatMap Message.fields = inherited
  have hnumbers : (inherited.map Field.detached).map Field.number = inherited.map Field.number := by
    simp [Field.detached]
  constructor
  · rintro ⟨merged, hmerged, h⟩
    rw [MessageIndex.foldlM_addMixin_eq_ok_iff (by simp), hinherited] at hmerged
    obtain ⟨hfound, hnodup, rfl⟩ := hmerged
    obtain ⟨fields, hfields, h⟩ := bind_eq_ok_iff.mp h
    rw [List.nil_append, Field.foldlM_addTo_eq_ok_iff (by rwa [hnumbers]), hnumbers,
      ← List.map_append, ← List.map_append] at hfields
    obtain ⟨hall, rfl⟩ := hfields
    obtain rfl := pure_eq_ok_iff.mp h
    exact ⟨⟨hfound, hall⟩, rfl⟩
  · rintro ⟨⟨hfound, hall⟩, rfl⟩
    rw [List.map_append] at hall
    have hnodup := (List.nodup_append.mp hall).1
    refine ⟨inherited.map Field.detached, ?_, bind_eq_ok_iff.mpr ⟨_, ?_, rfl⟩⟩
    · rw [MessageIndex.foldlM_addMixin_eq_ok_iff (by simp), hinherited]
      exact ⟨hfound, hnodup, rfl⟩
    · rw [Field.foldlM_addTo_eq_ok_iff (by rwa [hnumbers]), hnumbers]
      exact ⟨hall, List.map_append⟩

/-- Only a message that declares mixins and is expandable can have named mixins to expand. -/
theorem Message.Expandable.exists_mixins {message : Message} {index : MessageIndex}
    (h : message.Expandable index) : ∃ names, message.mixins = .ok names := by
  have hnames : ∀ settings : List OptionSetting,
      (∀ setting ∈ settings, ∃ name, setting.value.toText? = some name ∧ name ∈ index.keys) →
      ∃ names : List Text,
        settings.map (fun setting => setting.value.toText?) = names.map some := by
    intro settings hsettings
    induction settings with
    | nil => exact ⟨[], rfl⟩
    | cons setting settings ih =>
        obtain ⟨name, hname, -⟩ := hsettings setting List.mem_cons_self
        obtain ⟨names, hrest⟩ :=
          ih fun other hother => hsettings other (List.mem_cons_of_mem _ hother)
        exact ⟨name :: names, by rw [List.map_cons, List.map_cons, hname, hrest]⟩
  obtain ⟨names, hnames⟩ := hnames _ h.1
  exact ⟨names, Message.mixins_eq_ok_iff.mpr hnames⟩

/-- The mixins of a message are none exactly when it declares none. -/
theorem Message.isEmpty_mixins {message : Message} {names : List Text}
    (hnames : message.mixins = .ok names) : names.isEmpty = !message.declaresMixins := by
  have hlength := congrArg List.length (Message.mixins_eq_ok_iff.mp hnames)
  rw [List.length_map, List.length_map] at hlength
  rw [Message.declaresMixins, Bool.not_not, Bool.eq_iff_iff, List.isEmpty_iff_length_eq_zero,
    List.isEmpty_iff_length_eq_zero, hlength]

/-- An entry that declares no mixins leaves the expansions as they are. -/
theorem Entry.expandInto_of_not_isHost {index : MessageIndex} {entry : Entry}
    (hhost : ¬ entry.isHost) (expanded : Dictionary Message) :
    entry.expandInto index expanded = .ok expanded := by
  have hsettings : entry.message.mixinSettings = [] := by
    simpa [isHost, Message.declaresMixins] using hhost
  have hnames : entry.message.mixins = .ok [] :=
    Message.mixins_eq_ok_iff.mpr (by rw [hsettings]; rfl)
  rw [expandInto, hnames]
  rfl

/-- An entry that declares mixins records its expansion, exactly when it is expandable. -/
theorem Entry.expandInto_eq_ok_iff {index : MessageIndex} {expanded result : Dictionary Message}
    {entry : Entry} (hhost : entry.isHost) :
    entry.expandInto index expanded = .ok result ↔
      entry.message.Expandable index ∧
        result = expanded.insert entry.fullName (entry.message.expansion index) := by
  have hsome {names : List Text} (hnames : entry.message.mixins = .ok names) :
      names.isEmpty = false := by
    rw [Message.isEmpty_mixins hnames, ← isHost, hhost]
    rfl
  rw [expandInto, bind_eq_ok_iff]
  constructor
  · rintro ⟨names, hnames, h⟩
    rw [hsome hnames] at h
    obtain ⟨message, hmessage, h⟩ := bind_eq_ok_iff.mp h
    obtain ⟨hexpandable, rfl⟩ := (Message.expand_eq_ok_iff hnames).mp hmessage
    obtain rfl := pure_eq_ok_iff.mp h
    exact ⟨hexpandable, rfl⟩
  · rintro ⟨hexpandable, rfl⟩
    obtain ⟨names, hnames⟩ := hexpandable.exists_mixins
    refine ⟨names, hnames, ?_⟩
    rw [hsome hnames]
    exact bind_eq_ok_iff.mpr
      ⟨_, (Message.expand_eq_ok_iff hnames).mpr ⟨hexpandable, rfl⟩, rfl⟩

/-- Expanding entries one after the other records the expansions of those that declare mixins,
exactly when these are expandable. Where names repeat, the last expansion of a name stays. -/
theorem Entry.foldlM_expandInto_eq_ok_iff_foldl {index : MessageIndex} {entries : List Entry}
    {expanded result : Dictionary Message} :
    entries.foldlM (Entry.expandInto index) expanded = .ok result ↔
      (∀ entry ∈ entries, entry.isHost → entry.message.Expandable index) ∧
        result = (entries.filter Entry.isHost).foldl (fun recorded entry =>
          recorded.insert entry.fullName (entry.message.expansion index)) expanded := by
  induction entries generalizing expanded with
  | nil =>
      rw [List.foldlM_nil, pure_eq_ok_iff]
      exact ⟨fun h => ⟨by simp, h.symm⟩, fun h => h.2.symm⟩
  | cons entry entries ih =>
      rw [List.foldlM_cons, bind_eq_ok_iff, List.forall_mem_cons]
      by_cases hhost : entry.isHost
      · rw [List.filter_cons_of_pos hhost, List.foldl_cons]
        constructor
        · rintro ⟨next, hnext, h⟩
          obtain ⟨hfirst, rfl⟩ := (Entry.expandInto_eq_ok_iff hhost).mp hnext
          obtain ⟨hothers, rfl⟩ := ih.mp h
          exact ⟨⟨fun _ => hfirst, hothers⟩, rfl⟩
        · rintro ⟨⟨hfirst, hothers⟩, rfl⟩
          exact ⟨_, (Entry.expandInto_eq_ok_iff hhost).mpr ⟨hfirst hhost, rfl⟩,
            ih.mpr ⟨hothers, rfl⟩⟩
      · rw [List.filter_cons_of_neg hhost, Entry.expandInto_of_not_isHost hhost]
        constructor
        · rintro ⟨next, hnext, h⟩
          obtain rfl := Except.ok.inj hnext
          obtain ⟨hothers, rfl⟩ := ih.mp h
          exact ⟨⟨fun h => absurd h hhost, hothers⟩, rfl⟩
        · rintro ⟨⟨-, hothers⟩, rfl⟩
          exact ⟨expanded, rfl, ih.mpr ⟨hothers, rfl⟩⟩

/-- Where the names of the entries that declare mixins are new and distinct, the expansions come one
after the other. -/
theorem Entry.foldlM_expandInto_eq_ok_iff {index : MessageIndex} {entries : List Entry}
    {expanded result : Dictionary Message}
    (hdistinct : (expanded.keys ++ (entries.filter Entry.isHost).map Entry.fullName).Nodup) :
    entries.foldlM (Entry.expandInto index) expanded = .ok result ↔
      (∀ entry ∈ entries, entry.isHost → entry.message.Expandable index) ∧
        result = expanded ++ (entries.filter Entry.isHost).map
          fun entry => (entry.fullName, entry.message.expansion index) := by
  rw [Entry.foldlM_expandInto_eq_ok_iff_foldl, Dictionary.foldl_insert_of_nodup hdistinct]

/-- Entries without mixins expand to nothing. -/
theorem expandWith_of_not_isHost {index : MessageIndex} {entries : List Entry}
    (h : ∀ entry ∈ entries, ¬ entry.isHost) : expandWith index entries = .ok [] := by
  unfold expandWith
  induction entries with
  | nil => rfl
  | cons entry entries ih =>
      obtain ⟨hentry, hentries⟩ := List.forall_mem_cons.mp h
      rw [List.foldlM_cons, Entry.expandInto_of_not_isHost hentry]
      exact ih hentries

/-- Where the entries that declare mixins have distinct full names, expanding all entries with any
index succeeds exactly when every message that declares mixins is expandable. The result then has
the full names of these entries as its keys, in their order, and their expansions as its values. The
index that is used by default is that of the entries themselves. -/
theorem expandWith_eq_ok_iff {entries : List Entry}
    (hdistinct : ((entries.filter Entry.isHost).map Entry.fullName).Nodup) :
    (∀ (index : MessageIndex) (expanded : Dictionary Message),
      expandWith index entries = .ok expanded ↔
        (∀ entry ∈ entries, entry.isHost → entry.message.Expandable index) ∧
          expanded = (entries.filter Entry.isHost).map
            fun entry => (entry.fullName, entry.message.expansion index)) ∧
      expand entries = expandWith (.ofEntries entries) entries := by
  refine ⟨fun index expanded => ?_, rfl⟩
  exact Entry.foldlM_expandInto_eq_ok_iff hdistinct

/-- A message `A` with one field in a oneof, which repeats without a label. Its mixin is `B`. -/
def mutualFirst : Message :=
  { name := "A"
    fields :=
      [{ name := "x", number := 1, type := "string", isRepeated := true, oneof := some "choice" }]
    options := [⟨mixinOption, .text "B"⟩] }

/-- A message `B` with one field, which does not repeat under its label. Its mixin is `A`. -/
def mutualSecond : Message :=
  { name := "B"
    fields := [{ name := "y", number := 2, type := "int32", label := some .repeated }]
    options := [⟨mixinOption, .text "A"⟩] }

/-- Two messages that are mixins of each other both expand, with the mixin's own fields in front. -/
theorem expand_mutual_mixins :
    (([⟨[], [], mutualFirst⟩, ⟨[], [], mutualSecond⟩].filter Entry.isHost).map
      Entry.fullName).Nodup ∧
    expand [⟨[], [], mutualFirst⟩, ⟨[], [], mutualSecond⟩] = .ok
      [("A", { name := "A", fields := [
          { name := "y", number := 2, type := "int32", label := some .repeated },
          { name := "x", number := 1, type := "string", isRepeated := true }] }),
        ("B", { name := "B", fields := [
          { name := "x", number := 1, type := "string", isRepeated := true },
          { name := "y", number := 2, type := "int32", label := some .repeated }] })] := by
  have hdistinct : (([⟨[], [], mutualFirst⟩, ⟨[], [], mutualSecond⟩].filter Entry.isHost).map
      Entry.fullName).Nodup := by decide
  refine ⟨hdistinct, ?_⟩
  obtain ⟨hexpand, hdefault⟩ := expandWith_eq_ok_iff hdistinct
  rw [hdefault, hexpand]
  refine ⟨?_, rfl⟩
  rintro entry hentry -
  simp only [List.mem_cons, List.not_mem_nil, or_false] at hentry
  rcases hentry with rfl | rfl
  · refine ⟨fun setting hsetting => ⟨"B", ?_⟩, by decide⟩
    have hsettings : mutualFirst.mixinSettings = [⟨mixinOption, .text "B"⟩] := by decide
    rw [hsettings, List.mem_singleton] at hsetting
    exact ⟨hsetting ▸ rfl, by decide⟩
  · refine ⟨fun setting hsetting => ⟨"A", ?_⟩, by decide⟩
    have hsettings : mutualSecond.mixinSettings = [⟨mixinOption, .text "A"⟩] := by decide
    rw [hsettings, List.mem_singleton] at hsetting
    exact ⟨hsetting ▸ rfl, by decide⟩

end ProtoSchema
