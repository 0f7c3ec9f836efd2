import ProtoSchema.Proofs.Mixin.Duplicates
import ProtoSchema.Proofs.Number.Numeral

/-!
# Which fault is reported

What the merge of a message meets in turn is one list of events (`Message.mergeEvents`): mixins that
are missing and fields to merge. Its first fault is a missing mixin, or a field whose number an
earlier field has (`MergeEvent.FirstFault`). Main statement: `reportsFirstFault_iff`. Expanding
entries raises the first fault of the first entry that has one, and nothing if there is none, where
no number is in the way that is too long to be written: that of the fault itself, or one that stands
for a mixin. `not_reportsFirstFault_long` is a case where the number of a conflict is in the way.
-/

namespace ProtoSchema

/-- The value as a text, however long it is. -/
def Constant.toFullText : Constant → Text
  | integer value => Integer.numeral value
  | value => value.toText?.getD []

/-- What a merge meets: a mixin that is not in the index, or a field to merge. -/
inductive MergeEvent where
  | missing (mixin : Text)
  | field (field : Field)

/-- What the merge of a mixin meets. -/
def MessageIndex.mergeEvents (index : MessageIndex) (mixin : Text) : List MergeEvent :=
  match index.get? mixin with
  | none => [.missing mixin]
  | some message => message.fields.map .field

/-- What the merge of a message meets: its mixins in order, and then its own fields. -/
def Message.mergeEvents (message : Message) (index : MessageIndex) : List MergeEvent :=
  (message.mixinSettings.flatMap fun setting => index.mergeEvents setting.value.toFullText) ++
    message.fields.map .field

namespace MergeEvent

/-- The first fault of a merge into the message `host`, with the error that names it. Fields with
distinct numbers come before it. -/
inductive FirstFault (host : Text) : List MergeEvent → MixinError → Prop
  | missing {fields : List Field} (mixin : Text) (later : List MergeEvent)
      (hdistinct : (fields.map Field.number).Nodup) :
      FirstFault host (fields.map .field ++ .missing mixin :: later) (.notFound mixin host)
  | taken {fields : List Field} {found : Field} (later : List MergeEvent)
      (hdistinct : (fields.map Field.number).Nodup)
      (htaken : found.number ∈ fields.map Field.number) :
      FirstFault host (fields.map .field ++ .field found :: later)
        (.numberConflict found.name found.number host)

/-- Take an event into account. -/
def mergeInto (host : Text) (merged : List Field) : MergeEvent → Except MixinError (List Field)
  | missing mixin => .error (.notFound mixin host)
  | field found => Field.addTo host merged found

end MergeEvent

open MergeEvent (FirstFault mergeInto)

/-- The error that is raised for a fault. A conflict cannot be reported where its number is too long
to be written. -/
def MixinError.raised : MixinError → MixinError
  | numberConflict field number host =>
      if Integer.IsShort number then numberConflict field number host else numberTooLong
  | error => error

/-- A value that can be written is written in full. -/
theorem Constant.toFullText_of_toText? {value : Constant} {text : Text}
    (h : value.toText? = some text) : value.toFullText = text := by
  cases value with
  | integer number => exact (Integer.decimal?_eq_some_iff.mp h).2
  | bool value => exact congrArg (Option.getD · []) h
  | float value => exact congrArg (Option.getD · []) h
  | text value => exact congrArg (Option.getD · []) h

/-- The error of a field whose number is taken is the conflict, if it can be raised. -/
theorem MixinError.conflict_eq (host : Text) (field : Field) :
    conflict host field = (numberConflict field.name field.number host).raised := by
  show _ = if Integer.IsShort field.number then _ else _
  unfold conflict
  by_cases hshort : Integer.IsShort field.number
  · rw [Integer.decimal?_of_isShort hshort, if_pos hshort]
  · have hnone : Integer.decimal? field.number = none := by
      rw [Option.eq_none_iff_forall_ne_some]
      exact fun text htext => hshort (Integer.decimal?_eq_some_iff.mp htext).1
    rw [hnone, if_neg hshort]

/-- A field whose number is taken is not added. -/
theorem Field.addTo_of_mem {host : Text} {merged : List Field} {field : Field}
    (h : field.number ∈ merged.map Field.number) :
    Field.addTo host merged field = .error (.conflict host field) := by
  have htaken : (merged.any fun other => other.number = field.number) = true := by simpa using h
  rw [addTo, if_pos htaken]

/-! ### The merge as a run over its events -/

/-- A mixin is added by its events. -/
theorem MessageIndex.addMixin_eq (index : MessageIndex) (host : Text) (merged : List Field)
    (mixin : Text) :
    index.addMixin host merged mixin =
      (index.mergeEvents mixin).foldlM (mergeInto host) merged := by
  unfold addMixin mergeEvents
  cases index.get? mixin with
  | none => rfl
  | some message => rw [List.foldlM_map]; rfl

/-- Mixins are added by their events in order. -/
theorem MessageIndex.foldlM_addMixin_eq (index : MessageIndex) (host : Text) (mixins : List Text)
    (merged : List Field) :
    mixins.foldlM (index.addMixin host) merged =
      (mixins.flatMap index.mergeEvents).foldlM (mergeInto host) merged := by
  induction mixins generalizing merged with
  | nil => rfl
  | cons mixin mixins ih =>
      rw [List.foldlM_cons, List.flatMap_cons, List.foldlM_append, addMixin_eq]
      exact congrArg _ (funext ih)

/-- The names of mixins are the full texts of the values that declare them. -/
theorem Message.mixins_eq_map {message : Message} {names : List Text}
    (hnames : message.mixins = .ok names) :
    names = message.mixinSettings.map fun setting => setting.value.toFullText := by
  have hsettings := Message.mixins_eq_ok_iff.mp hnames
  clear hnames
  generalize message.mixinSettings = settings at hsettings ⊢
  induction settings generalizing names with
  | nil => exact List.map_eq_nil_iff.mp hsettings.symm
  | cons setting settings ih =>
      obtain ⟨name, names, rfl, hname, hrest⟩ := List.map_eq_cons_iff.mp hsettings.symm
      rw [List.map_cons, Constant.toFullText_of_toText? hname.symm, ← ih hrest.symm]

/-- The expansion of a message takes its events into account one after the other. -/
theorem Message.expand_eq {message : Message} {names : List Text}
    (hnames : message.mixins = .ok names) (index : MessageIndex) :
    message.expand names index =
      ((message.mergeEvents index).foldlM (mergeInto message.name) []).map fun fields =>
        { name := message.name, fields } := by
  have hinherited : (message.mixinSettings.flatMap fun setting =>
      index.mergeEvents setting.value.toFullText) = names.flatMap index.mergeEvents := by
    rw [mixins_eq_map hnames, List.flatMap_map]
  have hown (merged : List Field) :
      (message.fields.map MergeEvent.field).foldlM (mergeInto message.name) merged =
        message.fields.foldlM (Field.addTo message.name) merged := by
    rw [List.foldlM_map]
    rfl
  rw [expand, MessageIndex.foldlM_addMixin_eq, mergeEvents, hinherited, List.foldlM_append]
  simp only [hown]
  cases (names.flatMap index.mergeEvents).foldlM (mergeInto message.name) [] with
  | error cause => rfl
  | ok inherited => rfl

/-! ### The outcome of a merge -/

namespace MergeEvent

/-- Fields with distinct numbers are merged. -/
theorem foldlM_mergeInto_fields {host : Text} {fields : List Field}
    (hdistinct : (fields.map Field.number).Nodup) :
    (fields.map MergeEvent.field).foldlM (mergeInto host) [] =
      .ok (fields.map Field.detached) := by
  rw [List.foldlM_map]
  exact (Field.foldlM_addTo_eq_ok_iff (by simp)).mpr ⟨by simpa using hdistinct, by simp⟩

/-- A merge raises its first fault. -/
theorem FirstFault.foldlM_mergeInto {host : Text} {events : List MergeEvent} {fault : MixinError}
    (h : FirstFault host events fault) :
    events.foldlM (mergeInto host) [] = .error fault.raised := by
  cases h with
  | missing mixin later hdistinct =>
      rw [List.foldlM_append, foldlM_mergeInto_fields hdistinct]
      rfl
  | @taken fields found later hdistinct htaken =>
      have hmerged : found.number ∈ (fields.map Field.detached).map Field.number := by
        simpa [Field.detached] using htaken
      rw [List.foldlM_append, foldlM_mergeInto_fields hdistinct, ← MixinError.conflict_eq]
      show (Field.addTo host (fields.map Field.detached) found >>= fun merged =>
        later.foldlM (mergeInto host) merged) = _
      rw [Field.addTo_of_mem hmerged]
      rfl

/-- A first fault is a missing mixin or a conflict. -/
theorem FirstFault.ne_numberTooLong {host : Text} {events : List MergeEvent} {fault : MixinError}
    (h : FirstFault host events fault) : fault ≠ .numberTooLong := by
  cases h with
  | missing mixin later hdistinct => exact nofun
  | taken later hdistinct htaken => exact nofun

/-- What follows the first fault does not change it. -/
theorem FirstFault.append {host : Text} {events : List MergeEvent} {fault : MixinError}
    (h : FirstFault host events fault) (later : List MergeEvent) :
    FirstFault host (events ++ later) fault := by
  cases h with
  | missing mixin rest hdistinct =>
      rw [List.append_assoc]
      exact .missing mixin (rest ++ later) hdistinct
  | taken rest hdistinct htaken =>
      rw [List.append_assoc]
      exact .taken (rest ++ later) hdistinct htaken

/-- Events without a fault are fields with distinct numbers. -/
theorem exists_firstFault_or_fields (host : Text) (events : List MergeEvent) :
    (∃ fault, FirstFault host events fault) ∨
      ∃ fields : List Field, (fields.map Field.number).Nodup ∧ events = fields.map .field := by
  induction events using List.reverseRecOn with
  | nil => exact .inr ⟨[], by simp, rfl⟩
  | append_singleton events event ih =>
      rcases ih with ⟨fault, hfault⟩ | ⟨fields, hdistinct, rfl⟩
      · exact .inl ⟨fault, hfault.append [event]⟩
      · cases event with
        | missing mixin => exact .inl ⟨_, .missing mixin [] hdistinct⟩
        | field found =>
            by_cases htaken : found.number ∈ fields.map Field.number
            · exact .inl ⟨_, .taken [] hdistinct htaken⟩
            · refine .inr ⟨fields ++ [found], ?_, by simp⟩
              rw [List.map_append, List.map_singleton]
              simpa [List.nodup_append, hdistinct] using htaken

end MergeEvent

/-- The merge of the message has a fault. -/
def Message.IsFaulty (message : Message) (index : MessageIndex) : Prop :=
  ∃ fault, FirstFault message.name (message.mergeEvents index) fault

/-- Nothing that is too long to be written is in the way of the expansion of the message: neither a
number that stands for a mixin nor that of the first fault. -/
structure Message.CanReport (message : Message) (index : MessageIndex) : Prop where
  mixins : ∀ setting ∈ message.mixinSettings, setting.value.toText? ≠ none
  number : ∀ field number host,
    FirstFault message.name (message.mergeEvents index) (.numberConflict field number host) →
      Integer.IsShort number

/-! ### The outcome for an entry -/

/-- The mixins of a message have no names exactly when a number that stands for one is too long. -/
theorem Message.mixins_eq_error_iff {message : Message} {cause : MixinError} :
    message.mixins = .error cause ↔
      cause = .numberTooLong ∧ ∃ setting ∈ message.mixinSettings, setting.value.toText? = none := by
  have hlong {cause : MixinError} (h : message.mixins = .error cause) : cause = .numberTooLong ∧
      ∃ setting ∈ message.mixinSettings, setting.value.toText? = none := by
    unfold mixins at h
    obtain ⟨before, setting, after, hsettings, -, hsetting⟩ := mapM_eq_error_iff.mp h
    rw [← mixinSettings] at hsettings
    cases htext : setting.value.toText? with
    | none =>
        rw [htext] at hsetting
        exact ⟨(Except.error.inj hsetting).symm, setting, by simp [hsettings], htext⟩
    | some name =>
        rw [htext] at hsetting
        cases hsetting
  refine ⟨hlong, ?_⟩
  rintro ⟨rfl, setting, hsetting, hnone⟩
  cases hmixins : message.mixins with
  | error cause => rw [(hlong hmixins).1]
  | ok names =>
      have htext := List.mem_map_of_mem (f := fun setting => setting.value.toText?) hsetting
      rw [Message.mixins_eq_ok_iff.mp hmixins, hnone] at htext
      simp at htext

/-- The expansion of a message with mixins is recorded. -/
theorem Entry.expandInto_eq_map {entry : Entry} {names : List Text} (hhost : entry.isHost)
    (hnames : entry.message.mixins = .ok names) (index : MessageIndex)
    (expanded : Dictionary Message) :
    entry.expandInto index expanded =
      (entry.message.expand names index).map (expanded.insert entry.fullName) := by
  have hsome : names.isEmpty = false := by
    rw [Message.isEmpty_mixins hnames, ← isHost, hhost]
    rfl
  rw [expandInto, hnames]
  show (if names.isEmpty then _ else _) = _
  rw [hsome]
  cases entry.message.expand names index with
  | error cause => rfl
  | ok message => rfl

/-- The names of the mixins are not in the way. -/
theorem Message.CanReport.exists_mixins {message : Message} {index : MessageIndex}
    (h : message.CanReport index) : ∃ names, message.mixins = .ok names := by
  cases hmixins : message.mixins with
  | error cause =>
      obtain ⟨-, setting, hsetting, hnone⟩ := mixins_eq_error_iff.mp hmixins
      exact absurd hnone (h.mixins setting hsetting)
  | ok names => exact ⟨names, rfl⟩

/-- The first fault is raised as it is. -/
theorem Message.CanReport.raised_eq {message : Message} {index : MessageIndex} {fault : MixinError}
    (h : message.CanReport index)
    (hfault : FirstFault message.name (message.mergeEvents index) fault) :
    fault.raised = fault := by
  cases fault with
  | notFound mixin host => rfl
  | numberConflict field number host => exact if_pos (h.number field number host hfault)
  | numberTooLong => rfl

namespace Entry

variable {index : MessageIndex} {entry : Entry}

/-- An entry is expanded unless its message has a fault. -/
theorem exists_expandInto (hreport : entry.isHost → entry.message.CanReport index)
    (hsound : entry.isHost → ¬ entry.message.IsFaulty index) (expanded : Dictionary Message) :
    ∃ next, entry.expandInto index expanded = .ok next := by
  by_cases hhost : entry.isHost
  · obtain ⟨names, hnames⟩ := (hreport hhost).exists_mixins
    rcases MergeEvent.exists_firstFault_or_fields entry.message.name
      (entry.message.mergeEvents index) with hfault | ⟨fields, hdistinct, hfields⟩
    · exact absurd hfault (hsound hhost)
    · rw [expandInto_eq_map hhost hnames, Message.expand_eq hnames, hfields,
        MergeEvent.foldlM_mergeInto_fields hdistinct]
      exact ⟨_, rfl⟩
  · exact ⟨expanded, expandInto_of_not_isHost hhost expanded⟩

/-- An entry raises the first fault of its message and no other error. -/
theorem expandInto_eq_error_iff (hreport : entry.isHost → entry.message.CanReport index)
    {fault : MixinError} (expanded : Dictionary Message) :
    entry.expandInto index expanded = .error fault ↔
      entry.isHost ∧ FirstFault entry.message.name (entry.message.mergeEvents index) fault := by
  have hraised (hhost : entry.isHost) {fault : MixinError}
      (hfault : FirstFault entry.message.name (entry.message.mergeEvents index) fault) :
      entry.expandInto index expanded = .error fault := by
    obtain ⟨names, hnames⟩ := (hreport hhost).exists_mixins
    rw [expandInto_eq_map hhost hnames, Message.expand_eq hnames, hfault.foldlM_mergeInto,
      (hreport hhost).raised_eq hfault]
    rfl
  refine ⟨fun herror => ?_, fun h => hraised h.1 h.2⟩
  by_cases hfaulty : entry.isHost ∧ entry.message.IsFaulty index
  · obtain ⟨hhost, first, hfirst⟩ := hfaulty
    obtain rfl := Except.error.inj (herror.symm.trans (hraised hhost hfirst))
    exact ⟨hhost, hfirst⟩
  · obtain ⟨next, hnext⟩ := exists_expandInto hreport (not_and.mp hfaulty) expanded
    exact ok_error_elim hnext herror

/-- An entry that cannot report raises that a number is too long. -/
theorem expandInto_of_not_canReport (hhost : entry.isHost)
    (hreport : ¬ entry.message.CanReport index) (expanded : Dictionary Message) :
    entry.expandInto index expanded = .error .numberTooLong := by
  cases hnames : entry.message.mixins with
  | error cause =>
      obtain ⟨rfl, -⟩ := Message.mixins_eq_error_iff.mp hnames
      rw [expandInto, hnames]
      rfl
  | ok names =>
      rw [expandInto_eq_map hhost hnames, Message.expand_eq hnames]
      by_contra hother
      refine hreport ⟨fun setting hsetting hnone => ?_, fun field number host hfault => ?_⟩
      · exact ok_error_elim hnames (Message.mixins_eq_error_iff.mpr ⟨rfl, setting, hsetting, hnone⟩)
      · by_contra hlong
        have hraised : (MixinError.numberConflict field number host).raised = .numberTooLong :=
          if_neg hlong
        rw [hfault.foldlM_mergeInto, hraised] at hother
        exact hother rfl

end Entry

/-! ### The outcome for all entries -/

namespace MessageIndex

variable {index : MessageIndex} {entry : Entry} {entries : List Entry} {fault : MixinError}

/-- The first fault of the first entry that has one, among the entries that declare mixins. -/
def IsFirstFault (index : MessageIndex) (entries : List Entry) (fault : MixinError) : Prop :=
  ∃ before entry after, entries = before ++ entry :: after ∧
    (∀ other ∈ before, other.isHost → ¬ other.message.IsFaulty index) ∧
    entry.isHost ∧ FirstFault entry.message.name (entry.message.mergeEvents index) fault

/-- Nothing that is too long to be written is in the way of the expansion of an entry that is
reached. -/
def CanReport (index : MessageIndex) (entries : List Entry) : Prop :=
  ∀ before entry after, entries = before ++ entry :: after →
    (∀ other ∈ before, other.isHost → ¬ other.message.IsFaulty index) →
    entry.isHost → entry.message.CanReport index

/-- The first fault is that of the first entry, or that of the others where the first one has none.
-/
theorem isFirstFault_cons_iff :
    index.IsFirstFault (entry :: entries) fault ↔
      (entry.isHost ∧ FirstFault entry.message.name (entry.message.mergeEvents index) fault) ∨
      ((entry.isHost → ¬ entry.message.IsFaulty index) ∧ index.IsFirstFault entries fault) := by
  constructor
  · rintro ⟨before, faulty, after, hentries, hbefore, hfaulty⟩
    cases before with
    | nil =>
        obtain ⟨rfl, -⟩ := List.cons.inj hentries
        exact .inl hfaulty
    | cons first before =>
        obtain ⟨rfl, rfl⟩ := List.cons.inj hentries
        obtain ⟨hfirst, hbefore⟩ := List.forall_mem_cons.mp hbefore
        exact .inr ⟨hfirst, before, faulty, after, rfl, hbefore, hfaulty⟩
  · rintro (hfaulty | ⟨hfirst, before, faulty, after, rfl, hbefore, hfaulty⟩)
    · exact ⟨[], entry, entries, rfl, by simp, hfaulty⟩
    · exact ⟨entry :: before, faulty, after, rfl, List.forall_mem_cons.mpr ⟨hfirst, hbefore⟩,
        hfaulty⟩

/-- The first entry has to report, and the others where they are reached. -/
theorem canReport_cons_iff :
    index.CanReport (entry :: entries) ↔
      (entry.isHost → entry.message.CanReport index) ∧
      ((entry.isHost → ¬ entry.message.IsFaulty index) → index.CanReport entries) := by
  constructor
  · intro h
    refine ⟨h [] entry entries rfl (by simp), fun hfirst before other after hentries hbefore => ?_⟩
    exact h (entry :: before) other after (by rw [hentries]; rfl)
      (List.forall_mem_cons.mpr ⟨hfirst, hbefore⟩)
  · rintro ⟨hentry, hrest⟩ before other after hentries hbefore
    cases before with
    | nil =>
        obtain ⟨rfl, -⟩ := List.cons.inj hentries
        exact hentry
    | cons first before =>
        obtain ⟨rfl, rfl⟩ := List.cons.inj hentries
        obtain ⟨hfirst, hbefore⟩ := List.forall_mem_cons.mp hbefore
        exact hrest hfirst before other after rfl hbefore

/-- Expanding entries raises the first fault and no other error. -/
theorem foldlM_expandInto_eq_error_iff (hreport : index.CanReport entries)
    (expanded : Dictionary Message) :
    entries.foldlM (Entry.expandInto index) expanded = .error fault ↔
      index.IsFirstFault entries fault := by
  induction entries generalizing expanded with
  | nil => simp [IsFirstFault, pure, Except.pure]
  | cons entry entries ih =>
      obtain ⟨hentry, hlater⟩ := canReport_cons_iff.mp hreport
      rw [isFirstFault_cons_iff, List.foldlM_cons, bind_eq_error_iff,
        Entry.expandInto_eq_error_iff hentry]
      refine or_congr_right ⟨?_, ?_⟩
      · rintro ⟨next, hnext, hrest⟩
        have hsound (hhost : entry.isHost) : ¬ entry.message.IsFaulty index := by
          rintro ⟨found, hfound⟩
          exact ok_error_elim hnext
            ((Entry.expandInto_eq_error_iff hentry expanded).mpr ⟨hhost, hfound⟩)
        exact ⟨hsound, (ih (hlater hsound) next).mp hrest⟩
      · rintro ⟨hsound, hfault⟩
        obtain ⟨next, hnext⟩ := Entry.exists_expandInto hentry hsound expanded
        exact ⟨next, hnext, (ih (hlater hsound) next).mpr hfault⟩

/-- Where a number is in the way, that is what expanding entries raises. -/
theorem foldlM_expandInto_of_not_canReport (hreport : ¬ index.CanReport entries)
    (expanded : Dictionary Message) :
    entries.foldlM (Entry.expandInto index) expanded = .error .numberTooLong := by
  induction entries generalizing expanded with
  | nil => exact absurd (fun before entry after h => by simp at h) hreport
  | cons entry entries ih =>
      rw [canReport_cons_iff] at hreport
      rw [List.foldlM_cons, bind_eq_error_iff]
      by_cases hentry : entry.isHost → entry.message.CanReport index
      · obtain ⟨hsound, hlater⟩ := Classical.not_imp.mp (not_and.mp hreport hentry)
        obtain ⟨next, hnext⟩ := Entry.exists_expandInto hentry hsound expanded
        exact .inr ⟨next, hnext, ih hlater next⟩
      · obtain ⟨hhost, hentry⟩ := Classical.not_imp.mp hentry
        exact .inl (Entry.expandInto_of_not_canReport hhost hentry expanded)

/-- Expanding the entries raises the first fault, and nothing if there is none. -/
def ReportsFirstFault (index : MessageIndex) (entries : List Entry) : Prop :=
  ∀ cause, expandWith index entries = .error cause ↔ index.IsFirstFault entries cause

end MessageIndex

/-- Expanding entries raises the first fault, and nothing if there is none, exactly when no number
that is too long to be written is in the way: one that stands for a mixin, or that of the fault
itself. Otherwise it raises that a number is too long. -/
theorem reportsFirstFault_iff (index : MessageIndex) (entries : List Entry) :
    (index.ReportsFirstFault entries ↔ index.CanReport entries) ∧
      (¬ index.CanReport entries → expandWith index entries = .error .numberTooLong) := by
  have hlong (hreport : ¬ index.CanReport entries) :
      expandWith index entries = .error .numberTooLong :=
    index.foldlM_expandInto_of_not_canReport hreport []
  refine ⟨⟨fun h => ?_, fun hreport cause => ?_⟩, hlong⟩
  · by_contra hreport
    obtain ⟨_, _, _, -, -, -, hfault⟩ := (h .numberTooLong).mp (hlong hreport)
    exact hfault.ne_numberTooLong rfl
  · exact MessageIndex.foldlM_expandInto_eq_error_iff hreport []

/-- The integer of 3600 hexadecimal digits one, which has more decimal digits than are written. -/
def longNumber : Int :=
  Int.ofNat ((Nat.pow 16 3600 - 1) / 15)

/-- A message `A` whose field has the number of the field of its mixin `M`. -/
def conflictingEntries (number : Int) : List Entry :=
  [⟨"a.proto", [], { name := "M", fields := [{ name := "m", number, type := "int32" }] }⟩,
    ⟨"a.proto", [], mixinUser "A" { name := "x", number, type := "int32" }⟩]

/-- The conflict of the two fields is the first fault of `A`. -/
theorem firstFault_conflicting (number : Int) :
    FirstFault "A" ((mixinUser "A" { name := "x", number, type := "int32" }).mergeEvents
      (.ofEntries (conflictingEntries number))) (.numberConflict "x" number "A") :=
  @FirstFault.taken "A" [{ name := "m", number, type := "int32" }] _ [] (by simp) (by simp)

/-- The conflict of the two fields is not reported where their number is too long. -/
theorem not_reportsFirstFault_long :
    let entries := conflictingEntries longNumber
    let index := MessageIndex.ofEntries entries
    index.IsFirstFault entries (.numberConflict "x" longNumber "A") ∧
      expand entries = .error .numberTooLong ∧ ¬ index.ReportsFirstFault entries := by
  intro entries index
  have hfault := firstFault_conflicting longNumber
  have hhost : (⟨"a.proto", [], mixinUser "A"
      { name := "x", number := longNumber, type := "int32" }⟩ : Entry).isHost := by decide +kernel
  have hbefore : ∀ other ∈ entries.take 1, other.isHost → ¬ other.message.IsFaulty index := by
    intro other hother hhost
    obtain rfl := List.mem_singleton.mp hother
    cases hhost
  have hreport : ¬ index.CanReport entries := by
    intro h
    have hlong : ¬ Integer.IsShort longNumber := by decide +kernel
    exact hlong ((h (entries.take 1) _ [] rfl hbefore hhost).number _ _ _ hfault)
  have hraised : expand entries = .error .numberTooLong :=
    index.foldlM_expandInto_of_not_canReport hreport []
  refine ⟨⟨entries.take 1, _, [], rfl, hbefore, hhost, hfault⟩, hraised, fun h => ?_⟩
  obtain ⟨_, _, _, -, -, -, hother⟩ := (h .numberTooLong).mp hraised
  exact hother.ne_numberTooLong rfl

end ProtoSchema
