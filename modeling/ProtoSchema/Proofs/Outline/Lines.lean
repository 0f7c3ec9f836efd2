import ProtoSchema.Outline.Basic
import ProtoSchema.Proofs.Files.Path
import ProtoSchema.Proofs.Text.Lines

/-!
# The lines of an outline

An outline is a line for the file, an empty one, and for every entry a line with its names and one
line for each line of its comment. Comments are free text, but none of their lines is taken for the
line of an entry: `Outline.read_render` is the main statement, and `Outline.read` reads the entries
back from the text.
-/

namespace ProtoSchema

/-! ### Lines -/

/-- Lines that end in the separator are the parts of their text, with an empty part behind them. -/
theorem Text.split_flatMap {separator : CodePoint} {lines : List Text}
    (h : ∀ line ∈ lines, separator ∉ line) :
    split separator (lines.flatMap fun line => line ++ [separator]) = lines ++ [[]] := by
  induction lines with
  | nil => rfl
  | cons line lines ih =>
      obtain ⟨hline, hlines⟩ := List.forall_mem_cons.mp h
      rw [List.flatMap_cons, List.append_assoc, List.singleton_append, split_append,
        split_of_notMem hline, ih hlines]
      rfl

/-- Up to the first separator, a text is what comes before it. -/
theorem Text.takeWhile_ne_append {separator : CodePoint} {text : Text} (h : separator ∉ text)
    (rest : Text) : (text ++ separator :: rest).takeWhile (· ≠ separator) = text := by
  rw [List.takeWhile_append_of_pos, List.takeWhile_cons_of_neg (by simp), List.append_nil]
  intro c hc
  exact decide_eq_true fun hsame => h (hsame ▸ hc)

/-- From the first separator on, a text is this one and what comes behind it. -/
theorem Text.dropWhile_ne_append {separator : CodePoint} {text : Text} (h : separator ∉ text)
    (rest : Text) :
    (text ++ separator :: rest).dropWhile (· ≠ separator) = separator :: rest := by
  rw [List.dropWhile_append_of_pos, List.dropWhile_cons_of_neg (by simp)]
  intro c hc
  exact decide_eq_true fun hsame => h (hsame ▸ hc)

namespace OutlineEntry

/-- The entry has one of the three kinds, and names without line feeds and spaces. -/
structure IsPlain (entry : OutlineEntry) : Prop where
  kind : entry.kind = Text.ofString "message" ∨ entry.kind = Text.ofString "enum" ∨
    entry.kind = Text.ofString "service"
  outputName : CodePoint.ofChar '\n' ∉ entry.outputName ∧ CodePoint.ofChar ' ' ∉ entry.outputName
  protoName : CodePoint.ofChar '\n' ∉ entry.protoName ∧ CodePoint.ofChar ' ' ∉ entry.protoName

/-- The line with the names of an entry: its kind, padded to eight columns, the name of the type,
an arrow and the name in the schema. -/
def nameLine (entry : OutlineEntry) : Text :=
  padTo 8 entry.kind ++ Text.ofString " " ++ entry.outputName ++ Text.ofString " <- " ++
    entry.protoName

/-- A line of a comment behind nine spaces and two slashes. -/
def commentLine (line : Text) : Text :=
  List.replicate 9 (CodePoint.ofChar ' ') ++ Text.ofString "// " ++ line

/-- The lines of an entry. -/
def shownLines (entry : OutlineEntry) : List Text :=
  entry.nameLine :: entry.commentLines.map commentLine

/-- The text of an entry is its lines. -/
theorem render_eq (entry : OutlineEntry) :
    entry.render = entry.shownLines.flatMap fun line => line ++ [CodePoint.ofChar '\n'] := by
  rw [shownLines, List.flatMap_cons, List.flatMap_map]
  rfl

/-! ### Lines of comments -/

/-- The lines of a comment are not empty, trimmed, and without line breaks. -/
theorem of_mem_commentLines {entry : OutlineEntry} {line : Text} (h : line ∈ entry.commentLines) :
    line ≠ [] ∧ Text.IsTrimmed line ∧ ∀ c ∈ line, ¬ c.isLineBreak := by
  obtain ⟨hmem, hne⟩ := List.mem_filter.mp h
  obtain ⟨part, hpart, rfl⟩ := List.mem_map.mp hmem
  refine ⟨by simpa using hne, Text.isTrimmed_trim part, fun c hc => ?_⟩
  exact Text.notMem_of_mem_lines part hpart c (Text.mem_of_mem_trim hc)

/-- The lines of a comment, joined by line feeds, are a comment with the same lines. -/
theorem commentLines_join {entry other : OutlineEntry}
    (h : other.comment = Text.join [CodePoint.ofChar '\n'] entry.commentLines) :
    other.commentLines = entry.commentLines := by
  have hlines := fun line (hline : line ∈ entry.commentLines) => of_mem_commentLines hline
  have htrimmed : Text.IsTrimmed other.comment := by
    rw [h]
    exact Text.isTrimmed_join fun line hline => ⟨(hlines line hline).1, (hlines line hline).2.1⟩
  have hsplit : Text.lines other.comment = entry.commentLines := by
    rw [h]
    exact Text.lines_join fun line hline => ⟨(hlines line hline).1, (hlines line hline).2.2⟩
  have hmap : entry.commentLines.map Text.trim = entry.commentLines :=
    (List.map_congr_left fun line hline => (hlines line hline).2.1.trim_eq).trans (List.map_id _)
  rw [commentLines, htrimmed.trim_eq, hsplit, hmap]
  exact List.filter_eq_self.mpr fun line hline => by simpa using (hlines line hline).1

/-! ### Lines of an entry -/

/-- The kind of a plain entry is a word of at most eight letters. -/
theorem IsPlain.kind_word {entry : OutlineEntry} (h : entry.IsPlain) :
    entry.kind ≠ [] ∧ entry.kind.length ≤ 8 ∧ CodePoint.ofChar '\n' ∉ entry.kind ∧
      CodePoint.ofChar ' ' ∉ entry.kind := by
  rcases h.kind with hkind | hkind | hkind <;> rw [hkind] <;> decide

/-- The padding stands between the kind and the names. -/
theorem nameLine_eq (entry : OutlineEntry) :
    entry.nameLine = entry.kind ++ List.replicate (8 - entry.kind.length) (CodePoint.ofChar ' ') ++
      [CodePoint.ofChar ' '] ++ (entry.outputName ++ CodePoint.ofChar ' ' ::
        (Text.ofString "<- " ++ entry.protoName)) := by
  simp only [nameLine, padTo, List.append_assoc]
  rfl

/-- The line with the names of a plain entry has no line feed in it. -/
theorem IsPlain.lineFeed_notMem_nameLine {entry : OutlineEntry} (h : entry.IsPlain) :
    CodePoint.ofChar '\n' ∉ entry.nameLine := by
  obtain ⟨-, -, hkind, -⟩ := h.kind_word
  have hblank : CodePoint.ofChar '\n' ≠ CodePoint.ofChar ' ' := by decide
  have harrow : CodePoint.ofChar '\n' ∉ Text.ofString "<- " := by decide
  simp only [nameLine_eq, List.mem_append, List.mem_cons, List.mem_replicate, List.not_mem_nil,
    not_or]
  exact ⟨⟨⟨hkind, fun hpad => hblank hpad.2⟩, hblank, not_false⟩, h.outputName.1, hblank, harrow,
    h.protoName.1⟩

/-- The lines of a plain entry have no line feed in them. -/
theorem IsPlain.lineFeed_notMem {entry : OutlineEntry} (h : entry.IsPlain) :
    ∀ line ∈ entry.shownLines, CodePoint.ofChar '\n' ∉ line := by
  refine List.forall_mem_cons.mpr ⟨h.lineFeed_notMem_nameLine, List.forall_mem_map.mpr ?_⟩
  intro line hline hmem
  rcases List.mem_append.mp hmem with hslashes | hmem
  · revert hslashes
    decide
  · exact (of_mem_commentLines hline).2.2 _ hmem Text.isLineBreak_lineFeed

end OutlineEntry

/-! ### Reading an outline -/

/-- What an outline shows of an entry. -/
structure ShownEntry where
  kind : Text
  outputName : Text
  protoName : Text
  commentLines : List Text
  deriving DecidableEq

/-- What an outline shows of the entry. -/
def OutlineEntry.shown (entry : OutlineEntry) : ShownEntry :=
  ⟨entry.kind, entry.outputName, entry.protoName, entry.commentLines⟩

/-- The entry of a line with names, and of the lines of a comment behind it. -/
def ShownEntry.ofNameLine (line : Text) (commentLines : List Text) : ShownEntry :=
  let names := line.drop 9
  { kind := line.takeWhile (· ≠ CodePoint.ofChar ' ')
    outputName := names.takeWhile (· ≠ CodePoint.ofChar ' ')
    protoName := (names.dropWhile (· ≠ CodePoint.ofChar ' ')).drop 4
    commentLines }

namespace Outline

/-- Read a line in front of lines of a comment and of entries that are read already. A line that
starts with a space belongs to the comment. -/
def readLine (line : Text) : List Text × List ShownEntry → List Text × List ShownEntry
  | (commentLines, entries) =>
      if line.head? = some (CodePoint.ofChar ' ') then (line.drop 12 :: commentLines, entries)
      else ([], .ofNameLine line commentLines :: entries)

/-- Read the entries of an outline from its text. The first two lines are the head, and the last
line feed ends a line. -/
def read (text : Text) : List ShownEntry :=
  ((((Text.split '\n' text).drop 2).dropLast).foldr readLine ([], [])).2

/-- The first line of an outline. -/
def headLine (name package : Text) : Text :=
  Text.ofString "# " ++ name ++
    if package.isEmpty then [] else Text.ofString " (package " ++ package ++ Text.ofString ")"

/-- The text of an outline is its lines. -/
theorem render_eq (name package : Text) (entries : List OutlineEntry) :
    render name package entries =
      (headLine name package :: [] :: entries.flatMap OutlineEntry.shownLines).flatMap
        fun line => line ++ [CodePoint.ofChar '\n'] := by
  have hentries : entries.flatMap OutlineEntry.render =
      (entries.flatMap OutlineEntry.shownLines).flatMap
        fun line => line ++ [CodePoint.ofChar '\n'] := by
    rw [List.flatMap_assoc]
    exact List.flatMap_congr fun entry _ => entry.render_eq
  have hbreaks : Text.ofString "\n\n" =
      [CodePoint.ofChar '\n'] ++ ([] ++ [CodePoint.ofChar '\n']) := rfl
  rw [render, hentries, List.flatMap_cons, List.flatMap_cons, headLine, hbreaks]
  simp only [List.append_assoc]

/-- The first line of an outline has no line feed in it if the name and the package have none. -/
theorem lineFeed_notMem_headLine {name package : Text} (hname : CodePoint.ofChar '\n' ∉ name)
    (hpackage : CodePoint.ofChar '\n' ∉ package) :
    CodePoint.ofChar '\n' ∉ headLine name package := by
  have hmark : CodePoint.ofChar '\n' ∉ Text.ofString "# " := by decide
  have hopening : CodePoint.ofChar '\n' ∉ Text.ofString " (package " := by decide
  have hclosing : CodePoint.ofChar '\n' ∉ Text.ofString ")" := by decide
  rw [headLine, List.mem_append, List.mem_append, not_or, not_or]
  refine ⟨⟨hmark, hname⟩, ?_⟩
  split
  · exact List.not_mem_nil
  · simp only [List.mem_append, not_or]
    exact ⟨⟨hopening, hpackage⟩, hclosing⟩

/-- The parts of an outline between its line feeds are its lines, and nothing after the last one. -/
theorem split_render {name package : Text} {entries : List OutlineEntry}
    (hname : CodePoint.ofChar '\n' ∉ name) (hpackage : CodePoint.ofChar '\n' ∉ package)
    (hentries : ∀ entry ∈ entries, entry.IsPlain) :
    Text.split '\n' (render name package entries) =
      headLine name package :: [] :: entries.flatMap OutlineEntry.shownLines ++ [[]] := by
  rw [render_eq]
  refine Text.split_flatMap (List.forall_mem_cons.mpr
    ⟨lineFeed_notMem_headLine hname hpackage, List.forall_mem_cons.mpr ⟨List.not_mem_nil, ?_⟩⟩)
  intro line hline
  obtain ⟨entry, hentry, hline⟩ := List.mem_flatMap.mp hline
  exact (hentries entry hentry).lineFeed_notMem line hline

end Outline

/-- The line with the names of a plain entry is read as what it shows. -/
theorem OutlineEntry.IsPlain.ofNameLine_nameLine {entry : OutlineEntry} (h : entry.IsPlain)
    (commentLines : List Text) :
    ShownEntry.ofNameLine entry.nameLine commentLines =
      ⟨entry.kind, entry.outputName, entry.protoName, commentLines⟩ := by
  obtain ⟨-, hlength, -, hblank⟩ := h.kind_word
  have hkind : entry.nameLine.takeWhile (· ≠ CodePoint.ofChar ' ') = entry.kind := by
    -- The first space is one of the padding, or the one behind it.
    rw [OutlineEntry.nameLine_eq, List.append_assoc entry.kind, ← List.replicate_succ',
      List.replicate_succ, List.append_assoc, List.cons_append, Text.takeWhile_ne_append hblank]
  have hnames : entry.nameLine.drop 9 =
      entry.outputName ++ CodePoint.ofChar ' ' :: (Text.ofString "<- " ++ entry.protoName) := by
    rw [OutlineEntry.nameLine_eq]
    refine List.drop_left' ?_
    simp only [List.length_append, List.length_replicate, List.length_singleton]
    omega
  rw [ShownEntry.ofNameLine, hkind, hnames, Text.takeWhile_ne_append h.outputName.2,
    Text.dropWhile_ne_append h.outputName.2]
  rfl

namespace Outline

/-- Lines of a comment are read in front of those that are read already. -/
theorem foldr_readLine_commentLines (lines commentLines : List Text) (entries : List ShownEntry) :
    (lines.map OutlineEntry.commentLine).foldr readLine (commentLines, entries) =
      (lines ++ commentLines, entries) := by
  induction lines with
  | nil => rfl
  | cons line lines ih =>
      rw [List.map_cons, List.foldr_cons, ih]
      rfl

/-- The lines of a plain entry are read as what the outline shows of it. -/
theorem foldr_readLine_shownLines {entry : OutlineEntry} (h : entry.IsPlain)
    (entries : List ShownEntry) :
    entry.shownLines.foldr readLine ([], entries) = ([], entry.shown :: entries) := by
  obtain ⟨hne, -, -, hblank⟩ := h.kind_word
  have hstart : entry.nameLine.head? ≠ some (CodePoint.ofChar ' ') := by
    rw [OutlineEntry.nameLine_eq, List.append_assoc, List.append_assoc,
      List.head?_append_of_ne_nil _ hne]
    exact fun hhead => hblank (List.mem_of_mem_head? hhead)
  rw [OutlineEntry.shownLines, List.foldr_cons, foldr_readLine_commentLines, List.append_nil,
    readLine, if_neg hstart, h.ofNameLine_nameLine]
  rfl

/-- The lines of plain entries are read as what the outline shows of them. -/
theorem foldr_readLine_flatMap {entries : List OutlineEntry}
    (h : ∀ entry ∈ entries, entry.IsPlain) :
    (entries.flatMap OutlineEntry.shownLines).foldr readLine ([], []) =
      ([], entries.map OutlineEntry.shown) := by
  induction entries with
  | nil => rfl
  | cons entry entries ih =>
      obtain ⟨hentry, hentries⟩ := List.forall_mem_cons.mp h
      rw [List.flatMap_cons, List.foldr_append, ih hentries, foldr_readLine_shownLines hentry]
      rfl

/-- The outline of plain entries, split at its line feeds, is the line of the file, an empty line,
and for every entry in order the line with its names and one line for each line of its comment;
nothing follows the last line feed. So the kinds, names and lines of comments can be read back from
the text, whatever the comments are. The lines of a comment are trimmed and neither empty nor
broken, and joined by line feeds they are a comment with the same lines. -/
theorem read_render {name package : Text} {entries : List OutlineEntry}
    (hname : CodePoint.ofChar '\n' ∉ name) (hpackage : CodePoint.ofChar '\n' ∉ package)
    (hentries : ∀ entry ∈ entries, entry.IsPlain) :
    Text.split '\n' (render name package entries) =
        headLine name package :: [] :: entries.flatMap OutlineEntry.shownLines ++ [[]] ∧
      read (render name package entries) = entries.map OutlineEntry.shown ∧
      ∀ entry : OutlineEntry,
        (∀ line ∈ entry.commentLines,
          line ≠ [] ∧ Text.IsTrimmed line ∧ ∀ c ∈ line, ¬ c.isLineBreak) ∧
        ∀ other : OutlineEntry,
          other.comment = Text.join [CodePoint.ofChar '\n'] entry.commentLines →
            other.commentLines = entry.commentLines := by
  have hsplit := split_render hname hpackage hentries
  refine ⟨hsplit, ?_, fun entry => ⟨fun _ => OutlineEntry.of_mem_commentLines, fun _ =>
    OutlineEntry.commentLines_join⟩⟩
  rw [read, hsplit, List.cons_append, List.cons_append, List.drop_succ_cons, List.drop_succ_cons,
    List.drop_zero, List.dropLast_concat, foldr_readLine_flatMap hentries]

/-- Entries of which the first has a comment with the line of another entry and an odd line break.
-/
def forgingEntries : List OutlineEntry :=
  [⟨"message", "A", "p.A", "\nenum     B <- p.B\u2028  // a line\r\n\n"⟩, ⟨"enum", "B", "p.B", ""⟩]

/-- The comment of the first entry stays a comment. -/
theorem read_render_forged :
    (CodePoint.ofChar '\n' ∉ Text.ofString "p.proto" ∧ CodePoint.ofChar '\n' ∉ Text.ofString "p" ∧
      ∀ entry ∈ forgingEntries, entry.IsPlain) ∧
    read (render "p.proto" "p" forgingEntries) =
      [⟨"message", "A", "p.A", ["enum     B <- p.B", "// a line"]⟩, ⟨"enum", "B", "p.B", []⟩] := by
  have hname : CodePoint.ofChar '\n' ∉ Text.ofString "p.proto" := by decide
  have hpackage : CodePoint.ofChar '\n' ∉ Text.ofString "p" := by decide
  have hentries : ∀ entry ∈ forgingEntries, entry.IsPlain :=
    List.forall_mem_cons.mpr ⟨⟨.inl rfl, by decide, by decide⟩,
      List.forall_mem_singleton.mpr ⟨.inr (.inl rfl), by decide, by decide⟩⟩
  refine ⟨⟨hname, hpackage, hentries⟩, (read_render hname hpackage hentries).2.1.trans ?_⟩
  decide

end Outline

end ProtoSchema
