import Mathlib.Data.List.Basic
import ProtoSchema.Text.Lines

/-!
# Trimmed texts and lines

Trimming leaves a text without blanks at its ends (`isTrimmed_trim`), and leaves such a text as it
is. No line has a line break in it (`notMem_of_mem_lines`), and lines that are joined by line feeds
are the lines of the text that they make (`lines_join`).
-/

namespace ProtoSchema.Text

/-! ### Trimming -/

/-- The text neither starts nor ends with a blank. -/
structure IsTrimmed (text : Text) : Prop where
  start : ∀ c ∈ text.head?, ¬ c.isBlank
  finish : ∀ c ∈ text.getLast?, ¬ c.isBlank

/-- What is left when blanks are dropped does not start with a blank. -/
theorem not_isBlank_of_mem_head?_dropWhile (text : Text) :
    ∀ c ∈ (text.dropWhile CodePoint.isBlank).head?, ¬ c.isBlank := by
  intro c hc
  have hnot := List.head?_dropWhile_not CodePoint.isBlank text
  rw [Option.mem_def.mp hc] at hnot
  exact Bool.not_eq_true _ ▸ hnot

/-- A text that does not start with a blank loses nothing when blanks are dropped. -/
theorem dropWhile_isBlank_eq {text : Text} (h : ∀ c ∈ text.head?, ¬ c.isBlank) :
    text.dropWhile CodePoint.isBlank = text := by
  cases text with
  | nil => rfl
  | cons c rest => exact List.dropWhile_cons_of_neg (h c rfl)

/-- What is left of a text by trimming is in the text. -/
theorem mem_of_mem_trim {text : Text} {c : CodePoint} (h : c ∈ trim text) : c ∈ text := by
  rw [trim, List.mem_reverse] at h
  exact (List.dropWhile_suffix _).mem (List.mem_reverse.mp ((List.dropWhile_suffix _).mem h))

/-- Trimming removes the blanks at both ends. -/
theorem isTrimmed_trim (text : Text) : IsTrimmed (trim text) where
  start := by
    intro c hc
    -- What is left starts as the text did before its end was trimmed.
    obtain ⟨rest, hrest⟩ := List.reverse_prefix.mpr
      (List.dropWhile_suffix (l := (text.dropWhile CodePoint.isBlank).reverse) CodePoint.isBlank)
    rw [List.reverse_reverse] at hrest
    rw [trim] at hc
    refine not_isBlank_of_mem_head?_dropWhile text c ?_
    rw [← hrest, List.head?_append, Option.mem_def.mp hc]
    rfl
  finish := by
    rw [trim, List.getLast?_reverse]
    exact not_isBlank_of_mem_head?_dropWhile _

/-- Trimming leaves a trimmed text as it is. -/
theorem IsTrimmed.trim_eq {text : Text} (h : IsTrimmed text) : trim text = text := by
  have hfinish : ∀ c ∈ text.reverse.head?, ¬ c.isBlank := by
    rw [List.head?_reverse]
    exact h.finish
  rw [trim, dropWhile_isBlank_eq h.start, dropWhile_isBlank_eq hfinish, List.reverse_reverse]

/-! ### Lines -/

/-- No line from here on has a line break in it. -/
theorem notMem_of_mem_linesFrom {afterReturn : Bool} {line text : Text}
    (hline : ∀ c ∈ line, ¬ c.isLineBreak) :
    ∀ part ∈ linesFrom afterReturn line text, ∀ c ∈ part, ¬ c.isLineBreak := by
  induction text generalizing afterReturn line with
  | nil =>
      rw [linesFrom]
      split
      · exact List.forall_mem_nil _
      · exact List.forall_mem_singleton.mpr fun c hc => hline c (List.mem_reverse.mp hc)
  | cons c rest ih =>
      rw [linesFrom]
      split
      · exact ih (List.forall_mem_nil _)
      · split
        · exact List.forall_mem_cons.mpr
            ⟨fun d hd => hline d (List.mem_reverse.mp hd), ih (List.forall_mem_nil _)⟩
        next hbreak => exact ih (List.forall_mem_cons.mpr ⟨hbreak, hline⟩)

/-- No line has a line break in it. -/
theorem notMem_of_mem_lines {text : Text} :
    ∀ line ∈ lines text, ∀ c ∈ line, ¬ c.isLineBreak :=
  notMem_of_mem_linesFrom (List.forall_mem_nil _)

/-- Code points that end no line go on with it. -/
theorem linesFrom_append {line text : Text} (h : ∀ c ∈ text, ¬ c.isLineBreak) (rest : Text) :
    linesFrom false line (text ++ rest) = linesFrom false (text.reverse ++ line) rest := by
  induction text generalizing line with
  | nil => rfl
  | cons c text ih =>
      obtain ⟨hc, htext⟩ := List.forall_mem_cons.mp h
      rw [List.cons_append, linesFrom, if_neg (by simp), if_neg hc, ih htext, List.reverse_cons,
        List.append_assoc, List.singleton_append]

/-- A line feed is a line break. -/
theorem isLineBreak_lineFeed : (CodePoint.ofChar '\n').isLineBreak := by
  decide

/-- A line feed ends a line. -/
theorem linesFrom_lineFeed (line rest : Text) :
    linesFrom false line (CodePoint.ofChar '\n' :: rest) =
      line.reverse :: linesFrom false [] rest := by
  rw [linesFrom, if_neg (by simp), if_pos isLineBreak_lineFeed]
  rfl

/-- Lines that are joined by line feeds are the lines of the text, unless one is empty. -/
theorem lines_join {parts : List Text}
    (h : ∀ part ∈ parts, part ≠ [] ∧ ∀ c ∈ part, ¬ c.isLineBreak) :
    lines (join [CodePoint.ofChar '\n'] parts) = parts := by
  induction parts with
  | nil => rfl
  | cons part parts ih =>
      obtain ⟨⟨hne, hpart⟩, hparts⟩ := List.forall_mem_cons.mp h
      cases parts with
      | nil =>
          have hline : linesFrom false part.reverse [] = [part] := by
            rw [linesFrom, if_neg (by simpa using hne), List.reverse_reverse]
          rw [join, lines, ← List.append_nil part, linesFrom_append hpart, List.append_nil,
            List.append_nil, hline]
      | cons next parts =>
          rw [join, List.append_assoc, List.singleton_append, lines, linesFrom_append hpart,
            linesFrom_lineFeed, List.append_nil, List.reverse_reverse]
          exact congrArg (List.cons part) (ih hparts)

/-- A text of joined parts is trimmed if they are, unless one is empty. -/
theorem isTrimmed_join {separator : Text} {parts : List Text}
    (h : ∀ part ∈ parts, part ≠ [] ∧ IsTrimmed part) : IsTrimmed (join separator parts) := by
  induction parts with
  | nil => exact ⟨by simp [join], by simp [join]⟩
  | cons part parts ih =>
      obtain ⟨⟨hne, hpart⟩, hparts⟩ := List.forall_mem_cons.mp h
      cases parts with
      | nil => exact hpart
      | cons next parts =>
          have hrest : join separator (next :: parts) ≠ [] := by
            obtain ⟨⟨hnext, -⟩, -⟩ := List.forall_mem_cons.mp hparts
            cases parts <;> simp [join, hnext]
          rw [join, List.append_assoc]
          refine ⟨?_, ?_⟩
          · rw [List.head?_append_of_ne_nil _ hne]
            exact hpart.start
          · rw [← List.append_assoc, List.getLast?_append_of_ne_nil _ hrest]
            exact (ih hparts).finish

end ProtoSchema.Text
