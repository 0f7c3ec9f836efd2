import ProtoSchema.Proofs.Outcome
import ProtoSchema.Token.Lexer

/-!
# The lexemes of a text

What a scan finds, without the places. `lexemes_cons` is the one equation of the lexer that the
other modules use: the lexemes of a text are the lexeme of its first step, if there is one, and
those of the text that this step leaves. It holds because no step looks at its place.
-/

namespace ProtoSchema.Lexer

/-- The lexemes of a text in order. -/
def lexemes (text : Text) : Except EscapeError (List Lexeme) :=
  (scan text).map fun found => found.tokens.map Token.lexeme

/-- The tokens of a text have its lexemes. -/
theorem scan_of_lexemes {text : Text} {found : List Lexeme} (h : lexemes text = .ok found) :
    ∃ scanned, scan text = .ok scanned ∧ scanned.tokens.map Token.lexeme = found :=
  map_eq_ok_iff.mp h

/-- What a step found and how much of the text it takes. -/
def Step.extent (found : Step) : Option Lexeme × Nat :=
  (found.lexeme, found.length)

/-- The body of a string does not depend on its place. -/
theorem stringBody_position (quote : CodePoint) (text : Text) (escaped : Bool)
    (first second : Position) :
    (stringBody quote escaped first text).1 = (stringBody quote escaped second text).1 ∧
      (stringBody quote escaped first text).2.1 = (stringBody quote escaped second text).2.1 := by
  induction text generalizing escaped first second with
  | nil => exact ⟨rfl, rfl⟩
  | cons c rest ih =>
      unfold stringBody
      split
      · exact ⟨rfl, rfl⟩
      · obtain ⟨hraw, htaken⟩ :=
          ih (!escaped && c = '\\') (first.after c) (second.after c)
        exact ⟨congrArg (c :: ·) hraw, congrArg (· + 1) htaken⟩

/-- The length of a comment does not depend on its place. -/
theorem blockComment_position (text : Text) (taken : Nat) (first second : Position) :
    (blockComment taken first text).1 = (blockComment taken second text).1 := by
  induction text generalizing taken first second with
  | nil => rfl
  | cons c rest ih =>
      unfold blockComment
      split
      · rfl
      · exact ih _ _ _

/-- What a step finds does not depend on its place. -/
theorem step_position (c : CodePoint) (rest : Text) (first second : Position) :
    (step first c rest).map Step.extent = (step second c rest).map Step.extent := by
  -- The place decides only where a step ends, which the extent leaves out.
  have hstring (quote : CodePoint) :
      (stringStep first quote rest).map Step.extent =
        (stringStep second quote rest).map Step.extent := by
    obtain ⟨hraw, htaken⟩ := stringBody_position quote rest false (first.right 1) (second.right 1)
    unfold stringStep
    generalize stringBody quote false (first.right 1) rest = left at hraw htaken ⊢
    generalize stringBody quote false (second.right 1) rest = right at hraw htaken ⊢
    obtain ⟨raw, taken, after⟩ := left
    obtain ⟨otherRaw, otherTaken, otherAfter⟩ := right
    obtain rfl : raw = otherRaw := hraw
    obtain rfl : taken = otherTaken := htaken
    dsimp only
    cases Escape.unescape raw <;> rfl
  have hword : (wordStep first c rest).extent = (wordStep second c rest).extent := by
    unfold wordStep
    split
    · rfl
    · split
      · rfl
      · split <;> rfl
  unfold step
  split
  · rfl
  · split
    · rfl
    · split
      · exact congrArg (fun taken => Except.ok (none, taken)) (blockComment_position _ _ _ _)
      · split
        · rfl
        · split
          · exact hstring c
          · exact congrArg Except.ok hword

/-! ### The scan step by step -/

/-- What is left of a step taken before is dropped. -/
theorem scanFrom_skip (skip : Nat) (position : Position) (text : Text) :
    scanFrom skip position text = scanFrom 0 position (text.drop skip) := by
  induction text generalizing skip with
  | nil => cases skip <;> rfl
  | cons c rest ih =>
      cases skip with
      | zero => rfl
      | succ skip => exact ih skip

/-- A scan takes its first step and goes on with what the step leaves. -/
theorem scanFrom_cons (position : Position) (c : CodePoint) (rest : Text) :
    scanFrom 0 position (c :: rest) = (step position c rest).bind fun found =>
      (scanFrom 0 found.after (rest.drop (found.length - 1))).map
        (Scan.add · found.lexeme position) := by
  rw [scanFrom]
  cases hstep : step position c rest with
  | error cause => rfl
  | ok found =>
      show (scanFrom (found.length - 1) found.after rest).bind _ = (scanFrom 0 found.after _).map _
      rw [← scanFrom_skip]
      cases scanFrom (found.length - 1) found.after rest <;> rfl

/-- The lexemes of a scan that starts inside a step taken before. -/
def lexemesFrom (skip : Nat) (position : Position) (text : Text) :
    Except EscapeError (List Lexeme) :=
  (scanFrom skip position text).map fun found => found.tokens.map Token.lexeme

/-- The lexemes of a text are those of its first step and those of what the step leaves, wherever
the text stands. -/
theorem lexemesFrom_cons (position : Position) (c : CodePoint) (rest : Text) :
    lexemesFrom 0 position (c :: rest) = (step position c rest).bind fun found =>
      (lexemesFrom 0 found.after (rest.drop (found.length - 1))).map
        (found.lexeme.toList ++ ·) := by
  rw [lexemesFrom, scanFrom_cons]
  cases hstep : step position c rest with
  | error cause => rfl
  | ok found =>
      show Except.map _ ((scanFrom 0 found.after _).map _) = (lexemesFrom 0 found.after _).map _
      rw [lexemesFrom]
      cases scanFrom 0 found.after (rest.drop (found.length - 1)) with
      | error cause => rfl
      | ok scan => cases hlexeme : found.lexeme <;> rfl

/-- The lexemes of a text do not depend on its place. -/
theorem lexemesFrom_position (text : Text) (first second : Position) :
    lexemesFrom 0 first text = lexemesFrom 0 second text := by
  induction hlength : text.length using Nat.strongRecOn generalizing text first second with
  | ind length ih =>
      cases text with
      | nil => rfl
      | cons c rest =>
          have hstep := step_position c rest first second
          rw [lexemesFrom_cons, lexemesFrom_cons]
          cases hleft : step first c rest with
          | error cause =>
              cases hright : step second c rest with
              | error other =>
                  rw [hleft, hright] at hstep
                  obtain rfl : cause = other := by simpa [Except.map] using hstep
                  rfl
              | ok found => simp [hleft, hright, Except.map] at hstep
          | ok found =>
              cases hright : step second c rest with
              | error cause => simp [hleft, hright, Except.map] at hstep
              | ok other =>
                  rw [hleft, hright] at hstep
                  have hextent : found.extent = other.extent := by
                    simpa [Except.map] using hstep
                  obtain ⟨hlexeme, htaken⟩ := Prod.mk.inj hextent
                  show (lexemesFrom 0 found.after (rest.drop (found.length - 1))).map _ =
                    (lexemesFrom 0 other.after (rest.drop (other.length - 1))).map _
                  -- The steps leave the same text, at places that may differ.
                  rw [hlexeme, htaken]
                  rw [ih (rest.drop (other.length - 1)).length _ _ found.after other.after rfl]
                  rw [← hlength, List.length_drop, List.length_cons]
                  omega

/-- An empty text has no lexemes. -/
theorem lexemes_nil : lexemes [] = .ok [] := rfl

/-- The lexemes of a text are that of its first step, if there is one, and those of the text that
the step leaves. -/
theorem lexemes_cons {position : Position} {c : CodePoint} {rest : Text} {found : Step}
    (h : step position c rest = .ok found) :
    lexemes (c :: rest) =
      (lexemes (rest.drop (found.length - 1))).map (found.lexeme.toList ++ ·) := by
  show lexemesFrom 0 Position.start (c :: rest) = (lexemesFrom 0 Position.start _).map _
  rw [lexemesFrom_position _ _ position, lexemesFrom_cons, h,
    lexemesFrom_position (rest.drop (found.length - 1)) Position.start found.after]
  rfl

/-- A text whose first step fails has no lexemes. -/
theorem lexemes_of_error {c : CodePoint} {rest : Text} {cause : EscapeError}
    (h : step Position.start c rest = .error cause) : lexemes (c :: rest) = .error cause := by
  show lexemesFrom 0 Position.start (c :: rest) = _
  rw [lexemesFrom_cons, h]
  rfl

end ProtoSchema.Lexer
