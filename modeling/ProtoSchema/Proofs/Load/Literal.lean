import Mathlib
import ProtoSchema.Proofs.Files.Encoding
import ProtoSchema.Proofs.Files.Tree
import ProtoSchema.Proofs.Load.SchemaFile
import ProtoSchema.Proofs.Parser.Places
import ProtoSchema.Proofs.Parser.Refusal
import ProtoSchema.Proofs.Token.Escape

/-!
# Literals without a value

A schema file is loaded, or loading it fails with a failure of its path, unless the path is none or
the text of the file has a literal that stands for nothing where its value is wanted
(`HasValueless`). That is a string with an escape above the last code point, or a number in the
place of an option value that is neither an integer nor a decimal number. Main statement:
`load_ok_or_failure_iff`, for one file and for several.
-/

namespace ProtoSchema

/-- The text has a literal that stands for nothing, and what comes before it asks for its value: a
string with a wild escape, or a number without a value where a constant is expected. -/
inductive HasValueless (text : Text) : Prop
  | string {left : Text} (hleft : Lexer.ComesTo text left) (hwild : Lexer.StartsWild left) :
      HasValueless text
  | number {found : Lexer.Scan} {before after : List Token} {token : Token} {spelling : Text}
      (hscan : Lexer.scan text = .ok found) (htokens : found.tokens = before ++ token :: after)
      (hlexeme : token.lexeme = .number spelling) (hvalue : Parse.numberConstant? spelling = none)
      (hasked : Statement.ofTokens before = .error (.refused .expectedConstant [])) :
      HasValueless text

namespace File

/-- A parse ends with the error of a literal exactly when the text has one that stands for nothing.
-/
theorem parse_literal_iff {text path : Text} :
    (∃ error, parse text path = .error error ∧ LoadError.ofParse path error = .literal error) ↔
      HasValueless text := by
  cases hscan : Lexer.scan text with
  | error error =>
      obtain ⟨left, hleft, hwild⟩ := Lexer.scan_fails_iff.mp ⟨error, hscan⟩
      refine iff_of_true ⟨.escape error, ?_, rfl⟩ (.string hleft hwild)
      rw [parse, hscan]
  | ok found =>
      constructor
      · rintro ⟨error, hparse, hliteral⟩
        rw [parse, hscan] at hparse
        dsimp only at hparse
        split at hparse
        next fault hfault =>
          obtain rfl := Except.error.inj hparse
          cases fault with
          | refused cause rest => cases hliteral
          | notNumeric spelling =>
              obtain ⟨before, token, after, htokens, hlexeme, hvalue, hasked⟩ :=
                Statement.ofTokens_notNumeric_iff.mp hfault
              exact .number hscan htokens hlexeme hvalue hasked
        next => cases hparse
      · intro h
        cases h with
        | string hleft hwild =>
            obtain ⟨error, herror⟩ := Lexer.scan_fails_iff.mpr ⟨_, hleft, hwild⟩
            exact ok_error_elim hscan herror
        | @number other before after token spelling hother htokens hlexeme hvalue hasked =>
            obtain rfl := Except.ok.inj (hother.symm.trans hscan)
            have hfault := Statement.ofTokens_notNumeric_iff.mpr
              ⟨before, token, after, htokens, hlexeme, hvalue, hasked⟩
            refine ⟨.notNumeric spelling, ?_, rfl⟩
            rw [parse, hscan]
            dsimp only
            rw [hfault]
            rfl

/-- The file at a path can be read, and its text has a literal that stands for nothing. -/
def HoldsValueless (tree : FileTree) (path : Text) : Prop :=
  ∃ text, readText tree path = .ok text ∧ HasValueless text

variable {tree : FileTree} {path : Text}

/-- Loading ends with the error of a literal exactly when the file has one that stands for
nothing. -/
theorem load_literal_iff :
    (∃ error, load tree path = .error (.literal error)) ↔ HoldsValueless tree path := by
  constructor
  · rintro ⟨error, hload⟩
    obtain ⟨cause, hcause⟩ | ⟨fault, hfault, -⟩ | ⟨cause, text, hcause, hread, hparse⟩ :=
      load_eq_error hload
    · cases hcause
    · cases hfault
    · obtain rfl := LoadError.literal.inj hcause
      rw [load, hread] at hload
      dsimp only at hload
      rw [hparse] at hload
      exact ⟨text, hread, parse_literal_iff.mp ⟨error, hparse, Except.error.inj hload⟩⟩
  · rintro ⟨text, hread, hvalueless⟩
    obtain ⟨error, hparse, herror⟩ := parse_literal_iff.mpr hvalueless
    refine ⟨error, ?_⟩
    rw [load, hread]
    dsimp only
    rw [hparse, ← herror]

/-- Loading ends with the error of a path exactly when the text is none. -/
theorem load_path_iff :
    (∃ error, load tree path = .error (.path error)) ↔ ¬ Path.IsEncodable path := by
  have hread : (∃ error, load tree path = .error (.path error)) ↔
      ∃ fault, tree.read (Path.display path) = .error (.path fault) := by
    constructor
    · rintro ⟨error, hload⟩
      obtain ⟨cause, hcause⟩ | ⟨fault, -, hread⟩ | ⟨cause, text, hcause, -⟩ := load_eq_error hload
      · cases hcause
      · exact ⟨fault, hread⟩
      · cases hcause
    · rintro ⟨error, hread⟩
      refine ⟨error, ?_⟩
      rw [load, readText, hread]
      rfl
  rw [hread, FileTree.read_eq_path_iff, ne_eq, Path.error?_display_eq_none_iff]

/-- Loading gives a file or a failure of the path unless the text is no path, or the file has a
literal that stands for nothing. -/
theorem load_cases (tree : FileTree) (path : Text) :
    ((∃ file, load tree path = .ok file) ∨
        ∃ cause, load tree path = .error (.failure ⟨path, cause⟩)) ↔
      Path.IsEncodable path ∧ ¬ HoldsValueless tree path := by
  have hpath : Path.IsEncodable path ↔ ¬ ∃ error, load tree path = .error (.path error) := by
    rw [load_path_iff, not_not]
  rw [hpath, ← load_literal_iff]
  cases hload : load tree path with
  | ok file => simp
  | error error =>
      obtain ⟨cause, rfl⟩ | ⟨fault, rfl, -⟩ | ⟨cause, text, rfl, -⟩ := load_eq_error hload <;> simp

/-- A file is loaded, or it fails with a failure of its path, exactly when the path is one and the
file holds no literal that stands for nothing. A path is any text without null characters and
without surrogates other than those for single bytes. Several files are all loaded, or loading them
fails with a failure of one of the paths, exactly when this is so for every path while the files
before it are loaded. -/
theorem load_ok_or_failure_iff (tree : FileTree) :
    (∀ path, ((∃ file, load tree path = .ok file) ∨
        ∃ cause, load tree path = .error (.failure ⟨path, cause⟩)) ↔
      Path.IsEncodable path ∧ ¬ HoldsValueless tree path) ∧
    ∀ paths, ((∃ files, loadAll tree paths = .ok files) ∨
        ∃ path ∈ paths, ∃ cause, loadAll tree paths = .error (.failure ⟨path, cause⟩)) ↔
      ∀ before path after, paths = before ++ path :: after →
        (∀ earlier ∈ before, ∃ file, load tree earlier = .ok file) →
        Path.IsEncodable path ∧ ¬ HoldsValueless tree path := by
  refine ⟨load_cases tree, fun paths => ⟨fun h before path after hpaths hbefore => ?_, ?_⟩⟩
  · refine (load_cases tree path).mp ?_
    cases hload : load tree path with
    | ok file => exact .inl ⟨file, rfl⟩
    | error error =>
        have hfails : loadAll tree paths = .error error :=
          loadAll_eq_error_iff.mpr ⟨before, path, after, hpaths, hbefore, hload⟩
        rcases h with ⟨files, hfiles⟩ | ⟨other, -, cause, hcause⟩
        · exact ok_error_elim hfiles hfails
        · obtain rfl := Except.error.inj (hfails.symm.trans hcause)
          obtain rfl := path_of_load_eq_failure hload
          exact .inr ⟨cause, rfl⟩
  · intro h
    cases hall : loadAll tree paths with
    | ok files => exact .inl ⟨files, rfl⟩
    | error error =>
        -- The first path whose file is not loaded decides.
        obtain ⟨before, path, after, rfl, hbefore, hload⟩ := loadAll_eq_error_iff.mp hall
        rcases (load_cases tree path).mpr (h before path after rfl hbefore) with
          ⟨file, hfile⟩ | ⟨cause, hcause⟩
        · exact ok_error_elim hfile hload
        · obtain rfl := Except.error.inj (hload.symm.trans hcause)
          exact .inr ⟨path, by simp, cause, rfl⟩

/-- A tree with one schema file. -/
def oneFile (text : Text) : FileTree :=
  { nodes := [(["a.proto"], .file (Utf8.encode text))] }

/-- A number that is none, an escape above the last code point and a null character in the path are
errors of their own, not failures of the path. -/
theorem load_valueless :
    load (oneFile "option o = 1x;") "a.proto" = .error (.literal (.notNumeric "1x")) ∧
      load (oneFile "option o = \"\\U00110000\";") "a.proto" =
        .error (.literal (.escape ⟨0x110000⟩)) ∧
      load (oneFile []) "\x00" = .error (.path .nullCharacter) ∧
      ¬ ∀ tree path, (∃ file, load tree path = .ok file) ∨
        ∃ cause, load tree path = .error (.failure ⟨path, cause⟩) := by
  have hnumber : load (oneFile "option o = 1x;") "a.proto" =
      .error (.literal (.notNumeric "1x")) := by
    have hread : readText (oneFile "option o = 1x;") "a.proto" = .ok "option o = 1x;" := by
      decide +kernel
    have hparse : parse "option o = 1x;" "a.proto" = .error (.notNumeric "1x") := by cbv
    rw [load, hread]
    dsimp only
    rw [hparse]
    rfl
  have hescape : load (oneFile "option o = \"\\U00110000\";") "a.proto" =
      .error (.literal (.escape ⟨0x110000⟩)) := by
    have hread : readText (oneFile "option o = \"\\U00110000\";") "a.proto" =
        .ok "option o = \"\\U00110000\";" := by
      decide +kernel
    have hscan : Lexer.scan "option o = \"\\U00110000\";" = .error ⟨0x110000⟩ := by
      decide +kernel
    rw [load, hread]
    dsimp only
    rw [parse, hscan]
    rfl
  refine ⟨hnumber, hescape, rfl, fun h => ?_⟩
  rcases h (oneFile "option o = 1x;") "a.proto" with ⟨file, hfile⟩ | ⟨cause, hcause⟩
  · exact ok_error_elim hfile hnumber
  · rw [hnumber] at hcause
    cases hcause

end File

end ProtoSchema
