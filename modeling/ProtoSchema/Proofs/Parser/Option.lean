import ProtoSchema.Parser.Option
import ProtoSchema.Proofs.Parser.Reads
import ProtoSchema.Proofs.Schema.Lexemes

/-!
# Reading options

Every option that can be written is read back: as a statement (`Reads.optionStatement`) and between
the brackets after a field (`Reads.bracketOptions`). Adjacent strings are joined and a further part
of a name is taken where there is one, so the rules for constants and names say what must not
follow.
-/

namespace ProtoSchema

namespace Parse

variable {following : List Lexeme}

/-- The lexemes do not go on with a string. -/
def NoString (following : List Lexeme) : Prop :=
  ∀ value, following.head? ≠ some (.string value)

/-- A mark is no string. -/
theorem NoString.mark (mark : Punctuation) (following : List Lexeme) :
    NoString (.punctuation mark :: following) :=
  fun _ h => Lexeme.noConfusion (Option.some.inj h)

/-- Behind a setting there is a mark, whether or not further settings follow. -/
theorem NoString.further (settings : List OptionSetting) (following : List Lexeme) :
    NoString
      (OptionSetting.furtherLexemes settings ++ .punctuation .rightBracket :: following) := by
  cases settings with
  | nil => exact NoString.mark .rightBracket _
  | cons next rest => exact NoString.mark .comma _

/-- Strings are joined up to what is none. -/
theorem joinStrings_of_noString {tokens rest : List Token} {values : List Text}
    (hvalues : tokens.map Token.lexeme = values.map .string)
    (hrest : NoString (rest.map Token.lexeme)) :
    joinStrings (tokens ++ rest) = (values.flatten, rest) := by
  induction tokens generalizing values with
  | nil =>
      obtain rfl := List.map_eq_nil_iff.mp hvalues.symm
      cases rest with
      | nil => rfl
      | cons next rest =>
          rw [List.nil_append, joinStrings]
          split
          next other hother => exact absurd (congrArg some hother) (hrest other)
          next => rfl
  | cons token tokens ih =>
      obtain ⟨value, values, rfl, hvalue, hvalues⟩ := List.map_eq_cons_iff.mp hvalues.symm
      rw [List.cons_append, joinStrings, ← hvalue, ih hvalues.symm]
      rfl

namespace Reads

/-- Strings in a row are read as one text, unless a string follows. -/
theorem strings {values : List Text} (hvalues : values ≠ []) (hfollowing : NoString following) :
    Reads Parse.constant (values.map .string) (.text values.flatten) following := by
  intro tokens htokens
  obtain ⟨strings, rest, rfl, hstrings, rfl⟩ := List.map_eq_append_iff.mp htokens
  refine ⟨rest, rfl, ?_⟩
  have hjoin := joinStrings_of_noString hstrings hfollowing
  cases strings with
  | nil => exact absurd (List.map_eq_nil_iff.mp hstrings.symm) hvalues
  | cons first strings =>
      obtain ⟨value, values, rfl, hfirst, -⟩ := List.map_eq_cons_iff.mp hstrings.symm
      rw [List.cons_append, Parse.constant, ← hfirst]
      dsimp only
      rw [← List.cons_append, hjoin]

/-- The literal of an integer is read as the value of an option. -/
theorem constant_integer {spelling : Text} {value : Int}
    (h : Integer.ofLiteral? spelling = some value) (following : List Lexeme) :
    Reads Parse.constant [.number spelling] (.integer value) following := by
  intro tokens htokens
  obtain ⟨token, rest, rfl, htoken, hrest⟩ := List.map_eq_cons_iff.mp htokens
  refine ⟨rest, hrest, ?_⟩
  rw [Parse.constant, htoken]
  dsimp only
  rw [numberConstant?, h]

/-- A constant that can be written is read back, unless a string follows. -/
theorem constant {value : Constant} (h : value.Printable) (hfollowing : NoString following) :
    Reads Parse.constant [value.lexeme] value following := by
  cases value with
  | bool value =>
      intro tokens htokens
      obtain ⟨token, rest, rfl, htoken, hrest⟩ := List.map_eq_cons_iff.mp htokens
      refine ⟨rest, hrest, ?_⟩
      rw [Parse.constant, htoken]
      cases value <;> rfl
  | integer value => exact constant_integer (Integer.ofLiteral?_numeral h) following
  | float value => exact h.elim
  | text value =>
      have hstrings := strings (List.cons_ne_nil value []) hfollowing
      rwa [List.flatten_cons, List.flatten_nil, List.append_nil] at hstrings

/-- No further part of an option name is read where none follows. -/
theorem optionSubname_nil
    (h : ∀ word, following.head? = some (.identifier word) → word.head? ≠ some '.') :
    Reads optionSubname [] [] following := by
  refine Reads.peek ?_
  split
  next word hword =>
    rw [if_neg (h word hword)]
    exact Reads.pure [] following
  next => exact Reads.pure [] following

/-- A further part of an option name is read where one follows. -/
theorem optionSubname {word : Text} (h : word.head? = some '.') (following : List Lexeme) :
    Reads Parse.optionSubname [.identifier word] word following := by
  refine Reads.peek ?_
  show Reads (if word.head? = some '.' then _ else _) _ _ _
  rw [if_pos h]
  exact Reads.cons (Reads.skip _ _) (Reads.pure word following)

/-- The name of an option is read back in front of an equals sign. -/
theorem optionName {name : Text} (h : IsOptionName name) (following : List Lexeme) :
    Reads Parse.optionName name.lexemes name (.punctuation .equals :: following) := by
  rcases h with hname | ⟨extension, subname, hextension, hsubname, rfl⟩
  · rw [Text.lexemes_of_isName hname]
    refine Reads.peekKind ?_
    show Reads (if some (Lexeme.ofWord name).kind = some (.punctuation .leftParen) then _ else _)
      _ _ _
    rw [if_neg fun h => Lexeme.kind_ofWord_ne name _ (Option.some.inj h)]
    exact Reads.name name _
  · have hchain {found : List Lexeme} (hfound : Lexer.lexemes subname = .ok found)
        (hread : Reads Parse.optionSubname found subname (.punctuation .equals :: following)) :
        Reads Parse.optionName (extensionName extension subname).lexemes
          (extensionName extension subname) (.punctuation .equals :: following) := by
      rw [Text.lexemes_extensionName hextension hfound]
      refine Reads.peekKind (Reads.cons (Reads.skip _ _) ?_)
      exact Reads.cons (Reads.expect rfl _) (Reads.cons (Reads.mark .rightParen _)
        (Reads.wrap hread fun subname => extensionName extension subname))
    rcases hsubname with rfl | ⟨hsubname, hdot⟩
    · exact hchain Lexer.lexemes_nil (optionSubname_nil fun word hword => by simp at hword)
    · exact hchain hsubname (optionSubname hdot _)

/-- An option is read back, unless a string follows. -/
theorem optionSetting {setting : OptionSetting} (h : setting.Printable)
    (hfollowing : NoString following) :
    Reads Parse.optionSetting setting.lexemes setting following := by
  refine Reads.bind (optionName h.name _) ?_
  refine Reads.cons (Reads.mark .equals _) ?_
  exact Reads.wrap (constant h.value hfollowing) (OptionSetting.mk setting.name)

/-- An option statement is read back. -/
theorem optionStatement {setting : OptionSetting} (h : setting.Printable)
    (following : List Lexeme) :
    Reads Parse.optionStatement setting.statement setting following := by
  refine Reads.cons (Reads.keyword .option _) ?_
  refine Reads.bind (optionSetting h (NoString.mark .semicolon _)) ?_
  exact Reads.cons (Reads.mark .semicolon _) (Reads.pure setting following)

/-- Further settings are read back in front of a closing bracket. -/
theorem moreSettings {settings : List OptionSetting}
    (h : ∀ setting ∈ settings, setting.Printable) {fuel : Nat} (hfuel : settings.length ≤ fuel)
    (following : List Lexeme) :
    Reads (Parse.moreSettings fuel) (OptionSetting.furtherLexemes settings) settings
      (.punctuation .rightBracket :: following) := by
  induction settings generalizing fuel with
  | nil =>
      cases fuel with
      | zero => exact Reads.pure [] _
      | succ fuel => exact Reads.peekKind (Reads.pure [] _)
  | cons first rest ih =>
      obtain ⟨hfirst, hrest⟩ := List.forall_mem_cons.mp h
      cases fuel with
      | zero => exact absurd hfuel (by simp)
      | succ fuel =>
          refine Reads.peekKind (Reads.cons (Reads.skip _ _) ?_)
          refine Reads.bind (optionSetting hfirst (NoString.further rest _)) ?_
          exact Reads.wrap (ih hrest (Nat.le_of_succ_le_succ hfuel)) (first :: ·)

/-- Every further setting has a lexeme. -/
theorem length_le_furtherLexemes (settings : List OptionSetting) :
    settings.length ≤ (OptionSetting.furtherLexemes settings).length := by
  induction settings with
  | nil => exact Nat.le_refl 0
  | cons first rest ih =>
      simp only [OptionSetting.furtherLexemes, List.flatMap_cons, List.length_append,
        List.length_cons] at ih ⊢
      omega

/-- The options of a field are read back in front of a semicolon. -/
theorem bracketOptions {settings : List OptionSetting}
    (h : ∀ setting ∈ settings, setting.Printable) (following : List Lexeme) :
    Reads Parse.bracketOptions (OptionSetting.bracketed settings) settings
      (.punctuation .semicolon :: following) := by
  cases settings with
  | nil => exact Reads.peekKind (Reads.pure [] _)
  | cons first rest =>
      obtain ⟨hfirst, hrest⟩ := List.forall_mem_cons.mp h
      refine Reads.peekKind (Reads.cons (Reads.skip _ _) ?_)
      have hnext := NoString.further rest (.punctuation .semicolon :: following)
      rw [List.append_cons] at hnext
      refine Reads.bind (optionSetting hfirst hnext) ?_
      refine Reads.input fun tokens htokens => ?_
      have hlength := length_le_of_input htokens
      rw [List.length_append] at hlength
      have hfuel : rest.length ≤ tokens.length := by
        have hfurther := length_le_furtherLexemes rest
        omega
      refine Reads.bind (moreSettings hrest hfuel _) ?_
      exact Reads.cons (Reads.mark .rightBracket _) (Reads.pure (first :: rest) _)

end Reads

end Parse

end ProtoSchema
