import ProtoSchema.Proofs.Parser.Depth
import ProtoSchema.Proofs.Parser.Message
import ProtoSchema.Proofs.Parser.Places

/-!
# What a parse goes on with

`Continues parse written next following` says that the parse reads the lexemes `written` and then
does what `next` does with what follows. `Reads` is the case in which nothing is left to do. Parses
of two inputs are `Alike` if both fail or both give the same value and leave the same lexemes. Main
statement: `Alike.of_continues`. A parse treats two inputs alike if it goes on with the same parse
in both, and what follows is the same.
-/

namespace ProtoSchema.Parse

variable {α β γ : Type}

/-- The parse reads these lexemes in front of what follows, and then it succeeds as `next` does. -/
def Continues (parse : Parse α) (written : List Lexeme) (next : Parse α)
    (following : List Lexeme) : Prop :=
  ∀ tokens : List Token, tokens.map Token.lexeme = written ++ following →
    ∃ rest, rest.map Token.lexeme = following ∧ (parse tokens).toOption = (next rest).toOption

/-- A chain succeeds if its first parse does and the next one does from there. -/
theorem toOption_bind (parse : Parse α) (next : α → Parse β) (tokens : List Token) :
    ((parse >>= next) tokens).toOption =
      (parse tokens).toOption.bind fun found => (next found.1 found.2).toOption := by
  cases h : parse tokens with
  | error fault =>
      rw [bind_of_error h]
      rfl
  | ok found =>
      rw [bind_of_ok h]
      rfl

/-- What is read is read, and nothing is left to do. -/
theorem Reads.continues {parse : Parse α} {written following : List Lexeme} {value : α}
    (h : Reads parse written value following) :
    Continues parse written (Pure.pure value) following := by
  intro tokens htokens
  obtain ⟨rest, hrest, hparse⟩ := h tokens htokens
  exact ⟨rest, hrest, congrArg Except.toOption hparse⟩

namespace Continues

variable {parse other : Parse α} {next : α → Parse β} {last : Parse β}
variable {written first second following : List Lexeme} {value : α}

/-- A parse that has read nothing goes on with itself. -/
theorem refl (parse : Parse α) (following : List Lexeme) : Continues parse [] parse following :=
  fun tokens htokens => ⟨tokens, htokens, rfl⟩

/-- A parse goes on with what the parse that it goes on with goes on with. -/
theorem trans {third : Parse α} (hfirst : Continues parse first other (second ++ following))
    (hsecond : Continues other second third following) :
    Continues parse (first ++ second) third following := by
  intro tokens htokens
  rw [List.append_assoc] at htokens
  obtain ⟨middle, hmiddle, hparse⟩ := hfirst tokens htokens
  obtain ⟨rest, hrest, hother⟩ := hsecond middle hmiddle
  exact ⟨rest, hrest, hparse.trans hother⟩

/-- A parse that does the same as another one at once goes on with what the other one does. -/
theorem nothing (hparse : Continues parse [] other (written ++ following))
    {third : Parse α} (hother : Continues other written third following) :
    Continues parse written third following :=
  trans hparse hother

/-- In a chain, what comes later stays to be done. -/
theorem bind (h : Continues parse written other following) (next : α → Parse β) :
    Continues (parse >>= next) written (other >>= next) following := by
  intro tokens htokens
  obtain ⟨rest, hrest, hparse⟩ := h tokens htokens
  exact ⟨rest, hrest, by rw [toOption_bind, hparse, toOption_bind]⟩

/-- A chain reads what its first parse reads, and goes on with the next one. -/
theorem after (h : Reads parse written value following) :
    Continues (parse >>= next) written (next value) following :=
  h.continues.bind next

/-- A chain reads what its first parse reads and then what the next one does. -/
theorem read (hfirst : Reads parse first value (second ++ following))
    (hnext : Continues (next value) second last following) :
    Continues (parse >>= next) (first ++ second) last following :=
  trans (after hfirst) hnext

/-- A chain that starts with a parse of one lexeme. -/
theorem cons {lexeme : Lexeme} (hfirst : Reads parse [lexeme] value (written ++ following))
    (hnext : Continues (next value) written last following) :
    Continues (parse >>= next) (lexeme :: written) last following :=
  read hfirst hnext

/-- A look at the kind of the next lexeme reads nothing. -/
theorem peekKind {next : Option TokenKind → Parse β}
    (h : Continues (next ((written ++ following).head?.map Lexeme.kind)) written last following) :
    Continues (Parse.peekKind >>= next) written last following := by
  intro tokens htokens
  obtain ⟨rest, hrest, hresult⟩ := h tokens htokens
  refine ⟨rest, hrest, ?_⟩
  rw [← htokens, List.head?_map, Option.map_map] at hresult
  exact hresult

/-- What goes on with a refusal may read less than it does. -/
theorem refuse {cause : Refusal} (h : ∀ tokens, tokens.map Token.lexeme = written ++ following →
    (parse tokens).toOption = none) : Continues parse written (Parse.refuse cause) following := by
  intro tokens htokens
  obtain ⟨taken, rest, rfl, -, hrest⟩ := List.map_eq_append_iff.mp htokens
  exact ⟨rest, hrest, h _ htokens⟩

end Continues

/-! ### Numbers -/

/-- The parse for the integer that a literal spells. A literal that spells none is refused. -/
def withInteger (spelling : Text) (next : Int → Parse α) : Parse α :=
  match Integer.ofLiteral? spelling with
  | some value => next value
  | none => refuse .invalidInteger

/-- After a number literal, a chain goes on with its value. -/
theorem Continues.integer {next other : Int → Parse β} {spelling : Text}
    {written following : List Lexeme}
    (hnext : ∀ value, Continues (next value) written (other value) following) :
    Continues (Parse.integer >>= next) (.number spelling :: written) (withInteger spelling other)
      following := by
  cases hspelling : Integer.ofLiteral? spelling with
  | some value =>
      rw [withInteger, hspelling]
      exact .cons (.integerOf hspelling _) (hnext value)
  | none =>
      rw [withInteger, hspelling]
      refine .refuse fun tokens htokens => ?_
      obtain ⟨token, rest, rfl, hlexeme, -⟩ := List.map_eq_cons_iff.mp htokens
      rw [toOption_bind, integer_of_none hlexeme hspelling]
      rfl

/-- Behind a place for a number, a parse goes on with the number that a literal spells. -/
theorem TakesNumber.continues {parse : Parse β} {front : List Lexeme} {next other : Int → Parse β}
    (h : TakesNumber parse front next) {spelling : Text} {written following : List Lexeme}
    (hnext : ∀ value, Continues (next value) written (other value) following) :
    Continues parse (front ++ .number spelling :: written) (withInteger spelling other)
      following := by
  refine .trans (fun tokens htokens => ?_) (.integer hnext)
  obtain ⟨rest, hrest, hparse⟩ := h _ tokens htokens
  exact ⟨rest, hrest, congrArg Except.toOption hparse⟩

/-! ### Loops -/

/-- In front of an item, the loop parses the item and goes on. -/
def Repeats (loop : Parse β) (item : Parse α) (add : α → β → β) : Prop :=
  ∀ following, StartsItem following → Continues loop []
    (item >>= fun first => loop >>= fun others => pure (add first others)) following

/-- What starts an item starts an item, whatever comes after it. -/
theorem StartsItem.append {written : List Lexeme} (h : StartsItem written)
    (following : List Lexeme) : StartsItem (written ++ following) := by
  cases written with
  | nil => exact h.elim
  | cons lexeme written => exact h

section

variable {loop : Parse β} {item : Parse α} {add : α → β → β}

/-- A loop reads what its item reads, and goes on with the item and then with itself. -/
theorem Repeats.round (hloop : Repeats loop item add) {next : Parse α}
    {written following : List Lexeme} (hstarts : StartsItem written)
    (h : Continues item written next following) :
    Continues loop written (next >>= fun first => loop >>= fun others => pure (add first others))
      following :=
  .nothing (hloop _ (hstarts.append _)) (h.bind _)

/-- A loop reads items and goes on. -/
theorem Repeats.continues (hloop : Repeats loop item add) {written : List Lexeme} {values : List α}
    (h : ReadsEach item written values) (following : List Lexeme) :
    Continues loop written (loop >>= fun others => pure (values.foldr add others)) following := by
  induction h with
  | nil => simpa only [List.foldr_nil, bind_pure] using Continues.refl loop following
  | @cons first rest value values hstarts hfirst _ ih =>
      have hround : Continues loop first (loop >>= fun others => pure (add value others))
          (rest ++ following) :=
        hloop.round hstarts (hfirst _).continues
      have hlater := ih.bind fun others => pure (add value others)
      simp only [bind_assoc, pure_bind] at hlater
      exact .trans hround hlater

/-- A loop on fuel goes on in front of an item if no item starts with what stops it. -/
theorem Rounds.repeats {run : Nat → Parse β} {ahead : Parse γ} {stops : γ → Bool} {last : β}
    (hrun : Rounds run ahead stops item add last) (hahead : LeftToRight ahead)
    (htakes : Takes item)
    (hgoesOn : ∀ token tokens, token.lexeme ≠ .punctuation .rightBrace →
      ∃ seen, ahead (token :: tokens) = .ok (seen, token :: tokens) ∧ stops seen = false) :
    Repeats (get >>= fun tokens => run tokens.length) item add := by
  intro following hstarts tokens htokens
  refine ⟨tokens, htokens, congrArg Except.toOption ?_⟩
  cases tokens with
  | nil =>
      obtain rfl : following = [] := htokens.symm
      exact hstarts.elim
  | cons token tokens =>
      obtain ⟨lexemes, rfl⟩ : ∃ lexemes, following = token.lexeme :: lexemes := ⟨_, htokens.symm⟩
      obtain ⟨seen, hseen, hstops⟩ := hgoesOn token tokens hstarts
      conv_lhs => rw [hrun.loop_eq hahead htakes]
      rw [bind_of_ok hseen, hstops, if_neg Bool.false_ne_true]

/-- Items are repeated up to a closing brace. -/
theorem repeats_items (htakes : Takes item) : Repeats (items item) item List.cons := by
  refine (untilBrace_rounds item).repeats .peekKind htakes fun token tokens htoken => ?_
  have hkind : token.lexeme.kind ≠ .punctuation .rightBrace :=
    fun hkind => htoken (Lexeme.eq_punctuation_of_kind hkind)
  exact ⟨some token.lexeme.kind, rfl, by simp [hkind]⟩

/-- The body of a message repeats its statements, whose members it puts together. -/
theorem repeats_messageBody : Repeats messageBody (bodyStatement messageBody) (· ++ ·) := by
  have hconcat (first : Members) (others : List Members) :
      Members.concat (first :: others) = first ++ Members.concat others := rfl
  have hitems := repeats_items (LeftToRight.takes_bodyStatement .messageBody)
  intro following hstarts
  have h := (hitems following hstarts).bind fun parts => pure (Members.concat parts)
  rw [← Rules.messageBody_eq] at h
  simp only [bind_assoc, pure_bind, hconcat] at h
  have hbody (first : Members) : (messageBody >>= fun others => pure (first ++ others)) =
      items (bodyStatement messageBody) >>= fun others =>
        pure (first ++ Members.concat others) := by
    conv_lhs => rw [Rules.messageBody_eq]
    simp only [bind_assoc, pure_bind]
  simp only [hbody]
  exact h

/-- A file repeats its statements. -/
theorem repeats_statements :
    Repeats statements statement fun first others => first.toList ++ others :=
  (statementsWithin_rounds _).repeats .peek LeftToRight.takes_statement
    fun token _ _ => ⟨some token.lexeme, rfl, rfl⟩

end

/-! ### Inputs that are parsed alike -/

/-- An outcome without the places of what is left and without the cause of a failure. -/
def outcome (result : Except Fault (α × List Token)) : Option (α × List Lexeme) :=
  result.toOption.map fun found => (found.1, found.2.map Token.lexeme)

/-- Wherever the lexemes stand, the parse fails on both inputs, or it gives the same value and
leaves the same lexemes. -/
def Alike (parse : Parse α) (first second : List Lexeme) : Prop :=
  ∀ tokens others : List Token, tokens.map Token.lexeme = first →
    others.map Token.lexeme = second → outcome (parse tokens) = outcome (parse others)

/-- What a parse from left to right makes of some tokens is what it reads in their lexemes. -/
theorem LeftToRight.reads {parse : Parse α} (hparse : LeftToRight parse)
    {tokens rest : List Token} {value : α} {written : List Lexeme}
    (h : parse tokens = .ok (value, rest))
    (htokens : tokens.map Token.lexeme = written ++ rest.map Token.lexeme) :
    Reads parse written value (rest.map Token.lexeme) :=
  fun _ hlike => hparse.ok_of_sameLexemes (hlike.trans htokens.symm) h

/-- A parse from left to right does not see the places of its tokens. -/
theorem LeftToRight.alike {parse : Parse α} (hparse : LeftToRight parse) (lexemes : List Lexeme) :
    Alike parse lexemes lexemes := by
  have hok {tokens like rest : List Token} {value : α} (hlike : SameLexemes like tokens)
      (h : parse tokens = .ok (value, rest)) : outcome (parse tokens) = outcome (parse like) := by
    obtain ⟨others, hothers, hvalue⟩ := hparse.ok_of_sameLexemes hlike h
    rw [h, hvalue]
    exact congrArg (fun left => some (value, left)) hothers.symm
  intro tokens others htokens hothers
  have hsame : SameLexemes tokens others := htokens.trans hothers.symm
  cases hfirst : parse tokens with
  | ok found => rw [← hfirst, hok hsame.symm hfirst]
  | error fault =>
      cases hsecond : parse others with
      | ok found => rw [← hfirst, ← hsecond, hok hsame hsecond]
      | error other => rfl

namespace Alike

variable {parse next : Parse α} {further : α → Parse β} {first second : List Lexeme}

/-- Chains treat inputs alike if their first parses do. -/
theorem bind (h : Alike parse first second) (hfurther : ∀ value, LeftToRight (further value)) :
    Alike (parse >>= further) first second := by
  intro tokens others htokens hothers
  have hparse := h tokens others htokens hothers
  cases hfirst : parse tokens with
  | error fault =>
      cases hsecond : parse others with
      | error other => rw [bind_of_error hfirst, bind_of_error hsecond]; rfl
      | ok found => rw [hfirst, hsecond] at hparse; cases hparse
  | ok found =>
      cases hsecond : parse others with
      | error other => rw [hfirst, hsecond] at hparse; cases hparse
      | ok other =>
          rw [hfirst, hsecond] at hparse
          obtain ⟨hvalue, hleft⟩ := Prod.mk.inj (Option.some.inj hparse)
          obtain ⟨value, rest⟩ := found
          obtain ⟨same, left⟩ := other
          obtain rfl : value = same := hvalue
          rw [bind_of_ok hfirst, bind_of_ok hsecond]
          exact (hfurther value).alike _ rest left rfl hleft.symm

/-- Inputs are treated alike if the parse goes on alike in both. -/
theorem of_continues {written other : List Lexeme}
    (hfirst : Continues parse written next first) (hsecond : Continues parse other next second)
    (hnext : Alike next first second) : Alike parse (written ++ first) (other ++ second) := by
  intro tokens others htokens hothers
  obtain ⟨rest, hrest, hparse⟩ := hfirst tokens htokens
  obtain ⟨left, hleft, hother⟩ := hsecond others hothers
  rw [outcome, hparse, outcome, hother]
  exact hnext rest left hrest hleft

/-- A parse that fails on all inputs treats them alike. -/
theorem refuse (cause : Refusal) (first second : List Lexeme) :
    Alike (Parse.refuse cause : Parse α) first second :=
  fun _ _ _ _ => rfl

end Alike

end ProtoSchema.Parse
