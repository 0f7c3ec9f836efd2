import ProtoSchema.Proofs.Parser.Lookahead

/-!
# Refusals

A parse that is refused reports one entry of its input, a token or the end
(`Statement.IsRefusedAt`). Which entry it is, and what is wrong with it, depends on the input up to
the entry after it and on nothing further on: `Statement.isRefusedAt_of_take_eq`. A parse can stop
in one other way, at a number without a value (`Statement.ofTokens_notNumeric_iff`).
-/

namespace ProtoSchema

/-- The tokens of a text and the place where it ends, as one list. The end has no lexeme. -/
def Token.withEnd (tokens : List Token) (stop : Position) : List (Option Lexeme × Position) :=
  tokens.map (fun token => (some token.lexeme, token.position)) ++ [(none, stop)]

namespace Token

variable {tokens other taken rest : List Token} {stop otherStop : Position}

/-- Tokens come before the end. -/
theorem withEnd_cons (token : Token) (rest : List Token) (stop : Position) :
    withEnd (token :: rest) stop = (some token.lexeme, token.position) :: withEnd rest stop :=
  rfl

/-- What is left of the input after some tokens ends where the input ends. -/
theorem withEnd_append (taken rest : List Token) (stop : Position) :
    withEnd (taken ++ rest) stop =
      taken.map (fun token => (some token.lexeme, token.position)) ++ withEnd rest stop := by
  rw [withEnd, withEnd, List.map_append, List.append_assoc]

/-- The entry after some tokens is the first of the rest, or the end. -/
theorem getElem?_withEnd (taken rest : List Token) (stop : Position) :
    (withEnd (taken ++ rest) stop)[taken.length]? =
      some (rest.head?.map lexeme, (rest.head?.map position).getD stop) := by
  rw [withEnd_append, List.getElem?_append_right (by simp), List.length_map, Nat.sub_self]
  cases rest <;> rfl

/-- Inputs with the same first entries start with the same tokens, and go on with the same entries.
-/
theorem exists_append_of_take_eq {count : Nat}
    (h : (withEnd other otherStop).take (taken.length + count) =
      (withEnd (taken ++ rest) stop).take (taken.length + count)) :
    ∃ following, other = taken ++ following ∧
      (withEnd following otherStop).take count = (withEnd rest stop).take count := by
  induction taken generalizing other with
  | nil =>
      rw [List.length_nil, Nat.zero_add] at h
      exact ⟨other, rfl, h⟩
  | cons token taken ih =>
      rw [List.length_cons, Nat.succ_add, List.cons_append, withEnd_cons, List.take_succ_cons] at h
      cases other with
      | nil => cases h
      | cons head other =>
          rw [withEnd_cons, List.take_succ_cons, List.cons.injEq] at h
          obtain ⟨hhead, htail⟩ := h
          obtain ⟨following, rfl, hfollowing⟩ := ih htail
          obtain ⟨lexeme, position⟩ := head
          obtain ⟨rfl, rfl⟩ : lexeme = token.lexeme ∧ position = token.position := by
            simpa using hhead
          exact ⟨following, rfl, hfollowing⟩

/-- Inputs with the same next two entries have the same next two lexemes, and report the same
entry next. -/
theorem of_take_two_eq
    (h : (withEnd other otherStop).take 2 = (withEnd tokens stop).take 2) :
    SameLexemes (other.take 2) (tokens.take 2) ∧ ∀ cause,
      ParseError.ofFault otherStop (.refused cause other) =
        ParseError.ofFault stop (.refused cause tokens) := by
  rcases tokens with _ | ⟨first, _ | ⟨second, tokens⟩⟩ <;>
    rcases other with _ | ⟨head, _ | ⟨next, other⟩⟩ <;>
      simp_all [withEnd, SameLexemes, ParseError.ofFault]

end Token

namespace Statement

/-- The statements that tokens spell are those of their parse, which leaves nothing. -/
theorem ofTokens_eq_ok_iff {tokens : List Token} {found : List Statement} :
    Statement.ofTokens tokens = .ok found ↔ Parse.statements tokens = .ok (found, []) := by
  constructor
  · intro h
    obtain ⟨⟨parsed, rest⟩, hparsed, rfl⟩ := map_eq_ok_iff.mp h
    obtain rfl := Parse.statements_rest hparsed
    exact hparsed
  · exact fun h => map_eq_ok_iff.mpr ⟨_, h, rfl⟩

/-- Statements are refused with the fault of their parse. -/
theorem ofTokens_eq_error_iff {tokens : List Token} {fault : Fault} :
    Statement.ofTokens tokens = .error fault ↔ Parse.statements tokens = .error fault :=
  map_eq_error_iff

/-- Statements stop at a number without a value exactly when the tokens before it ask for a
constant. -/
theorem ofTokens_notNumeric_iff {tokens : List Token} {spelling : Text} :
    Statement.ofTokens tokens = .error (.notNumeric spelling) ↔
      ∃ before token after, tokens = before ++ token :: after ∧ token.lexeme = .number spelling ∧
        Parse.numberConstant? spelling = none ∧
        Statement.ofTokens before = .error (.refused .expectedConstant []) := by
  constructor
  · intro h
    obtain ⟨before, token, after, htokens, hlexeme, hvalue, hasked⟩ :=
      Parse.LeftToRight.statements.notNumeric (ofTokens_eq_error_iff.mp h)
    exact ⟨before, token, after, htokens, hlexeme, hvalue, ofTokens_eq_error_iff.mpr hasked⟩
  · rintro ⟨before, token, after, rfl, hlexeme, hvalue, hasked⟩
    exact ofTokens_eq_error_iff.mpr
      (Parse.LeftToRight.statements.asked (ofTokens_eq_error_iff.mp hasked) hlexeme hvalue)

/-- The parse of these tokens, which end at `stop`, is refused with an error that reports the entry
of the input with this index. -/
inductive IsRefusedAt (tokens : List Token) (stop : Position) : Nat → ParseError → Prop
  | intro {cause : Refusal} {taken rest : List Token} (htokens : tokens = taken ++ rest)
      (h : Statement.ofTokens tokens = .error (.refused cause rest)) :
      IsRefusedAt tokens stop taken.length (.ofFault stop (.refused cause rest))

variable {tokens other : List Token} {stop otherStop : Position} {index : Nat} {error : ParseError}

/-- The error of a refusal shows the lexeme and the place of the entry that it reports. -/
theorem IsRefusedAt.reports (h : IsRefusedAt tokens stop index error) :
    ∃ cause found position, error = .refused cause found position ∧
      (Token.withEnd tokens stop)[index]? = some (found, position) := by
  cases h with
  | @intro cause taken rest htokens _ =>
      exact ⟨cause, _, _, rfl, htokens ▸ Token.getElem?_withEnd taken rest stop⟩

/-- A refused parse is refused at a token of its input or at its end. -/
theorem isRefusedAt_of_refused {cause : Refusal} {rest : List Token}
    (h : Statement.ofTokens tokens = .error (.refused cause rest)) (stop : Position) :
    ∃ index, IsRefusedAt tokens stop index (.ofFault stop (.refused cause rest)) := by
  obtain ⟨taken, htokens, -⟩ :=
    Parse.LeftToRight.statements.refused (ofTokens_eq_error_iff.mp h)
  exact ⟨taken.length, .intro htokens h⟩

/-- A refusal depends on the input up to the entry after the reported one. Any input with the same
entries up to there is refused with the same error, which reports the same entry. -/
theorem isRefusedAt_of_take_eq (h : IsRefusedAt tokens stop index error)
    (hsame : (Token.withEnd other otherStop).take (index + 2) =
      (Token.withEnd tokens stop).take (index + 2)) :
    IsRefusedAt other otherStop index error ∧
      ∃ cause found position, error = .refused cause found position ∧
        (Token.withEnd tokens stop)[index]? = some (found, position) ∧
        (Token.withEnd other otherStop)[index]? = some (found, position) := by
  have hother : IsRefusedAt other otherStop index error := by
    cases h with
    | @intro cause taken rest htokens hfault =>
        obtain ⟨start, hstart, hlike⟩ :=
          Parse.LeftToRight.statements.refused (ofTokens_eq_error_iff.mp hfault)
        obtain rfl := List.append_cancel_right (htokens.symm.trans hstart)
        obtain ⟨following, rfl, htwo⟩ := Token.exists_append_of_take_eq (htokens ▸ hsame)
        obtain ⟨hnext, herror⟩ := Token.of_take_two_eq htwo
        rw [← herror cause]
        exact .intro rfl (ofTokens_eq_error_iff.mpr (hlike taken following (.refl taken) hnext))
  obtain ⟨cause, found, position, rfl, hentry⟩ := h.reports
  obtain ⟨_, _, _, heq, hagain⟩ := hother.reports
  obtain ⟨rfl, rfl, rfl⟩ := ParseError.refused.inj heq
  exact ⟨hother, cause, found, position, rfl, hentry, hagain⟩

/-- The tokens of a message with the start of a field, which has the word for groups as its type. -/
def fieldOfGroup : List Token :=
  [⟨.keyword .message, ⟨1, 1⟩⟩, ⟨.identifier "M", ⟨1, 9⟩⟩, ⟨.punctuation .leftBrace, ⟨1, 11⟩⟩,
    ⟨.identifier "group", ⟨1, 13⟩⟩, ⟨.identifier "x", ⟨1, 19⟩⟩]

/-- No equals sign comes two tokens after the word for groups, so it starts no group, and the
bracket is refused whatever comes after the next token. -/
theorem isRefusedAt_of_take_eq_bracket :
    let bracket : List Token :=
      fieldOfGroup ++ [⟨.punctuation .rightBracket, ⟨1, 21⟩⟩, ⟨.punctuation .equals, ⟨1, 22⟩⟩]
    let ended : List Token :=
      bracket ++ [⟨.number "1", ⟨1, 24⟩⟩, ⟨.punctuation .semicolon, ⟨1, 25⟩⟩]
    let error : ParseError := .refused (.expected (.punctuation .equals))
      (some (.punctuation .rightBracket)) ⟨1, 21⟩
    IsRefusedAt ended ⟨1, 26⟩ 5 error ∧
      (Token.withEnd (bracket ++ bracket) ⟨2, 1⟩).take (5 + 2) =
        (Token.withEnd ended ⟨1, 26⟩).take (5 + 2) ∧
      IsRefusedAt (bracket ++ bracket) ⟨2, 1⟩ 5 error := by
  intro bracket ended error
  have hrefused : IsRefusedAt ended ⟨1, 26⟩ 5 error :=
    @IsRefusedAt.intro ended ⟨1, 26⟩ _ fieldOfGroup _ rfl rfl
  have hsame : (Token.withEnd (bracket ++ bracket) ⟨2, 1⟩).take (5 + 2) =
      (Token.withEnd ended ⟨1, 26⟩).take (5 + 2) := rfl
  exact ⟨hrefused, hsame, (isRefusedAt_of_take_eq hrefused hsame).1⟩

end Statement

end ProtoSchema
