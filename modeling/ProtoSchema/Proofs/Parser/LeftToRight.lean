import ProtoSchema.Parser.File
import ProtoSchema.Proofs.Outcome

/-!
# Parses from left to right

A parse of the grammar looks at the lexemes that it takes and at the next one or two, never at the
places of tokens nor at what stands further on. `LeftToRight` says so for each way a parse can end,
with one rule for each word of the parse vocabulary. A number literal without a value is met only
where the tokens before it ask for a constant, so `LeftToRight` also relates that fault to the parse
of the tokens before the literal. Loops run on fuel, and `Agree` says that enough of it changes
nothing, since every round takes a token (`Takes`).
-/

namespace ProtoSchema

/-- The tokens have the same lexemes, wherever they stand. -/
def SameLexemes (first second : List Token) : Prop :=
  first.map Token.lexeme = second.map Token.lexeme

namespace SameLexemes

variable {first second other third : List Token}

/-- Tokens have the same lexemes as themselves. -/
theorem refl (tokens : List Token) : SameLexemes tokens tokens := rfl

/-- Only the empty list has the lexemes of the empty list. -/
@[simp]
theorem nil_right : SameLexemes first [] ↔ first = [] :=
  List.map_eq_nil_iff

/-- Tokens with the same lexemes are as many. -/
theorem length_eq (h : SameLexemes first second) : first.length = second.length := by
  simpa using congrArg List.length h

/-- A token with the lexeme of the first one comes first. -/
theorem cons_right {token : Token} (h : SameLexemes first (token :: second)) :
    ∃ head tail, first = head :: tail ∧ head.lexeme = token.lexeme ∧ SameLexemes tail second := by
  cases first with
  | nil => exact absurd h (by simp [SameLexemes])
  | cons head tail =>
      obtain ⟨hhead, htail⟩ := List.cons.inj h
      exact ⟨head, tail, rfl, hhead, htail⟩

/-- Only a single token has the lexeme of a single token. -/
theorem singleton_right {token : Token} (h : SameLexemes first [token]) :
    ∃ head, first = [head] ∧ head.lexeme = token.lexeme := by
  obtain ⟨head, tail, rfl, hhead, htail⟩ := h.cons_right
  obtain rfl := nil_right.mp htail
  exact ⟨head, rfl, hhead⟩

/-- What has the lexemes of two parts consists of two such parts. -/
theorem append_right (h : SameLexemes first (second ++ third)) :
    ∃ left right, first = left ++ right ∧ SameLexemes left second ∧ SameLexemes right third := by
  rw [SameLexemes, List.map_append] at h
  exact List.map_eq_append_iff.mp h

/-- Parts with the same lexemes make wholes with the same lexemes. -/
theorem append {left right : List Token} (hfirst : SameLexemes first second)
    (hrest : SameLexemes left right) : SameLexemes (first ++ left) (second ++ right) := by
  rw [SameLexemes, List.map_append, List.map_append, hfirst, hrest]

/-- The first few of tokens with the same lexemes have the same lexemes. -/
theorem take (h : SameLexemes first second) (count : Nat) :
    SameLexemes (first.take count) (second.take count) := by
  rw [SameLexemes, List.map_take, List.map_take, h]

/-- Inputs that start alike and go on alike have the same next lexemes. -/
theorem take_append {left right : List Token} {count : Nat} (hfirst : SameLexemes first second)
    (hrest : SameLexemes (left.take count) (right.take count)) :
    SameLexemes ((first ++ left).take count) ((second ++ right).take count) := by
  have hfewer := congrArg (List.take (count - second.length)) hrest
  rw [List.map_take, List.map_take, List.take_take, List.take_take,
    Nat.min_eq_left (Nat.sub_le _ _), ← List.map_take, ← List.map_take] at hfewer
  rw [List.take_append, List.take_append, hfirst.length_eq]
  exact (hfirst.take count).append hfewer

/-- Inputs with the same next lexeme both end here or both go on with it. -/
theorem head_eq (h : SameLexemes (first.take 1) (second.take 1)) :
    first.head?.map Token.lexeme = second.head?.map Token.lexeme := by
  cases first <;> cases second <;> simp_all [SameLexemes]

/-- An input ends where another one with the same next lexemes does. -/
theorem ends {count : Nat}
    (h : SameLexemes (first.take (count + 1)) (([] : List Token).take (count + 1))) :
    first = [] := by
  simpa using h

/-- An input goes on with the lexeme that another one with the same next lexemes goes on with. -/
theorem goesOn {token : Token} {count : Nat}
    (h : SameLexemes (first.take (count + 1)) ((token :: second).take (count + 1))) :
    ∃ head tail, first = head :: tail ∧ head.lexeme = token.lexeme := by
  cases first with
  | nil => exact absurd h.symm (by simp)
  | cons head tail => exact ⟨head, tail, rfl, (List.cons.inj h).1⟩

/-- Inputs with the same next two lexemes have the same next one. -/
theorem take_one (h : SameLexemes (first.take 2) (second.take 2)) :
    SameLexemes (first.take 1) (second.take 1) := by
  have hone := congrArg (List.take 1) h
  rw [← List.map_take, ← List.map_take, List.take_take, List.take_take] at hone
  exact hone

end SameLexemes

namespace Parse

variable {α β : Type} {parse : Parse α} {next : α → Parse β}

/-- A chain goes on where its first parse stops. -/
theorem bind_of_ok {tokens rest : List Token} {value : α} (h : parse tokens = .ok (value, rest)) :
    (parse >>= next) tokens = next value rest := by
  show (parse tokens).bind _ = _
  rw [h]
  rfl

/-- A chain stops where its first parse fails. -/
theorem bind_of_error {tokens : List Token} {fault : Fault} (h : parse tokens = .error fault) :
    (parse >>= next) tokens = .error fault := by
  show (parse tokens).bind _ = _
  rw [h]
  rfl

/-- The parse asks for a constant at the end of its input, having taken nothing. -/
def AsksConstant (parse : Parse α) : Prop :=
  parse [] = .error (.refused .expectedConstant [])

/-- What the parse makes of its input depends only on the lexemes that it takes and on the next one,
or the next two if it refuses the next one. -/
structure LeftToRight (parse : Parse α) : Prop where
  ok {tokens rest : List Token} {value : α} (h : parse tokens = .ok (value, rest)) :
    ∃ taken, tokens = taken ++ rest ∧ ∀ like following, SameLexemes like taken →
      SameLexemes (following.take 1) (rest.take 1) →
      parse (like ++ following) = .ok (value, following)
  refused {tokens rest : List Token} {cause : Refusal}
      (h : parse tokens = .error (.refused cause rest)) :
    ∃ taken, tokens = taken ++ rest ∧ ∀ like following, SameLexemes like taken →
      SameLexemes (following.take 2) (rest.take 2) →
      parse (like ++ following) = .error (.refused cause following)
  notNumeric {tokens : List Token} {spelling : Text}
      (h : parse tokens = .error (.notNumeric spelling)) :
    ∃ taken token rest, tokens = taken ++ token :: rest ∧ token.lexeme = .number spelling ∧
      numberConstant? spelling = none ∧ parse taken = .error (.refused .expectedConstant [])
  asked {tokens rest : List Token} {token : Token} {spelling : Text}
      (h : parse tokens = .error (.refused .expectedConstant []))
      (hlexeme : token.lexeme = .number spelling) (hvalue : numberConstant? spelling = none) :
    parse (tokens ++ token :: rest) = .error (.notNumeric spelling)

namespace LeftToRight

/-! ### Chains -/

/-- A parse that accepts every input. -/
theorem accepts {f : List Token → α × List Token}
    (h : ∀ tokens, ∃ taken, tokens = taken ++ (f tokens).2 ∧
      ∀ like following, SameLexemes like taken →
        SameLexemes (following.take 1) ((f tokens).2.take 1) →
        f (like ++ following) = ((f tokens).1, following)) :
    LeftToRight (fun tokens => .ok (f tokens) : Parse α) where
  ok {tokens rest value} hparse := by
    have hresult : f tokens = (value, rest) := Except.ok.inj hparse
    obtain ⟨taken, htokens, htaken⟩ := h tokens
    rw [hresult] at htokens htaken
    exact ⟨taken, htokens, fun like following hlike hfollowing =>
      congrArg Except.ok (htaken like following hlike hfollowing)⟩
  refused h := ok_error_elim rfl h
  notNumeric h := ok_error_elim rfl h
  asked h := ok_error_elim rfl h

/-- A look at the next lexeme. -/
theorem look (f : Option Lexeme → α) :
    LeftToRight (fun tokens => .ok (f (tokens.head?.map Token.lexeme), tokens) : Parse α) := by
  refine accepts fun tokens => ⟨[], rfl, fun like following hlike hfollowing => ?_⟩
  obtain rfl := SameLexemes.nil_right.mp hlike
  rw [List.nil_append, hfollowing.head_eq]

/-- A pure parse looks at nothing. -/
theorem pure (value : α) : LeftToRight (Pure.pure value : Parse α) :=
  look fun _ => value

/-- A chain reads from left to right if its parses do. What comes after a parse must not ask for a
constant at once, since whether it gets one may change what the parse before it does. -/
theorem bind (hparse : LeftToRight parse) (hnext : ∀ value, LeftToRight (next value))
    (hasks : ∀ value, ¬ AsksConstant (next value)) : LeftToRight (parse >>= next) where
  ok h := by
    obtain ⟨⟨value, middle⟩, hfirst, hsecond⟩ := bind_eq_ok_iff.mp h
    obtain ⟨taken, rfl, htaken⟩ := hparse.ok hfirst
    obtain ⟨further, rfl, hfurther⟩ := (hnext value).ok hsecond
    refine ⟨taken ++ further, (List.append_assoc ..).symm,
      fun like following hlike hfollowing => ?_⟩
    obtain ⟨left, right, rfl, hleft, hright⟩ := hlike.append_right
    rw [List.append_assoc,
      bind_of_ok (htaken left (right ++ following) hleft (hright.take_append hfollowing))]
    exact hfurther right following hright hfollowing
  refused h := by
    rcases bind_eq_error_iff.mp h with hfirst | ⟨⟨value, middle⟩, hfirst, hsecond⟩
    · obtain ⟨taken, rfl, htaken⟩ := hparse.refused hfirst
      exact ⟨taken, rfl, fun like following hlike hfollowing =>
        bind_of_error (htaken like following hlike hfollowing)⟩
    · obtain ⟨taken, rfl, htaken⟩ := hparse.ok hfirst
      obtain ⟨further, rfl, hfurther⟩ := (hnext value).refused hsecond
      refine ⟨taken ++ further, (List.append_assoc ..).symm,
        fun like following hlike hfollowing => ?_⟩
      obtain ⟨left, right, rfl, hleft, hright⟩ := hlike.append_right
      rw [List.append_assoc, bind_of_ok
        (htaken left (right ++ following) hleft (hright.take_append hfollowing.take_one))]
      exact hfurther right following hright hfollowing
  notNumeric h := by
    rcases bind_eq_error_iff.mp h with hfirst | ⟨⟨value, middle⟩, hfirst, hsecond⟩
    · obtain ⟨taken, token, rest, rfl, hlexeme, hvalue, htaken⟩ := hparse.notNumeric hfirst
      exact ⟨taken, token, rest, rfl, hlexeme, hvalue, bind_of_error htaken⟩
    · obtain ⟨taken, rfl, htaken⟩ := hparse.ok hfirst
      obtain ⟨further, token, rest, rfl, hlexeme, hvalue, hfurther⟩ :=
        (hnext value).notNumeric hsecond
      refine ⟨taken ++ further, token, rest, (List.append_assoc ..).symm, hlexeme, hvalue, ?_⟩
      cases further with
      | nil => exact absurd hfurther (hasks value)
      | cons head further =>
          rw [bind_of_ok (htaken taken (head :: further) (SameLexemes.refl _) rfl)]
          exact hfurther
  asked h hlexeme hvalue := by
    rcases bind_eq_error_iff.mp h with hfirst | ⟨⟨value, middle⟩, hfirst, hsecond⟩
    · exact bind_of_error (hparse.asked hfirst hlexeme hvalue)
    · obtain ⟨taken, rfl, htaken⟩ := hparse.ok hfirst
      cases middle with
      | nil => exact absurd hsecond (hasks value)
      | cons head middle =>
          rw [List.append_assoc,
            bind_of_ok (htaken taken (head :: middle ++ _) (SameLexemes.refl _) rfl)]
          exact (hnext value).asked hsecond hlexeme hvalue

/-- The parse leaves the end of its input. -/
theorem suffix (hparse : LeftToRight parse) {tokens rest : List Token} {value : α}
    (h : parse tokens = .ok (value, rest)) : rest <:+ tokens := by
  obtain ⟨taken, rfl, -⟩ := hparse.ok h
  exact List.suffix_append taken rest

/-- Where a chain asks for a constant at once, one of its parses does. -/
theorem not_asksConstant_bind (hparse : LeftToRight parse) (hfirst : ¬ AsksConstant parse)
    (hnext : ∀ value, ¬ AsksConstant (next value)) : ¬ AsksConstant (parse >>= next) := by
  intro h
  rcases bind_eq_error_iff.mp h with hasks | ⟨⟨value, rest⟩, hvalue, hasks⟩
  · exact hfirst hasks
  · obtain rfl := List.suffix_nil.mp (hparse.suffix hvalue)
    exact hnext value hasks

/-- The last parse of a chain, whose value is wrapped up. -/
theorem wrap (hparse : LeftToRight parse) (f : α → β) :
    LeftToRight (parse >>= fun value => Pure.pure (f value)) :=
  bind hparse (fun value => pure (f value)) fun _ => nofun

/-- Either branch reads from left to right. -/
theorem ite {condition : Prop} [Decidable condition] {other : Parse α}
    (hparse : LeftToRight parse) (hother : LeftToRight other) :
    LeftToRight (if condition then parse else other) := by
  split
  · exact hparse
  · exact hother

/-! ### The vocabulary -/

/-- A look at the next lexeme. -/
theorem peek : LeftToRight Parse.peek :=
  look id

/-- A look at the kind of the next lexeme. -/
theorem peekKind : LeftToRight Parse.peekKind := by
  have h := look fun lexeme? : Option Lexeme => lexeme?.map Lexeme.kind
  simp only [Option.map_map] at h
  exact h

/-- A refusal of the next token, whatever it is. -/
theorem refuse {cause : Refusal} (hcause : cause ≠ .expectedConstant) :
    LeftToRight (Parse.refuse cause : Parse α) where
  ok h := ok_error_elim h rfl
  refused h := by
    obtain ⟨rfl, rfl⟩ := Fault.refused.inj (Except.error.inj h)
    refine ⟨[], rfl, fun like following hlike _ => ?_⟩
    obtain rfl := SameLexemes.nil_right.mp hlike
    rfl
  notNumeric h := Fault.noConfusion (Except.error.inj h)
  asked h := absurd (Fault.refused.inj (Except.error.inj h)).1 hcause

/-- What a parse makes of an input that starts with a lexeme: it takes the lexeme and goes on with
another parse, or refuses it, or finds that it is a number literal without a value. -/
inductive Begins (parse : Parse α) (lexeme : Lexeme) : Prop
  | goesOn {later : Parse α} (hlater : LeftToRight later)
      (h : ∀ position rest, parse (⟨lexeme, position⟩ :: rest) = later rest)
  | refuses (cause : Refusal)
      (h : ∀ position rest,
        parse (⟨lexeme, position⟩ :: rest) = .error (.refused cause (⟨lexeme, position⟩ :: rest)))
  | valueless {spelling : Text} (hlexeme : lexeme = .number spelling)
      (hvalue : numberConstant? spelling = none) (hasks : AsksConstant parse)
      (h : ∀ position rest, parse (⟨lexeme, position⟩ :: rest) = .error (.notNumeric spelling))

/-- A parse that decides by the first lexeme, and that refuses the end of the input. -/
theorem byLexeme (cause : Refusal) (hend : parse [] = .error (.refused cause []))
    (htoken : ∀ lexeme, Begins parse lexeme)
    (hasked : cause = .expectedConstant → ∀ spelling, numberConstant? spelling = none →
      ∀ position rest,
        parse (⟨.number spelling, position⟩ :: rest) = .error (.notNumeric spelling)) :
    LeftToRight parse where
  ok {tokens _ _} h := by
    cases tokens with
    | nil => exact ok_error_elim h hend
    | cons token tokens =>
        cases htoken token.lexeme with
        | goesOn hlater hstart =>
            obtain ⟨taken, rfl, htaken⟩ := hlater.ok ((hstart _ _).symm.trans h)
            refine ⟨token :: taken, rfl, fun like following hlike hfollowing => ?_⟩
            obtain ⟨head, tail, rfl, hhead, htail⟩ := hlike.cons_right
            rw [← hhead] at hstart
            exact (hstart head.position _).trans (htaken tail following htail hfollowing)
        | refuses _ hstart =>
            exact ok_error_elim h (hstart _ _)
        | valueless _ _ _ hstart =>
            exact ok_error_elim h (hstart _ _)
  refused {tokens _ _} h := by
    cases tokens with
    | nil =>
        obtain ⟨rfl, rfl⟩ := Fault.refused.inj (Except.error.inj (hend.symm.trans h))
        refine ⟨[], rfl, fun like following hlike hfollowing => ?_⟩
        obtain rfl := SameLexemes.nil_right.mp hlike
        obtain rfl := hfollowing.ends
        exact hend
    | cons token tokens =>
        cases htoken token.lexeme with
        | goesOn hlater hstart =>
            obtain ⟨taken, rfl, htaken⟩ := hlater.refused ((hstart _ _).symm.trans h)
            refine ⟨token :: taken, rfl, fun like following hlike hfollowing => ?_⟩
            obtain ⟨head, tail, rfl, hhead, htail⟩ := hlike.cons_right
            rw [← hhead] at hstart
            exact (hstart head.position _).trans (htaken tail following htail hfollowing)
        | refuses _ hstart =>
            obtain ⟨rfl, rfl⟩ :=
              Fault.refused.inj (Except.error.inj ((hstart _ _).symm.trans h))
            refine ⟨[], rfl, fun like following hlike hfollowing => ?_⟩
            obtain rfl := SameLexemes.nil_right.mp hlike
            obtain ⟨head, following, rfl, hhead⟩ := hfollowing.goesOn
            rw [← hhead] at hstart
            exact hstart head.position following
        | valueless _ _ _ hstart =>
            exact Fault.noConfusion (Except.error.inj ((hstart _ _).symm.trans h))
  notNumeric {tokens _} h := by
    cases tokens with
    | nil => exact Fault.noConfusion (Except.error.inj (hend.symm.trans h))
    | cons token tokens =>
        cases htoken token.lexeme with
        | goesOn hlater hstart =>
            obtain ⟨taken, number, rest, rfl, hnumber, hvalue, htaken⟩ :=
              hlater.notNumeric ((hstart _ _).symm.trans h)
            exact ⟨token :: taken, number, rest, rfl, hnumber, hvalue, (hstart _ _).trans htaken⟩
        | refuses _ hstart =>
            exact Fault.noConfusion (Except.error.inj ((hstart _ _).symm.trans h))
        | valueless hlexeme hvalue hasks hstart =>
            obtain rfl := Fault.notNumeric.inj (Except.error.inj ((hstart _ _).symm.trans h))
            exact ⟨[], token, tokens, rfl, hlexeme, hvalue, hasks⟩
  asked {tokens rest number spelling} h hlexeme hvalue := by
    cases tokens with
    | nil =>
        have hcause := (Fault.refused.inj (Except.error.inj (hend.symm.trans h))).1
        have hnumber := hasked hcause spelling hvalue number.position rest
        rw [← hlexeme] at hnumber
        exact hnumber
    | cons token tokens =>
        cases htoken token.lexeme with
        | goesOn hlater hstart =>
            exact (hstart _ _).trans
              (hlater.asked ((hstart _ _).symm.trans h) hlexeme hvalue)
        | refuses _ hstart =>
            exact absurd (Fault.refused.inj (Except.error.inj ((hstart _ _).symm.trans h))).2
              (List.cons_ne_nil _ _)
        | valueless _ _ _ hstart =>
            exact Fault.noConfusion (Except.error.inj ((hstart _ _).symm.trans h))

/-- The parse takes the lexeme as a whole. -/
theorem Begins.single {lexeme : Lexeme} (value : α)
    (h : ∀ position rest, parse (⟨lexeme, position⟩ :: rest) = .ok (value, rest)) :
    Begins parse lexeme :=
  .goesOn (pure value) h

/-- A token of a kind. -/
theorem expect (kind : TokenKind) : LeftToRight (Parse.expect kind) := by
  refine byLexeme (.expected kind) rfl (fun lexeme => ?_) nofun
  by_cases hkind : lexeme.kind = kind
  · exact .single lexeme.value fun _ _ => if_pos hkind
  · exact .refuses _ fun _ _ => if_neg hkind

/-- A keyword. -/
theorem keyword (word : Keyword) : LeftToRight (Parse.keyword word) :=
  wrap (expect _) fun _ => ()

/-- A mark. -/
theorem mark (mark : Punctuation) : LeftToRight (Parse.mark mark) :=
  wrap (expect _) fun _ => ()

/-- A name. -/
theorem name : LeftToRight Parse.name := by
  refine byLexeme .expectedName rfl (fun lexeme => ?_) nofun
  by_cases hname : lexeme.isName
  · exact .single lexeme.value fun _ _ => if_pos hname
  · exact .refuses _ fun _ _ => if_neg hname

/-- An integer. -/
theorem integer : LeftToRight Parse.integer := by
  refine byLexeme (.expected .number) rfl (fun lexeme => ?_) nofun
  cases lexeme with
  | number spelling =>
      cases hvalue : Integer.ofLiteral? spelling with
      | some value =>
          refine .single value fun position rest => bind_eq_ok_iff.mpr ⟨(spelling, rest), rfl, ?_⟩
          dsimp only
          rw [hvalue]
      | none =>
          refine .refuses .invalidInteger fun position rest =>
            bind_eq_error_iff.mpr (.inr ⟨(spelling, rest), rfl, ?_⟩)
          dsimp only
          rw [hvalue]
  | keyword | punctuation | identifier | string => exact .refuses _ fun _ _ => rfl

/-- A token is dropped, if there is one. -/
theorem skip : LeftToRight Parse.skip := by
  refine accepts fun tokens => ?_
  cases tokens with
  | nil =>
      refine ⟨[], rfl, fun like following hlike hfollowing => ?_⟩
      obtain rfl := SameLexemes.nil_right.mp hlike
      obtain rfl := hfollowing.ends
      rfl
  | cons token tokens =>
      refine ⟨[token], rfl, fun like following hlike _ => ?_⟩
      obtain ⟨head, rfl, -⟩ := hlike.singleton_right
      rfl

/-- A semicolon ends a skipped statement. -/
theorem skipStatement_of_semicolon {token : Token} (h : token.lexeme = .punctuation .semicolon)
    (rest : List Token) : Parse.skipStatement (token :: rest) = .ok ((), rest) := by
  rw [Parse.skipStatement, List.dropWhile_cons_of_neg (by simp [h]), List.tail_cons]

/-- Any other token belongs to a skipped statement. -/
theorem skipStatement_of_ne {token : Token} (h : token.lexeme ≠ .punctuation .semicolon)
    (rest : List Token) : Parse.skipStatement (token :: rest) = Parse.skipStatement rest := by
  rw [Parse.skipStatement, Parse.skipStatement, List.dropWhile_cons_of_pos (by simp [h])]

/-- A statement is skipped. -/
theorem skipStatement : LeftToRight Parse.skipStatement where
  ok {tokens rest value} h := by
    induction tokens with
    | nil =>
        obtain rfl : [] = rest := (Prod.mk.inj (Except.ok.inj h)).2
        refine ⟨[], rfl, fun like following hlike hfollowing => ?_⟩
        obtain rfl := SameLexemes.nil_right.mp hlike
        obtain rfl := hfollowing.ends
        rfl
    | cons token tokens ih =>
        by_cases hend : token.lexeme = .punctuation .semicolon
        · rw [skipStatement_of_semicolon hend] at h
          obtain ⟨-, rfl⟩ := Prod.mk.inj (Except.ok.inj h)
          refine ⟨[token], rfl, fun like following hlike _ => ?_⟩
          obtain ⟨head, rfl, hhead⟩ := hlike.singleton_right
          exact skipStatement_of_semicolon (hhead.trans hend) following
        · rw [skipStatement_of_ne hend] at h
          obtain ⟨taken, rfl, htaken⟩ := ih h
          refine ⟨token :: taken, rfl, fun like following hlike hfollowing => ?_⟩
          obtain ⟨head, tail, rfl, hhead, htail⟩ := hlike.cons_right
          rw [List.cons_append, skipStatement_of_ne (hhead.trans_ne hend)]
          exact htaken tail following htail hfollowing
  refused h := ok_error_elim rfl h
  notNumeric h := ok_error_elim rfl h
  asked h := ok_error_elim rfl h

/-! ### Constants -/

/-- Adjacent strings are joined up to the next lexeme that is no string. -/
theorem joinStrings_append (tokens : List Token) :
    ∃ taken, tokens = taken ++ (joinStrings tokens).2 ∧
      ∀ like following, SameLexemes like taken →
        SameLexemes (following.take 1) ((joinStrings tokens).2.take 1) →
        joinStrings (like ++ following) = ((joinStrings tokens).1, following) := by
  induction tokens with
  | nil =>
      refine ⟨[], rfl, fun like following hlike hfollowing => ?_⟩
      obtain rfl := SameLexemes.nil_right.mp hlike
      obtain rfl := hfollowing.ends
      rfl
  | cons token tokens ih =>
      have hstring {head : Token} {value : Text} (h : head.lexeme = .string value)
          (rest : List Token) : joinStrings (head :: rest) =
            (value ++ (joinStrings rest).1, (joinStrings rest).2) := by
        rw [joinStrings, h]
      have hother {head : Token} (h : ∀ value, head.lexeme ≠ .string value)
          (rest : List Token) : joinStrings (head :: rest) = ([], head :: rest) := by
        rw [joinStrings]
        split
        next value hvalue => exact absurd hvalue (h value)
        next => rfl
      by_cases hvalue : ∃ value, token.lexeme = .string value
      · obtain ⟨value, hvalue⟩ := hvalue
        obtain ⟨taken, htokens, htaken⟩ := ih
        rw [hstring hvalue]
        refine ⟨token :: taken, congrArg (token :: ·) htokens,
          fun like following hlike hfollowing => ?_⟩
        obtain ⟨head, tail, rfl, hhead, htail⟩ := hlike.cons_right
        rw [List.cons_append, hstring (hhead.trans hvalue), htaken tail following htail hfollowing]
      · have hvalue := not_exists.mp hvalue
        rw [hother hvalue]
        refine ⟨[], rfl, fun like following hlike hfollowing => ?_⟩
        obtain rfl := SameLexemes.nil_right.mp hlike
        obtain ⟨head, following, rfl, hhead⟩ := hfollowing.goesOn
        exact hother (fun value => hhead.trans_ne (hvalue value)) following

/-- The brace that closes an aggregate ends it, and any other lexeme is a part of it. -/
theorem aggregateParts_cons (depth : Nat) (lexeme : Lexeme) :
    (∀ position rest, aggregateParts depth (⟨lexeme, position⟩ :: rest) =
      some ([aggregatePart lexeme], rest)) ∨
    ∃ deeper, ∀ position rest, aggregateParts depth (⟨lexeme, position⟩ :: rest) =
      (aggregateParts deeper rest).bind fun found =>
        some (aggregatePart lexeme :: found.1, found.2) := by
  cases lexeme with
  | punctuation mark =>
      cases mark with
      | leftBrace => exact .inr ⟨depth + 1, fun _ _ => rfl⟩
      | rightBrace =>
          cases depth with
          | zero => exact .inl fun _ _ => rfl
          | succ depth => exact .inr ⟨depth, fun _ _ => rfl⟩
      | _ => exact .inr ⟨depth, fun _ _ => rfl⟩
  | keyword | identifier | number | string => exact .inr ⟨depth, fun _ _ => rfl⟩

/-- The parts of an aggregate are those of the lexemes up to its closing brace. -/
theorem aggregateParts_append {depth : Nat} {tokens rest : List Token} {parts : List Text}
    (h : aggregateParts depth tokens = some (parts, rest)) :
    ∃ taken, tokens = taken ++ rest ∧ ∀ like following, SameLexemes like taken →
      aggregateParts depth (like ++ following) = some (parts, following) := by
  induction tokens generalizing depth parts with
  | nil => exact absurd h (by simp [aggregateParts])
  | cons token tokens ih =>
      rcases aggregateParts_cons depth token.lexeme with hclose | ⟨deeper, hpart⟩
      · obtain ⟨rfl, rfl⟩ := Prod.mk.inj (Option.some.inj ((hclose _ _).symm.trans h))
        refine ⟨[token], rfl, fun like following hlike => ?_⟩
        obtain ⟨head, rfl, hhead⟩ := hlike.singleton_right
        rw [← hhead] at hclose ⊢
        exact hclose head.position following
      · obtain ⟨⟨later, last⟩, hlater, hparts⟩ :=
          Option.bind_eq_some_iff.mp ((hpart _ _).symm.trans h)
        obtain ⟨rfl, rfl⟩ := Prod.mk.inj (Option.some.inj hparts)
        obtain ⟨taken, rfl, htaken⟩ := ih hlater
        refine ⟨token :: taken, rfl, fun like following hlike => ?_⟩
        obtain ⟨head, tail, rfl, hhead, htail⟩ := hlike.cons_right
        rw [← hhead] at hpart ⊢
        rw [List.cons_append, hpart head.position, htaken tail following htail]
        rfl

/-- An aggregate that is never closed is not closed anywhere else. -/
theorem aggregateParts_eq_none {depth : Nat} {tokens like : List Token}
    (hlike : SameLexemes like tokens) (h : aggregateParts depth tokens = none) :
    aggregateParts depth like = none := by
  cases hparts : aggregateParts depth like with
  | none => rfl
  | some found =>
      obtain ⟨taken, rfl, htaken⟩ := aggregateParts_append hparts
      obtain ⟨left, right, rfl, hleft, -⟩ := SameLexemes.append_right hlike.symm
      exact absurd (h.symm.trans (htaken left right hleft)) (by simp)

/-- An aggregate. -/
theorem aggregate : LeftToRight Parse.aggregate where
  ok {tokens _ _} h := by
    unfold Parse.aggregate at h
    split at h
    next parts rest hparts =>
      obtain ⟨rfl, rfl⟩ := Prod.mk.inj (Except.ok.inj h)
      obtain ⟨taken, rfl, htaken⟩ := aggregateParts_append hparts
      refine ⟨taken, rfl, fun like following hlike _ => ?_⟩
      rw [Parse.aggregate, htaken like following hlike]
    next => exact ok_error_elim h rfl
  refused {tokens _ _} h := by
    unfold Parse.aggregate at h
    split at h
    next => exact ok_error_elim rfl h
    next hparts =>
      obtain ⟨rfl, rfl⟩ := Fault.refused.inj (Except.error.inj h)
      refine ⟨tokens, (List.append_nil tokens).symm, fun like following hlike hfollowing => ?_⟩
      obtain rfl := hfollowing.ends
      rw [List.append_nil, Parse.aggregate, aggregateParts_eq_none hlike hparts]
  notNumeric h := by
    unfold Parse.aggregate at h
    split at h
    next => exact ok_error_elim rfl h
    next => exact Fault.noConfusion (Except.error.inj h)
  asked h := by
    unfold Parse.aggregate at h
    split at h
    next => exact ok_error_elim rfl h
    next => exact absurd (Fault.refused.inj (Except.error.inj h)).1 (by simp)

/-- The strings after the first one, joined to it. -/
theorem strings (value : Text) :
    LeftToRight (fun tokens =>
      .ok (Constant.text (value ++ (joinStrings tokens).1), (joinStrings tokens).2)) := by
  refine accepts fun tokens => ?_
  obtain ⟨taken, htokens, htaken⟩ := joinStrings_append tokens
  refine ⟨taken, htokens, fun like following hlike hfollowing => ?_⟩
  rw [htaken like following hlike hfollowing]

/-- The value of an option. -/
theorem constant : LeftToRight Parse.constant := by
  have hvalueless (spelling : Text) (hvalue : numberConstant? spelling = none)
      (position : Position) (rest : List Token) :
      Parse.constant (⟨.number spelling, position⟩ :: rest) = .error (.notNumeric spelling) := by
    rw [Parse.constant]
    dsimp only
    rw [hvalue]
  refine byLexeme .expectedConstant rfl (fun lexeme => ?_) fun _ => hvalueless
  cases lexeme with
  | string value => exact .goesOn (strings value) fun _ _ => rfl
  | number spelling =>
      cases hvalue : numberConstant? spelling with
      | none => exact .valueless rfl hvalue rfl (hvalueless spelling hvalue)
      | some value =>
          refine .single value fun position rest => ?_
          rw [Parse.constant]
          dsimp only
          rw [hvalue]
  | punctuation mark =>
      cases mark with
      | leftBrace => exact .goesOn aggregate fun _ _ => rfl
      | _ => exact .refuses _ fun _ _ => rfl
  | keyword word => exact .single _ fun _ _ => rfl
  | identifier word => exact .single _ fun _ _ => rfl

end LeftToRight

end Parse

end ProtoSchema
