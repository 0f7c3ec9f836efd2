import ProtoSchema.Proofs.Token.Marks

/-!
# The segments of a text

A scan cuts a text into gaps and sources of lexemes and drops nothing between them. `Segmented` says
so for the tokens with their places: each token stands where its source starts in the text, gaps
hold comments and code points that start no lexeme, and only the last gap may end inside a comment.
The main statement is `segmented_scan`. It follows from `step_cuts`, which says what one step makes
of the text in front of it.
-/

namespace ProtoSchema

namespace Position

/-- The place after a text: one line further for each line feed, and one column further for each
code point after the last of them. -/
def afterText (text : Text) : Position :=
  ⟨1 + text.count (CodePoint.ofChar '\n'),
    1 + (text.reverse.takeWhile fun c : CodePoint => c ≠ '\n').length⟩

/-- The place after a text and one more code point. -/
theorem afterText_concat (text : Text) (c : CodePoint) :
    afterText (text ++ [c]) = (afterText text).after c := by
  by_cases hfeed : c = '\n'
  · subst hfeed
    simp [afterText, after, nextLine, Nat.add_assoc]
  · simp [afterText, after, right, hfeed, List.count_append, Nat.add_comm]

/-- A piece without a line feed stays on the line of the text before it. -/
theorem afterText_append {text piece : Text} (h : CodePoint.ofChar '\n' ∉ piece) :
    afterText (text ++ piece) = (afterText text).right piece.length := by
  induction piece generalizing text with
  | nil => rw [List.append_nil]; rfl
  | cons c piece ih =>
      obtain ⟨hfeed, hpiece⟩ := not_or.mp (List.mem_cons.not.mp h)
      rw [List.append_cons, ih hpiece, afterText_concat, after, if_neg (Ne.symm hfeed)]
      simp [right, Nat.add_assoc, Nat.add_comm 1]

end Position

namespace Lexer

open Position (afterText)

/-- A code point that starts no lexeme: no punctuation mark, no quote, no letter, no underscore and
no digit. -/
def isFiller (c : CodePoint) : Bool :=
  (Punctuation.ofCodePoint? c).isNone && !(c = '"' || c = '\'') && !startsIdentifier c &&
    !c.isDigit

/-- The mark that ends a block comment. -/
def commentEnd : Text :=
  Text.ofString "*/"

/-- A complete comment. A line comment ends with its line feed, and a block comment with the first
end mark in it. -/
inductive IsComment : Text → Prop
  | line {body : Text} (hbody : CodePoint.ofChar '\n' ∉ body) :
      IsComment (Text.ofString "//" ++ body ++ Text.ofString "\n")
  | block {body : Text} (hbody : ¬ commentEnd <:+: body) :
      IsComment (Text.ofString "/*" ++ body ++ commentEnd)

/-- A comment that the end of the text cuts. -/
inductive IsCutComment : Text → Prop
  | line {body : Text} (hbody : CodePoint.ofChar '\n' ∉ body) :
      IsCutComment (Text.ofString "//" ++ body)
  | block {body : Text} (hbody : ¬ commentEnd <:+: body) :
      IsCutComment (Text.ofString "/*" ++ body)

/-- A gap consists of complete comments and of code points that start no lexeme. -/
inductive IsGap : Text → Prop
  | nil : IsGap []
  | filler {c : CodePoint} {gap : Text} (hc : isFiller c) (hgap : IsGap gap) : IsGap (c :: gap)
  | comment {comment gap : Text} (hcomment : IsComment comment) (hgap : IsGap gap) :
      IsGap (comment ++ gap)

/-- The last gap of a text may end with a comment that the end of the text cuts. -/
inductive IsLastGap : Text → Prop
  | whole {gap : Text} (hgap : IsGap gap) : IsLastGap gap
  | cut {gap comment : Text} (hgap : IsGap gap) (hcomment : IsCutComment comment) :
      IsLastGap (gap ++ comment)

/-- The raw text of a closed literal: a quote stands in it only after a backslash, and no backslash
stands last without a partner. -/
inductive IsQuoted (quote : CodePoint) : Text → Prop
  | nil : IsQuoted quote []
  | plain {c : CodePoint} {raw : Text} (hquote : c ≠ quote) (hslash : c ≠ '\\')
      (hraw : IsQuoted quote raw) : IsQuoted quote (c :: raw)
  | escape {c : CodePoint} {raw : Text} (hraw : IsQuoted quote raw) :
      IsQuoted quote (CodePoint.ofChar '\\' :: c :: raw)

/-- The raw text of a literal that the end of the text cuts. A backslash may stand last in it. -/
inductive IsCutQuoted (quote : CodePoint) : Text → Prop
  | whole {raw : Text} (hraw : IsQuoted quote raw) : IsCutQuoted quote raw
  | slash {raw : Text} (hraw : IsQuoted quote raw) :
      IsCutQuoted quote (raw ++ [CodePoint.ofChar '\\'])

/-- The source of a lexeme in front of a text. A string is a literal between quotes, or one without
a closing quote at the end of the text. Any other lexeme is its own source. -/
inductive Spells : Lexeme → Text → Text → Prop
  | string {quote : CodePoint} {raw value rest : Text} (hquote : quote = '"' ∨ quote = '\'')
      (hraw : IsQuoted quote raw) (hvalue : Escape.unescape raw = .ok value) :
      Spells (.string value) (quote :: (raw ++ [quote])) rest
  | cutString {quote : CodePoint} {raw value : Text} (hquote : quote = '"' ∨ quote = '\'')
      (hraw : IsCutQuoted quote raw) (hvalue : Escape.unescape raw = .ok value) :
      Spells (.string value) (quote :: raw) []
  | plain {lexeme : Lexeme} {rest : Text} (hkind : lexeme.kind ≠ .string)
      (hvalue : lexeme.value ≠ []) : Spells lexeme lexeme.value rest

/-- The text after `before` is cut into gaps and the sources of the tokens, and each token stands
where its source starts. -/
inductive Segmented : Text → Text → List Token → Prop
  | last {before gap : Text} (hgap : IsLastGap gap) : Segmented before gap []
  | token {before gap source rest : Text} {token : Token} {tokens : List Token}
      (hgap : IsGap gap) (hsource : Spells token.lexeme source rest)
      (hposition : token.position = afterText (before ++ gap))
      (hrest : Segmented (before ++ gap ++ source) rest tokens) :
      Segmented before (gap ++ (source ++ rest)) (token :: tokens)

/-! ### Comments and strings -/

/-- The rest of a block comment runs to the first end mark or to the end of the text. -/
theorem blockComment_cases (before text : Text) (taken : Nat) :
    (∃ body rest, text = body ++ (commentEnd ++ rest) ∧ ¬ commentEnd <:+: body ∧
      blockComment taken (afterText before) text =
        (taken + body.length + 2, afterText (before ++ body ++ commentEnd))) ∨
    (¬ commentEnd <:+: text ∧
      blockComment taken (afterText before) text =
        (taken + text.length, afterText (before ++ text))) := by
  induction text generalizing before taken with
  | nil => exact .inr ⟨by decide, by simp [blockComment]⟩
  | cons c rest ih =>
      by_cases hend : c = '*' && nextIs (· = '/') rest
      · obtain ⟨hstar, hnext⟩ := Bool.and_eq_true_iff.mp hend
        obtain rfl := of_decide_eq_true hstar
        cases rest with
        | nil => exact absurd hnext Bool.false_ne_true
        | cons d rest =>
            obtain rfl := of_decide_eq_true hnext
            refine .inl ⟨[], rest, rfl, by decide, ?_⟩
            rw [blockComment, if_pos hend, List.append_nil,
              Position.afterText_append (by decide)]
            rfl
      · -- No end mark starts at `c`, so one in the longer body would stand in the shorter one.
        have hstart {body tail : Text} (hrest : rest = body ++ tail)
            (hbody : ¬ commentEnd <:+: body) : ¬ commentEnd <:+: c :: body := by
          rintro hmark
          rcases List.infix_cons_iff.mp hmark with ⟨tail', htail⟩ | hmark
          · obtain ⟨rfl, rfl⟩ := List.cons.inj htail
            exact hend (by rw [hrest]; rfl)
          · exact hbody hmark
        rw [blockComment, if_neg hend, ← Position.afterText_concat]
        rcases ih (before ++ [c]) (taken + 1) with ⟨body, tail, hrest, hbody, hlength⟩ | hnone
        · refine .inl ⟨c :: body, tail, by rw [hrest]; rfl, hstart hrest hbody, ?_⟩
          rw [hlength, List.length_cons, List.append_cons before c body]
          congr 1
          omega
        · refine .inr ⟨hstart (List.append_nil rest).symm hnone.1, ?_⟩
          rw [hnone.2, List.length_cons, List.append_cons before c rest]
          congr 1
          omega

/-- A plain code point is taken into the body of a literal. -/
theorem stringBody_plain {quote c : CodePoint} (hquote : c ≠ quote) (hslash : c ≠ '\\')
    (position : Position) (rest : Text) :
    stringBody quote false position (c :: rest) =
      (c :: (stringBody quote false (position.after c) rest).1,
        (stringBody quote false (position.after c) rest).2.1 + 1,
        (stringBody quote false (position.after c) rest).2.2) := by
  simp [stringBody, hquote, hslash]

/-- A backslash takes the code point behind it into the body of a literal. -/
theorem stringBody_escape {quote : CodePoint} (hquote : ('\\' : CodePoint) ≠ quote)
    (c : CodePoint) (position : Position) (rest : Text) :
    stringBody quote false position (CodePoint.ofChar '\\' :: c :: rest) =
      (CodePoint.ofChar '\\' :: c ::
          (stringBody quote false ((position.after '\\').after c) rest).1,
        (stringBody quote false ((position.after '\\').after c) rest).2.1 + 1 + 1,
        (stringBody quote false ((position.after '\\').after c) rest).2.2) := by
  simp [stringBody, hquote]

/-- The body of a literal runs to its closing quote or to the end of the text. -/
theorem stringBody_cases {quote : CodePoint} (hquote : quote = '"' ∨ quote = '\'') :
    ∀ before text : Text,
      (∃ raw rest, text = raw ++ quote :: rest ∧ IsQuoted quote raw ∧
        stringBody quote false (afterText before) text =
          (raw, raw.length + 1, afterText (before ++ raw ++ [quote]))) ∨
      (IsCutQuoted quote text ∧ ∃ after, after.line = (afterText (before ++ text)).line ∧
        stringBody quote false (afterText before) text = (text, text.length, after))
  | before, [] => .inr ⟨.whole .nil, afterText before, by rw [List.append_nil], rfl⟩
  | before, c :: rest => by
      by_cases hend : c = quote
      · subst hend
        refine .inl ⟨[], rest, rfl, .nil, ?_⟩
        have hfeed : CodePoint.ofChar '\n' ∉ [c] := by rcases hquote with rfl | rfl <;> decide
        rw [List.append_nil, Position.afterText_append hfeed]
        simp [stringBody]
      by_cases hescape : c = '\\'
      · subst hescape
        cases rest with
        | nil =>
            -- The place counts the code point that the backslash waits for, on the same line.
            refine .inr ⟨.slash .nil, ((afterText before).after '\\').right 1, ?_, ?_⟩
            · rw [Position.afterText_concat]
              rfl
            · simp [stringBody, hend]
        | cons d rest =>
            rw [stringBody_escape hend, ← Position.afterText_concat, ← Position.afterText_concat]
            rcases stringBody_cases hquote (before ++ [CodePoint.ofChar '\\'] ++ [d]) rest with
              ⟨raw, tail, htext, hraw, hbody⟩ | ⟨hraw, after, hafter, hbody⟩
            · refine .inl ⟨'\\' :: d :: raw, tail, by rw [htext]; rfl, .escape hraw, ?_⟩
              rw [hbody, List.append_cons before _ (d :: raw), List.append_cons _ d raw]
              rfl
            · refine .inr ⟨?_, after, ?_, by rw [hbody]; rfl⟩
              · cases hraw with
                | whole hraw => exact .whole (.escape hraw)
                | slash hraw => exact .slash (.escape hraw)
              · rw [hafter, List.append_cons before _ (d :: rest), List.append_cons _ d rest]
      · rw [stringBody_plain hend hescape, ← Position.afterText_concat]
        rcases stringBody_cases hquote (before ++ [c]) rest with
          ⟨raw, tail, htext, hraw, hbody⟩ | ⟨hraw, after, hafter, hbody⟩
        · refine .inl ⟨c :: raw, tail, by rw [htext]; rfl, .plain hend hescape hraw, ?_⟩
          rw [hbody, List.append_cons before c raw]
          rfl
        · refine .inr ⟨?_, after, ?_, by rw [hbody]; rfl⟩
          · cases hraw with
            | whole hraw => exact .whole (.plain hend hescape hraw)
            | slash hraw => exact .slash (.plain hend hescape hraw)
          · rw [hafter, List.append_cons before c rest]

/-! ### Steps -/

/-- The tail of a number consists of ordinary code points. -/
theorem isOrdinary_of_mem_numberTail {hexadecimal : Bool} {previous c : CodePoint} {text : Text}
    (h : c ∈ numberTail hexadecimal previous text) : isOrdinary c := by
  induction text generalizing previous with
  | nil => exact absurd h List.not_mem_nil
  | cons d rest ih =>
      rw [numberTail] at h
      split at h
      next hcontinues =>
        rcases List.mem_cons.mp h with rfl | h
        · simp only [Bool.or_eq_true, Bool.and_eq_true] at hcontinues
          rcases hcontinues with (hplain | hdot) | ⟨⟨hsign, -⟩, -⟩
          · simp [isOrdinary, hplain]
          · simp [isOrdinary, hdot]
          · simp [isOrdinary, hsign]
        · exact ih h
      next => exact absurd h List.not_mem_nil

/-- What starts a number is ordinary. -/
theorem isOrdinary_of_startsNumber {c : CodePoint} {rest : Text} (h : startsNumber c rest) :
    isOrdinary c := by
  simp only [startsNumber, Bool.or_eq_true, Bool.and_eq_true] at h
  rcases h with hdigit | ⟨hsign | hdot, -⟩
  · simp [isOrdinary, hdigit]
  · simp [isOrdinary, hsign]
  · simp [isOrdinary, hdot]

/-- A number consists of ordinary code points. -/
theorem IsNumber.isOrdinary {number : Text} (h : IsNumber number) {c : CodePoint}
    (hmem : c ∈ number) : Lexer.isOrdinary c := by
  cases number with
  | nil => exact h.elim
  | cons first rest =>
      rcases List.mem_cons.mp hmem with rfl | hmem
      · exact isOrdinary_of_startsNumber h.1
      · rw [← h.2] at hmem
        exact isOrdinary_of_mem_numberTail hmem

/-- What one step makes of the text that follows `before`: a piece of a gap, a line comment in front
of its line feed, a comment that the end of the text cuts, or a lexeme. Where the text ends, only
the line after the step matters. -/
inductive Cuts (before : Text) : Text → Step → Prop
  | filler {c : CodePoint} {rest : Text} (hc : isFiller c) :
      Cuts before (c :: rest) (gapStep 1 (afterText (before ++ [c])))
  | comment {comment rest : Text} (hcomment : IsComment comment) :
      Cuts before (comment ++ rest) (gapStep comment.length (afterText (before ++ comment)))
  | lineComment {body rest : Text} (hbody : CodePoint.ofChar '\n' ∉ body) :
      Cuts before (Text.ofString "//" ++ body ++ CodePoint.ofChar '\n' :: rest)
        (gapStep (2 + body.length) (afterText before))
  | cut {comment : Text} {after : Position} (hcomment : IsCutComment comment)
      (hline : after.line = (afterText (before ++ comment)).line) :
      Cuts before comment (gapStep comment.length after)
  | lexeme {lexeme : Lexeme} {source rest : Text} {after : Position}
      (hsource : Spells lexeme source rest)
      (hline : after.line = (afterText (before ++ source)).line)
      (hafter : rest ≠ [] → after = afterText (before ++ source)) :
      Cuts before (source ++ rest) ⟨some lexeme, source.length, after⟩

/-- A lexeme of ordinary code points cuts the text that starts with it. -/
theorem cuts_of_isOrdinary {before text spelling : Text} {lexeme : Lexeme}
    (hkind : lexeme.kind ≠ .string) (hvalue : lexeme.value = spelling) (hne : spelling ≠ [])
    (hstart : spelling <+: text) (hordinary : ∀ c ∈ spelling, isOrdinary c) :
    Cuts before text (lexemeStep (afterText before) lexeme spelling.length) := by
  obtain ⟨rest, rfl⟩ := hstart
  have hfeed : CodePoint.ofChar '\n' ∉ spelling := by
    intro hmem
    exact absurd (hordinary _ hmem) (by decide)
  have hafter : afterText (before ++ spelling) = (afterText before).right spelling.length :=
    Position.afterText_append hfeed
  subst hvalue
  rw [lexemeStep, ← hafter]
  exact .lexeme (.plain hkind hne) rfl fun _ => rfl

/-- A step on code points that are neither marks nor quotes cuts the text. -/
theorem wordStep_cuts {before : Text} {c : CodePoint} (hfeed : c ≠ '\n')
    (hmark : Punctuation.ofCodePoint? c = none) (hquote : ¬ (c = '"' ∨ c = '\'')) (rest : Text) :
    Cuts before (c :: rest) (wordStep (afterText before) c rest) := by
  rcases wordStep_cases (afterText before) c rest with ⟨hstart, hdigit, hstep⟩ |
    ⟨number, hnumber, hstart, hstep⟩ | ⟨word, hword, hstart, hstep⟩
  · have hafter : afterText (before ++ [c]) = (afterText before).right 1 :=
      Position.afterText_append (by simpa using Ne.symm hfeed)
    rw [hstep, ← hafter]
    exact .filler (by simp [isFiller, hmark, not_or.mp hquote, hstart, hdigit])
  · have hne : number ≠ [] := by
      rintro rfl
      exact hnumber
    rw [hstep]
    exact cuts_of_isOrdinary (by simp [Lexeme.kind]) rfl hne hstart
      fun d hmem => hnumber.isOrdinary hmem
  · have hkind : (Lexeme.ofWord word).kind ≠ .string := by
      rcases Lexeme.kind_ofWord word with hkind | ⟨keyword, -, hkind⟩ <;> simp [hkind]
    have hne : word ≠ [] := by
      rintro rfl
      exact hword
    rw [hstep]
    exact cuts_of_isOrdinary hkind (Lexeme.value_ofWord word) hne hstart
      fun d hmem => hword.isOrdinary hmem

/-- A literal cuts the text. -/
theorem stringStep_cuts {before : Text} {quote : CodePoint} (hquote : quote = '"' ∨ quote = '\'')
    {rest : Text} {found : Step} (h : stringStep (afterText before) quote rest = .ok found) :
    Cuts before (quote :: rest) found := by
  have hfeed : CodePoint.ofChar '\n' ∉ [quote] := by rcases hquote with rfl | rfl <;> decide
  have hplace : (afterText before).right 1 = afterText (before ++ [quote]) :=
    (Position.afterText_append hfeed).symm
  unfold stringStep at h
  rw [hplace] at h
  rcases stringBody_cases hquote (before ++ [quote]) rest with
    ⟨raw, tail, rfl, hraw, hbody⟩ | ⟨hraw, after, hafter, hbody⟩
  · rw [hbody] at h
    obtain ⟨value, hvalue, h⟩ := bind_eq_ok_iff.mp h
    obtain rfl := Except.ok.inj h
    have hcuts : Cuts before (quote :: (raw ++ [quote]) ++ tail)
        ⟨some (.string value), (quote :: (raw ++ [quote])).length,
          afterText (before ++ quote :: (raw ++ [quote]))⟩ :=
      .lexeme (.string hquote hraw hvalue) rfl fun _ => rfl
    simpa using hcuts
  · rw [hbody] at h
    obtain ⟨value, hvalue, h⟩ := bind_eq_ok_iff.mp h
    obtain rfl := Except.ok.inj h
    have hcuts : Cuts before (quote :: rest ++ [])
        ⟨some (.string value), (quote :: rest).length, after⟩ :=
      .lexeme (.cutString hquote hraw hvalue)
        (by rw [hafter, List.append_cons before quote rest]) nofun
    rwa [List.append_nil] at hcuts

/-- A line comment cuts the text up to its line feed or to the end. -/
theorem lineComment_cuts (before rest : Text) :
    Cuts before (Text.ofString "//" ++ rest)
      (gapStep (2 + (rest.takeWhile fun c : CodePoint => c ≠ '\n').length) (afterText before)) := by
  have hsplit := List.takeWhile_append_dropWhile (p := fun c : CodePoint => c ≠ '\n') (l := rest)
  have hbody : CodePoint.ofChar '\n' ∉ rest.takeWhile fun c : CodePoint => c ≠ '\n' := by
    intro hmem
    simpa using List.all_eq_true.mp List.all_takeWhile _ hmem
  generalize rest.takeWhile (fun c : CodePoint => c ≠ '\n') = body at hsplit hbody
  cases htail : rest.dropWhile fun c : CodePoint => c ≠ '\n' with
  | nil =>
      obtain rfl : body = rest := by rwa [htail, List.append_nil] at hsplit
      have hfeed : CodePoint.ofChar '\n' ∉ Text.ofString "//" ++ body := by
        rw [List.mem_append, not_or]
        exact ⟨by decide, hbody⟩
      have hcuts : Cuts before (Text.ofString "//" ++ body)
          (gapStep (Text.ofString "//" ++ body).length (afterText before)) :=
        .cut (.line hbody) (by rw [Position.afterText_append hfeed]; rfl)
      rwa [List.length_append] at hcuts
  | cons d tail =>
      obtain rfl : d = '\n' := by
        have hhead := List.head?_dropWhile_not (fun c : CodePoint => c ≠ '\n') rest
        rw [htail] at hhead
        simpa using hhead
      rw [← hsplit, htail, ← List.append_assoc]
      exact .lineComment hbody

/-- A block comment cuts the text up to its end mark or to the end. -/
theorem blockComment_cuts (before rest : Text) :
    Cuts before (Text.ofString "/*" ++ rest)
      (gapStep (blockComment 2 ((afterText before).right 2) rest).1
        (blockComment 2 ((afterText before).right 2) rest).2) := by
  have hfeed : CodePoint.ofChar '\n' ∉ Text.ofString "/*" := by decide
  have hplace : (afterText before).right 2 = afterText (before ++ Text.ofString "/*") :=
    (Position.afterText_append hfeed).symm
  rw [hplace]
  rcases blockComment_cases (before ++ Text.ofString "/*") rest 2 with
    ⟨body, tail, rfl, hbody, hcomment⟩ | ⟨hbody, hcomment⟩
  · have hcuts : Cuts before (Text.ofString "/*" ++ body ++ commentEnd ++ tail) _ :=
      .comment (.block hbody)
    rw [List.length_append, List.length_append] at hcuts
    rw [hcomment]
    simpa only [List.append_assoc] using! hcuts
  · have hcuts : Cuts before (Text.ofString "/*" ++ rest)
        (gapStep (Text.ofString "/*" ++ rest).length
          (afterText (before ++ Text.ofString "/*" ++ rest))) :=
      .cut (.block hbody) (by rw [List.append_assoc])
    rw [List.length_append] at hcuts
    rw [hcomment]
    exact hcuts

/-- The text goes on with a code point only if it starts with it. -/
theorem exists_of_nextIs {c : CodePoint} {text : Text} (h : nextIs (· = c) text) :
    ∃ rest, text = c :: rest := by
  cases text with
  | nil => exact absurd h Bool.false_ne_true
  | cons d rest =>
      obtain rfl := of_decide_eq_true h
      exact ⟨rest, rfl⟩

/-- Every step cuts the text in front of it. -/
theorem step_cuts {before : Text} {c : CodePoint} {rest : Text} {found : Step}
    (h : step (afterText before) c rest = .ok found) : Cuts before (c :: rest) found := by
  unfold step at h
  split at h
  next hblank =>
    obtain rfl := Except.ok.inj h
    rw [← Position.afterText_concat]
    refine .filler ?_
    simp only [Bool.or_eq_true, decide_eq_true_eq] at hblank
    rcases hblank with ((rfl | rfl) | rfl) | rfl <;> decide
  next hblank =>
    split at h
    next hline =>
      obtain rfl := Except.ok.inj h
      obtain ⟨hslash, hnext⟩ := Bool.and_eq_true_iff.mp hline
      obtain rfl := of_decide_eq_true hslash
      obtain ⟨body, rfl⟩ := exists_of_nextIs hnext
      have htake : (CodePoint.ofChar '/' :: body).takeWhile (fun d : CodePoint => d ≠ '\n') =
          CodePoint.ofChar '/' :: body.takeWhile fun d : CodePoint => d ≠ '\n' := rfl
      rw [htake, List.length_cons, Nat.add_comm, Nat.add_assoc, Nat.add_comm]
      exact lineComment_cuts before body
    next =>
      split at h
      next hblock =>
        obtain rfl := Except.ok.inj h
        obtain ⟨hslash, hnext⟩ := Bool.and_eq_true_iff.mp hblock
        obtain rfl := of_decide_eq_true hslash
        obtain ⟨body, rfl⟩ := exists_of_nextIs hnext
        exact blockComment_cuts before body
      next =>
        split at h
        next mark hmark =>
          obtain rfl := Except.ok.inj h
          have hc : CodePoint.ofChar mark.char = c := by simpa using List.find?_some hmark
          subst hc
          have hfeed : CodePoint.ofChar '\n' ∉ mark.spelling := by cases mark <;> decide
          have hspells : Spells (.punctuation mark) mark.spelling rest :=
            .plain (by simp [Lexeme.kind]) (List.cons_ne_nil _ _)
          have hcuts : Cuts before (mark.spelling ++ rest)
              ⟨some (.punctuation mark), 1, afterText (before ++ mark.spelling)⟩ :=
            .lexeme hspells rfl fun _ => rfl
          rwa [Position.afterText_append hfeed] at hcuts
        next hmark =>
          split at h
          next hquote =>
            exact stringStep_cuts (by simpa using hquote) h
          next hquote =>
            obtain rfl := Except.ok.inj h
            simp only [Bool.or_eq_true, decide_eq_true_eq, not_or] at hblank
            exact wordStep_cuts hblank.2 hmark (by simpa using hquote) rest

/-! ### Scans -/

/-- A piece of a gap may stand in front of a text. -/
theorem Segmented.append {before piece text : Text} {tokens : List Token}
    (hpiece : ∀ {gap : Text}, IsGap gap → IsGap (piece ++ gap))
    (h : Segmented (before ++ piece) text tokens) : Segmented before (piece ++ text) tokens := by
  cases h with
  | last hgap =>
      cases hgap with
      | whole hgap => exact .last (.whole (hpiece hgap))
      | cut hgap hcomment =>
          rw [← List.append_assoc]
          exact .last (.cut (hpiece hgap) hcomment)
  | token hgap hsource hposition hrest =>
      rw [← List.append_assoc]
      refine .token (hpiece hgap) hsource ?_ ?_
      · rwa [List.append_assoc] at hposition
      · rwa [List.append_assoc before] at hrest

/-- What a step of this length leaves of a text. -/
theorem drop_eq_of_cons_eq {c : CodePoint} {rest piece left : Text} (h : c :: rest = piece ++ left)
    (hpiece : piece ≠ []) : rest.drop (piece.length - 1) = left := by
  cases piece with
  | nil => exact absurd rfl hpiece
  | cons d piece =>
      obtain ⟨rfl, rfl⟩ := List.cons.inj h
      exact List.drop_left

/-- The source of a lexeme is not empty. -/
theorem Spells.ne_nil {lexeme : Lexeme} {source rest : Text} (h : Spells lexeme source rest) :
    source ≠ [] := by
  cases h with
  | string => exact List.cons_ne_nil _ _
  | cutString => exact List.cons_ne_nil _ _
  | plain _ hvalue => exact hvalue

/-- A gap may start with a code point that starts no lexeme. -/
theorem Segmented.filler {before rest : Text} {c : CodePoint} {tokens : List Token}
    (hc : isFiller c) (h : Segmented (before ++ [c]) rest tokens) :
    Segmented before (c :: rest) tokens :=
  h.append fun hgap => .filler hc hgap

/-- A gap may start with a comment. -/
theorem Segmented.comment {before comment rest : Text} {tokens : List Token}
    (hcomment : IsComment comment) (h : Segmented (before ++ comment) rest tokens) :
    Segmented before (comment ++ rest) tokens :=
  h.append fun hgap => .comment hcomment hgap

/-- A complete comment is not empty. -/
theorem IsComment.ne_nil {comment : Text} (h : IsComment comment) : comment ≠ [] := by
  cases h <;> exact List.cons_ne_nil _ _

/-- A cut comment is not empty. -/
theorem IsCutComment.ne_nil {comment : Text} (h : IsCutComment comment) : comment ≠ [] := by
  cases h <;> exact List.cons_ne_nil _ _

/-- A scan of a line feed goes on at the start of the next line. -/
theorem scanFrom_feed (before rest : Text) :
    scanFrom 0 (afterText before) (CodePoint.ofChar '\n' :: rest) =
      scanFrom 0 (afterText before).nextLine rest := by
  rw [scanFrom_cons]
  show (scanFrom 0 (afterText before).nextLine rest).map id = _
  cases scanFrom 0 (afterText before).nextLine rest <;> rfl

/-- The line after a line comment starts after its line feed. -/
theorem nextLine_of_line {before body : Text} (hbody : CodePoint.ofChar '\n' ∉ body) :
    (afterText before).nextLine =
      afterText (before ++ (Text.ofString "//" ++ body ++ Text.ofString "\n")) := by
  have hfeed : CodePoint.ofChar '\n' ∉ Text.ofString "//" ++ body := by
    rw [List.mem_append, not_or]
    exact ⟨by decide, hbody⟩
  have hconcat := Position.afterText_concat (before ++ (Text.ofString "//" ++ body)) '\n'
  rw [Position.afterText_append hfeed, List.append_assoc] at hconcat
  exact hconcat.symm

/-- A scan segments the text after the one that was scanned before. -/
theorem segmented_scanFrom {before text : Text} {position : Position} {found : Scan}
    (h : scanFrom 0 position text = .ok found)
    (hline : position.line = (afterText before).line)
    (hposition : text ≠ [] → position = afterText before) :
    Segmented before text found.tokens ∧ found.stop.line = (afterText (before ++ text)).line := by
  induction hlength : text.length using Nat.strongRecOn
    generalizing before text position found with
  | ind length ih =>
      cases text with
      | nil =>
          obtain rfl := Except.ok.inj h
          exact ⟨.last (.whole .nil), by rw [hline, List.append_nil]⟩
      | cons c rest =>
          obtain rfl := hposition (List.cons_ne_nil c rest)
          rw [scanFrom_cons] at h
          obtain ⟨first, hstep, h⟩ := bind_eq_ok_iff.mp h
          obtain ⟨later, hlater, rfl⟩ := map_eq_ok_iff.mp h
          have hcuts := step_cuts hstep
          clear hstep hline hposition h
          generalize htext : c :: rest = text at hcuts hlength ⊢
          -- Each step leaves a shorter text, and the place after the step is the one after the
          -- text that it takes.
          cases hcuts with
          | @filler d left hc =>
              obtain ⟨rfl, rfl⟩ := List.cons.inj htext
              obtain ⟨hsegmented, hstop⟩ := ih rest.length (by simp [← hlength]) hlater rfl
                (fun _ => rfl) rfl
              refine ⟨hsegmented.filler hc, ?_⟩
              rw [List.append_cons before c rest]
              exact hstop
          | @comment comment left hcomment =>
              have hleft := drop_eq_of_cons_eq htext hcomment.ne_nil
              have hpositive := List.length_pos_of_ne_nil hcomment.ne_nil
              obtain ⟨hsegmented, hstop⟩ := ih left.length
                (by rw [← hlength, List.length_append]; omega) (hleft ▸ hlater) rfl
                (fun _ => rfl) rfl
              refine ⟨hsegmented.comment hcomment, ?_⟩
              rw [← List.append_assoc]
              exact hstop
          | @lineComment body left hbody =>
              -- The comment takes its line feed with it: only after that is the place known.
              have hleft := drop_eq_of_cons_eq htext (by simp [Text.ofString])
              rw [List.length_append] at hleft
              have hfeed : scanFrom 0 (afterText before) (CodePoint.ofChar '\n' :: left) =
                  .ok later := hleft ▸ hlater
              rw [scanFrom_feed, nextLine_of_line hbody] at hfeed
              obtain ⟨hsegmented, hstop⟩ := ih left.length
                (by rw [← hlength, List.length_append, List.length_cons]; omega) hfeed rfl
                (fun _ => rfl) rfl
              have hsplit : Text.ofString "//" ++ body ++ CodePoint.ofChar '\n' :: left =
                  Text.ofString "//" ++ body ++ Text.ofString "\n" ++ left :=
                List.append_cons _ _ _
              rw [hsplit]
              refine ⟨hsegmented.comment (.line hbody), ?_⟩
              rw [← List.append_assoc]
              exact hstop
          | @cut comment after hcomment hline =>
              have hleft := drop_eq_of_cons_eq (htext.trans (List.append_nil _).symm)
                hcomment.ne_nil
              have hlater : scanFrom 0 after [] = .ok later := hleft ▸ hlater
              obtain rfl := Except.ok.inj hlater
              exact ⟨.last (.cut .nil hcomment), hline⟩
          | @lexeme lexeme source left after hsource hline hafter =>
              have hleft := drop_eq_of_cons_eq htext hsource.ne_nil
              have hpositive := List.length_pos_of_ne_nil hsource.ne_nil
              obtain ⟨hsegmented, hstop⟩ := ih left.length
                (by rw [← hlength, List.length_append]; omega) (hleft ▸ hlater) hline hafter rfl
              have htoken : Segmented before ([] ++ (source ++ left))
                  (⟨lexeme, afterText before⟩ :: later.tokens) :=
                .token .nil hsource (by rw [List.append_nil]) (by rwa [List.append_nil])
              refine ⟨htoken, ?_⟩
              rw [← List.append_assoc]
              exact hstop

/-- A text that can be scanned is cut into gaps and the sources of its tokens, each at its true
place, and the scan ends on the last line of the text. -/
theorem segmented_scan {text : Text} {found : Scan} (h : scan text = .ok found) :
    Segmented [] text found.tokens ∧
      found.stop.line = 1 + text.count (CodePoint.ofChar '\n') :=
  segmented_scanFrom h rfl fun _ => rfl

/-- A block comment over two lines, a string with a line feed in it and a line comment that the end
cuts. -/
theorem segmented_scan_lines :
    ∃ found, scan (Text.ofString "/* a\nb */ x\n'\\'\n' -1e+5// c") = .ok found ∧
      found.tokens.map Token.position = [⟨2, 6⟩, ⟨3, 1⟩, ⟨4, 3⟩] ∧
      Segmented [] (Text.ofString "/* a\nb */ x\n'\\'\n' -1e+5// c") found.tokens ∧
      found.stop.line = 4 :=
  ⟨_, rfl, by decide +kernel, segmented_scan rfl⟩

end Lexer

end ProtoSchema
